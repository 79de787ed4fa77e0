import Mathlib.Logic.Function.Basic
import UdpAnalyzer.Channel.Collector
import UdpAnalyzer.Lib.Memory
import UdpAnalyzer.Lib.PerCpu

/-! The kernel side of the channel collectors (`tcp_channel.bpf.c`,
`udp_channel.bpf.c`): the hooks account the calls on a socket in a per-CPU map of
flows, which evicts any flow at any moment. The two programs share the layout of
the map and the accounting function; they differ in the sockets they take and in
the calls they hook. A hook runs on one CPU and touches the slot of that CPU only. -/

namespace UdpAnalyzer

/-- `struct tcp_channel_key` and `struct udp_channel_key`. The padding is zero in
every key the programs build and is left to the layout. -/
structure ChannelKey where
  socketCookie : BitVec 64
  srcIp4 : BitVec 32
  dstIp4 : BitVec 32
  srcPort : BitVec 16
  dstPort : BitVec 16
  family : BitVec 8
  ipProto : BitVec 8
  cgroupId : BitVec 64
  deriving DecidableEq, Repr

/-- `struct tcp_channel_value` and `struct udp_channel_value`. -/
structure ChannelValue where
  txBytes : BitVec 64 := 0
  rxBytes : BitVec 64 := 0
  txCalls : BitVec 64 := 0
  rxCalls : BitVec 64 := 0
  connections : BitVec 64 := 0
  startNs : BitVec 64 := 0
  lastNs : BitVec 64 := 0
  pid : BitVec 32 := 0
  ifindex : BitVec 32 := 0
  state : BitVec 32 := 0
  deriving DecidableEq, Repr

/-- One counter of a slot. -/
def ChannelValue.counter (f : FlowField) (v : ChannelValue) : BitVec 64 :=
  match f with
  | .txBytes => v.txBytes
  | .rxBytes => v.rxBytes
  | .txCalls => v.txCalls
  | .rxCalls => v.rxCalls
  | .connections => v.connections

/-- What the hooks read of `struct sock`, and the cookie of the socket. -/
structure Sock where
  cookie : BitVec 64
  family : BitVec 16
  rcvSaddr : BitVec 32
  daddr : BitVec 32
  num : BitVec 16
  /-- In network byte order. -/
  dport : BitVec 16
  boundDevIf : BitVec 32
  deriving DecidableEq, Repr

/-- Where and for whom a hook runs, and whether the map has room for a new key. -/
structure HookContext (n : ℕ) where
  cpu : Fin n
  nowNs : BitVec 64
  pidTgid : BitVec 64
  cgroupId : BitVec 64
  room : Bool := true
  deriving DecidableEq, Repr

/-- The arguments of `account_tcp_flow` after the socket. -/
structure Charge where
  txBytes : BitVec 64 := 0
  rxBytes : BitVec 64 := 0
  txCalls : BitVec 64 := 0
  rxCalls : BitVec 64 := 0
  connections : BitVec 64 := 0
  state : BitVec 32 := 0
  deriving DecidableEq, Repr

def Charge.counter (f : FlowField) (c : Charge) : BitVec 64 :=
  match f with
  | .txBytes => c.txBytes
  | .rxBytes => c.rxBytes
  | .txCalls => c.txCalls
  | .rxCalls => c.rxCalls
  | .connections => c.connections

/-! ### The map -/

/-- The flow map: a slot for each of `n` CPUs under every key. -/
abbrev FlowMap (n : ℕ) := Dict ChannelKey (Fin n → ChannelValue)

namespace FlowMap

variable {n : ℕ}

/-- `bpf_map_lookup_elem`: the slot of the current CPU. -/
def lookupElem (m : FlowMap n) (cpu : Fin n) (key : ChannelKey) : Option ChannelValue :=
  (m.get? key).map fun slots => slots cpu

/-- `bpf_map_update_elem` with `BPF_NOEXIST`: the current CPU gets the value, the
slots of the others start at zero. -/
def updateNoExist (m : FlowMap n) (ctx : HookContext n) (key : ChannelKey) (value : ChannelValue) :
    FlowMap n :=
  if key ∈ m ∨ ctx.room = false then m
  else m.set key (Function.update (fun _ => {}) ctx.cpu value)

/-- A write through the pointer of a lookup. -/
def writeSlot (m : FlowMap n) (cpu : Fin n) (key : ChannelKey) (value : ChannelValue) : FlowMap n :=
  match m.get? key with
  | none => m
  | some slots => m.set key (Function.update slots cpu value)

/-- The map drops the key with the slots of all CPUs. -/
def evict (m : FlowMap n) (key : ChannelKey) : FlowMap n := m.restrict fun k => k ≠ key

end FlowMap

/-! ### Accounting -/

/-- The record a missing flow starts from. -/
def freshValue {n : ℕ} (ctx : HookContext n) (sk : Sock) (state : BitVec 32) : ChannelValue where
  startNs := ctx.nowNs
  lastNs := ctx.nowNs
  pid := (ctx.pidTgid >>> 32).setWidth 32
  ifindex := sk.boundDevIf
  state := state

/-- The update of a slot; `zero` is the record of the current call. -/
def ChannelValue.account (value zero : ChannelValue) (charge : Charge) (nowNs : BitVec 64) :
    ChannelValue where
  txBytes := value.txBytes + charge.txBytes
  rxBytes := value.rxBytes + charge.rxBytes
  txCalls := value.txCalls + charge.txCalls
  rxCalls := value.rxCalls + charge.rxCalls
  connections := value.connections + charge.connections
  startNs := if value.startNs = 0 then nowNs else value.startNs
  lastNs := nowNs
  pid := if value.pid = 0 then zero.pid else value.pid
  ifindex := if value.ifindex = 0 then zero.ifindex else value.ifindex
  state := if charge.state ≠ 0 then charge.state else value.state

/-- `account_tcp_flow` and `account_udp_flow` from the filled key on: look the flow
up, create it where it is missing, look again, add. -/
def accountFlow {n : ℕ} (ctx : HookContext n) (sk : Sock) (key : ChannelKey) (charge : Charge)
    (m : FlowMap n) : FlowMap n :=
  let zero := freshValue ctx sk charge.state
  let m := if (m.lookupElem ctx.cpu key).isNone then m.updateNoExist ctx key zero else m
  match m.lookupElem ctx.cpu key with
  | none => m
  | some value => m.writeSlot ctx.cpu key (value.account zero charge ctx.nowNs)

def afInet : BitVec 16 := 2

/-- The key of a flow, before the check of its addresses and ports. -/
def flowKeyOf (sk : Sock) (ipProto : BitVec 8) (cgroupId : BitVec 64) : ChannelKey where
  socketCookie := sk.cookie
  srcIp4 := sk.rcvSaddr
  dstIp4 := sk.daddr
  srcPort := sk.num
  dstPort := ntohs sk.dport
  family := 2
  ipProto := ipProto
  cgroupId := cgroupId

/-- `fill_tcp_key`: an IPv4 socket with a cookie, both ports and a peer. -/
def fillTcpKey (sk : Sock) (cgroupId : BitVec 64) : Option ChannelKey :=
  if sk.family ≠ afInet then none
  else if sk.cookie = 0 then none
  else
    let key := flowKeyOf sk 6 cgroupId
    if key.srcPort = 0 ∨ key.dstPort = 0 ∨ key.dstIp4 = 0 then none else some key

/-- `fill_udp_key`: an IPv4 socket with a cookie and a bound port. -/
def fillUdpKey (sk : Sock) (cgroupId : BitVec 64) : Option ChannelKey :=
  if sk.family ≠ afInet then none
  else if sk.cookie = 0 then none
  else
    let key := flowKeyOf sk 17 cgroupId
    if key.srcPort = 0 then none else some key

/-! ### Hooks -/

/-- The calls `tcp_channel.bpf.c` hooks, with the arguments the hooks read. The
socket is missing where the kernel passes a null pointer. -/
inductive TcpCall where
  | connectExit (sk : Option Sock) (ret : BitVec 32)
  | sendmsgExit (sk : Option Sock) (ret : BitVec 32)
  | recvmsgExit (sk : Option Sock) (flags ret : BitVec 32)
  | setStateEntry (sk : Option Sock) (state : BitVec 32)
  deriving DecidableEq, Repr

/-- The call `udp_channel.bpf.c` hooks. -/
inductive UdpCall where
  | recvmsgExit (sk : Option Sock) (flags ret : BitVec 32)
  deriving DecidableEq, Repr

section
variable {n : ℕ}

/-- `account_tcp_flow`. -/
def accountTcpFlow (ctx : HookContext n) (sk : Option Sock) (charge : Charge) (m : FlowMap n) :
    FlowMap n :=
  match sk with
  | none => m
  | some sk =>
    match fillTcpKey sk ctx.cgroupId with
    | none => m
    | some key => accountFlow ctx sk key charge m

/-- `account_udp_flow`. -/
def accountUdpFlow (ctx : HookContext n) (sk : Option Sock) (rxBytes rxCalls : BitVec 64)
    (m : FlowMap n) : FlowMap n :=
  match sk with
  | none => m
  | some sk =>
    match fillUdpKey sk ctx.cgroupId with
    | none => m
    | some key => accountFlow ctx sk key { rxBytes, rxCalls } m

/-- `update_tcp_state`. -/
def updateTcpState (ctx : HookContext n) (sk : Option Sock) (state : BitVec 32) (m : FlowMap n) :
    FlowMap n :=
  match sk with
  | none => m
  | some sk =>
    match fillTcpKey sk ctx.cgroupId with
    | none => m
    | some key =>
      match m.lookupElem ctx.cpu key with
      | none => m
      | some value => m.writeSlot ctx.cpu key { value with lastNs := ctx.nowNs, state := state }

/-- The four programs of `tcp_channel.bpf.c`. -/
def tcpHook (ctx : HookContext n) : TcpCall → FlowMap n → FlowMap n
  | .connectExit sk ret, m => if ret = 0 then accountTcpFlow ctx sk { connections := 1 } m else m
  | .sendmsgExit sk ret, m =>
    if 0 < ret.toInt then
      accountTcpFlow ctx sk { txBytes := ret.signExtend 64, txCalls := 1 } m
    else m
  | .recvmsgExit sk _ ret, m =>
    if 0 < ret.toInt then
      accountTcpFlow ctx sk { rxBytes := ret.signExtend 64, rxCalls := 1 } m
    else m
  | .setStateEntry sk state, m => updateTcpState ctx sk state m

def msgPeek : BitVec 32 := 2

def msgErrqueue : BitVec 32 := 0x2000

/-- The program of `udp_channel.bpf.c`. -/
def udpHook (ctx : HookContext n) : UdpCall → FlowMap n → FlowMap n
  | .recvmsgExit sk flags ret, m =>
    if flags &&& (msgPeek ||| msgErrqueue) ≠ 0 then m
    else if 0 < ret.toInt then accountUdpFlow ctx sk (ret.signExtend 64) 1 m
    else m

end

end UdpAnalyzer

import UdpAnalyzer.Ingress.Datagrams
import UdpAnalyzer.Ingress.Decode
import UdpAnalyzer.Lib.Meter

/-! The receive side of the ingress collector (`udp_receive.bpf.c`): a program on
`udp_queue_rcv_skb`, as a fentry program or as a kprobe, that counts a datagram for the socket it
is delivered to. What it reads of the kernel it may fail to read, and then it counts nothing. -/

namespace UdpAnalyzer

/-! ### What the program reads -/

/-- `struct file`, as far as `f_inode` and its `i_ino`. -/
structure KernelFile where
  fInode : Option (BitVec 64)
  deriving DecidableEq, Repr

/-- `struct socket`. -/
structure KernelSocket where
  file : Option KernelFile
  deriving DecidableEq, Repr

/-- `struct sock`, and the cookie of the socket. -/
structure ReceiveSock where
  cookie : BitVec 64
  family : BitVec 16
  skSocket : Option KernelSocket
  deriving DecidableEq, Repr

/-- `struct sk_buff`. The memory is what can be read from `head` on, and `head` may be null. -/
structure SkBuff where
  head : Option (ℕ → Option UInt8)
  networkHeader : BitVec 16
  transportHeader : BitVec 16
  skbIif : BitVec 32
  /-- The `ifindex` of `dev`. -/
  dev : Option (BitVec 32)

/-- `bpf_probe_read_kernel`: all the bytes, or a failure. -/
def probeRead (memory : ℕ → Option UInt8) (offset size : ℕ) : Option Bytes :=
  (List.range size).mapM fun i => memory (offset + i)

/-- `socket_inode`. A pointer that is null at any place gives zero. -/
def socketInode (sk : Option ReceiveSock) : BitVec 64 :=
  ((sk.bind ReceiveSock.skSocket).bind KernelSocket.file |>.bind KernelFile.fInode).getD 0

/-- `ingress_ifindex`. -/
def ingressIfindex (skb : SkBuff) : BitVec 32 := if skb.skbIif ≠ 0 then skb.skbIif else skb.dev.getD 0

/-- What a datagram is counted as: the key, the record a missing key starts from, and the length
field. -/
structure DeliveredDatagram where
  key : DeliveredKey
  zero : DeliveredValue
  udpLen : BitVec 16
  deriving DecidableEq, Repr

def DeliveredValue.empty : DeliveredValue := ⟨0, 0, 0, 0⟩

/-- A 16-bit field in network byte order. -/
def netField16 (header : Bytes) (offset : ℕ) : BitVec 16 :=
  ntohs (BitVec.ofNat 16 (byteAt header offset + 256 * byteAt header (offset + 1)))

/-- `account_udp_delivery` up to the filled key. -/
def readDelivery (sk : Option ReceiveSock) (skb : Option SkBuff) (cookie inode : BitVec 64) :
    Option DeliveredDatagram :=
  match sk, skb with
  | some sk, some skb =>
    if sk.family ≠ 2 then none
    else do
      let memory ← skb.head
      let ip ← probeRead memory skb.networkHeader.toNat ipHeaderBytes
      if byteAt ip 0 / 16 ≠ 4 ∨ byteAt ip 9 ≠ 17 then none
      else do
        let udp ← probeRead memory skb.transportHeader.toNat udpHeaderBytes
        if cookie = 0 then none
        else some {
          key := {
            socketCookie := cookie
            srcIp4 := BitVec.ofNat 32 (le32At ip 12), dstIp4 := BitVec.ofNat 32 (le32At ip 16)
            srcPort := netField16 udp 0, dstPort := netField16 udp 2, family := 2, ipProto := 17 }
          zero := { DeliveredValue.empty with socketInode := inode, ifindex := ingressIfindex skb }
          udpLen := netField16 udp 4 }
  | _, _ => none

/-! ### Counting -/

/-- The update of a record. -/
def DeliveredValue.deliver (value : DeliveredValue) (datagram : DeliveredDatagram) :
    DeliveredValue where
  packets := value.packets + 1
  bytes :=
    if udpHeaderBytes ≤ datagram.udpLen.toNat then value.bytes + (datagram.udpLen.setWidth 64 - 8)
    else value.bytes
  socketInode := if value.socketInode = 0 then datagram.zero.socketInode else value.socketInode
  ifindex := if value.ifindex = 0 then datagram.zero.ifindex else value.ifindex

/-- `udp_delivered_counters`. -/
abbrev DeliveredMap (n : ℕ) := PerCpuMap n DeliveredKey DeliveredValue

/-- A call of `udp_queue_rcv_skb`, the CPU it runs on, and whether there is room for a new key. -/
structure ReceiveCall (n : ℕ) where
  cpu : Fin n
  room : Bool
  sk : Option ReceiveSock
  skb : Option SkBuff

section
variable {n : ℕ}

/-- `account_udp_delivery`. -/
def accountUdpDelivery (call : ReceiveCall n) (cookie inode : BitVec 64) (m : DeliveredMap n) :
    DeliveredMap n :=
  match readDelivery call.sk call.skb cookie inode with
  | none => m
  | some datagram =>
    let m :=
      if (m.lookupElem call.cpu datagram.key).isNone then
        m.updateNoExist call.room call.cpu datagram.key datagram.zero .empty
      else m
    match m.lookupElem call.cpu datagram.key with
    | none => m
    | some value => m.writeSlot call.cpu datagram.key (value.deliver datagram)

/-- The program that is attached: the fentry program asks the kernel for the cookie of the socket,
the kprobe has one of its own, which `kprobe_socket_cookie` gives it. -/
inductive ReceiveProgram where
  | fentry
  | kprobe (cookie : BitVec 64)
  deriving DecidableEq, Repr

/-- The cookie a program counts under. `bpf_get_socket_cookie` gives zero for no socket. -/
def ReceiveProgram.cookie (program : ReceiveProgram) (sk : Option ReceiveSock) : BitVec 64 :=
  match program with
  | .fentry => sk.elim 0 ReceiveSock.cookie
  | .kprobe cookie => cookie

/-- `udp_recv_fentry`, `udp_recv_kprobe`. -/
def udpRecv (m : DeliveredMap n) (program : ReceiveProgram) (call : ReceiveCall n) :
    DeliveredMap n :=
  accountUdpDelivery call (program.cookie call.sk) (socketInode call.sk) m

end

/-! ### What is counted -/

/-- A key of the map is of a UDP datagram over IPv4. -/
def DeliveredKey.IsUdp4 (key : DeliveredKey) : Prop :=
  key.family = 2 ∧ key.ipProto = 17 ∧ key.socketCookie ≠ 0

/-- What is read of a datagram to be counted. -/
theorem readDelivery_spec {sk : Option ReceiveSock} {skb : Option SkBuff} {cookie inode : BitVec 64}
    {datagram : DeliveredDatagram} (h : readDelivery sk skb cookie inode = some datagram) :
    datagram.key.IsUdp4 ∧ datagram.key.socketCookie = cookie ∧
      datagram.zero.packets = 0 ∧ datagram.zero.bytes = 0 ∧ datagram.zero.socketInode = inode ∧
      ∃ skb', skb = some skb' ∧ datagram.zero.ifindex = ingressIfindex skb' := by
  unfold readDelivery at h
  split at h
  next sk skb =>
    split at h
    · cases h
    obtain ⟨memory, -, h⟩ := Option.bind_eq_some_iff.mp h
    obtain ⟨ip, -, h⟩ := Option.bind_eq_some_iff.mp h
    split at h
    · cases h
    obtain ⟨udp, -, h⟩ := Option.bind_eq_some_iff.mp h
    split at h
    · cases h
    next hcookie =>
      cases h
      exact ⟨⟨rfl, rfl, hcookie⟩, rfl, rfl, rfl, rfl, skb, rfl, rfl⟩
  · cases h

/-- A record that starts from the one of the datagram ends as one that starts from zeros. -/
theorem deliver_zero {sk : Option ReceiveSock} {skb : Option SkBuff} {cookie inode : BitVec 64}
    {datagram : DeliveredDatagram} (h : readDelivery sk skb cookie inode = some datagram) :
    datagram.zero.deliver datagram = DeliveredValue.empty.deliver datagram := by
  obtain ⟨-, -, hpackets, hbytes, -, -⟩ := readDelivery_spec h
  unfold DeliveredValue.deliver
  rw [hpackets, hbytes]
  simp only [DeliveredValue.empty, ite_self, if_true]

/-- The bytes a datagram adds. -/
theorem deliver_bytes (value : DeliveredValue) (datagram : DeliveredDatagram) :
    (value.deliver datagram).bytes = value.bytes + payloadBytes datagram.udpLen := by
  show ite _ _ _ = value.bytes + ite _ _ _
  split_ifs
  · rfl
  · exact (BitVec.add_zero _).symm

def DeliveredValue.count (f : UdpField) (v : DeliveredValue) : BitVec 64 :=
  match f with
  | .packets => v.packets
  | .bytes => v.bytes

def UdpCounters.counter (f : UdpField) (c : UdpCounters) : BitVec 64 :=
  match f with
  | .packets => c.packets
  | .bytes => c.bytes

/-- What a datagram with a length field counts as. -/
def datagramAmount (payload : BitVec 64) : UdpField → ℕ
  | .packets => 1
  | .bytes => payload.toNat

theorem count_deliver (f : UdpField) (value : DeliveredValue) (datagram : DeliveredDatagram) :
    (value.deliver datagram).count f =
      value.count f + BitVec.ofNat 64 (datagramAmount (payloadBytes datagram.udpLen) f) := by
  cases f with
  | packets => rfl
  | bytes =>
    show (value.deliver datagram).bytes = value.bytes + BitVec.ofNat 64 _
    rw [deliver_bytes, datagramAmount, BitVec.ofNat_toNat, BitVec.setWidth_eq]

theorem counter_count (f : UdpField) (value : UdpCounters) (payload : BitVec 64) :
    (value.count payload).counter f =
      value.counter f + BitVec.ofNat 64 (datagramAmount payload f) := by
  cases f with
  | packets => rfl
  | bytes =>
    show value.bytes + payload = value.bytes + BitVec.ofNat 64 _
    rw [datagramAmount, BitVec.ofNat_toNat, BitVec.setWidth_eq]

/-! ### Both programs together -/

/-- The maps of both programs. -/
structure PacketMaps (n : ℕ) where
  ingress : IngressMaps n := {}
  delivered : DeliveredMap n := ∅

/-- What happens in the kernel: a frame comes in at the interface, or a datagram is delivered. -/
inductive PacketEvent (n : ℕ) where
  | arrives (a : Arrival n)
  | receives (program : ReceiveProgram) (call : ReceiveCall n)

section
variable {n : ℕ}

/-- The key a frame is counted under, with the bytes it adds. -/
def Arrival.charge (a : Arrival n) : Option (UdpKey × BitVec 64) :=
  a.pulled.bind fun linear => (a.frame.outcome linear).toOption

/-- What a call is counted as. -/
def ReceiveCall.datagram (call : ReceiveCall n) (program : ReceiveProgram) :
    Option DeliveredDatagram :=
  readDelivery call.sk call.skb (program.cookie call.sk) (socketInode call.sk)

/-- An event runs the program that is attached to it. -/
def PacketMaps.step (maps : PacketMaps n) : PacketEvent n → PacketMaps n
  | .arrives a => { maps with ingress := (udpIngress maps.ingress a).getD maps.ingress }
  | .receives program call => { maps with delivered := udpRecv maps.delivered program call }

/-- What an event accounts in the map of the flows. -/
def PacketEvent.ingressEntry : PacketEvent n → Option (Account n UdpKey UdpCounters)
  | .arrives a => a.charge.map fun charge =>
      { cpu := a.cpu, room := a.room, key := charge.1, fresh := {}
        add := fun value => value.count charge.2 }
  | .receives _ _ => none

def PacketEvent.ingressAmount : PacketEvent n → UdpField → ℕ
  | .arrives a, f => a.charge.elim 0 fun charge => datagramAmount charge.2 f
  | .receives _ _, _ => 0

/-- What an event accounts in the map of the sockets. -/
def PacketEvent.deliveredEntry : PacketEvent n → Option (Account n DeliveredKey DeliveredValue)
  | .arrives _ => none
  | .receives program call => (call.datagram program).map fun datagram =>
      { cpu := call.cpu, room := call.room, key := datagram.key, fresh := datagram.zero
        add := fun value => value.deliver datagram }

def PacketEvent.deliveredAmount : PacketEvent n → UdpField → ℕ
  | .arrives _, _ => 0
  | .receives program call, f => (call.datagram program).elim 0 fun datagram =>
      datagramAmount (payloadBytes datagram.udpLen) f

/-- A frame that is counted changes the map of the flows, another one leaves it alone. -/
theorem counters_handle (maps : IngressMaps n) (a : Arrival n) :
    (maps.handle a).counters = a.charge.elim maps.counters fun charge =>
      maps.counters.account {} { cpu := a.cpu, room := a.room, key := charge.1, fresh := {}
                                 add := fun value => value.count charge.2 } := by
  unfold IngressMaps.handle Arrival.charge
  cases a.pulled with
  | none => rfl
  | some linear =>
    dsimp only [Option.bind_some]
    cases a.frame.outcome linear with
    | error reason => rfl
    | ok charge =>
      show (countUdp4 a charge.1 charge.2 maps).counters = PerCpuMap.account _ _ _
      rcases hlookup : (a.prepared charge.1 maps).lookupElem a.cpu charge.1 with _ | value
      all_goals
        unfold Arrival.prepared at hlookup
        simp only [countUdp4, PerCpuMap.account, hlookup]
      rfl

/-- A datagram that is counted changes the map of the sockets as an account does. -/
theorem accountUdpDelivery_eq (call : ReceiveCall n) (cookie inode : BitVec 64)
    (m : DeliveredMap n) : accountUdpDelivery call cookie inode m =
      (readDelivery call.sk call.skb cookie inode).elim m fun datagram =>
        m.account .empty { cpu := call.cpu, room := call.room, key := datagram.key
                           fresh := datagram.zero, add := fun value => value.deliver datagram } := by
  unfold accountUdpDelivery
  cases readDelivery call.sk call.skb cookie inode with
  | none => rfl
  | some datagram =>
    dsimp only [Option.elim_some, PerCpuMap.account]
    split <;> rename_i hlookup <;> simp only [hlookup]

/-- The map of the flows as a table of counters. -/
def ingressTable (n : ℕ) : AccountedTable (PacketMaps n) (PacketEvent n) UdpKey UdpCounters UdpField n where
  step := PacketMaps.step
  table maps := maps.ingress.counters
  zero := {}
  field := UdpCounters.counter
  entry := PacketEvent.ingressEntry
  amount := PacketEvent.ingressAmount
  field_zero f := by cases f <;> rfl
  table_step maps event := by
    cases event with
    | arrives a =>
      show ((udpIngress maps.ingress a).getD maps.ingress).counters = _
      rw [udpIngress_eq, Option.getD_some, counters_handle, PacketEvent.ingressEntry]
      cases a.charge <;> rfl
    | receives program call => rfl
  fresh event e he := by
    cases event with
    | arrives a =>
      obtain ⟨charge, -, rfl⟩ := Option.map_eq_some_iff.mp he
      rfl
    | receives program call => cases he
  field_add event e he f v := by
    cases event with
    | arrives a =>
      obtain ⟨charge, hcharge, rfl⟩ := Option.map_eq_some_iff.mp he
      rw [PacketEvent.ingressAmount, hcharge]
      exact counter_count f v charge.2
    | receives program call => cases he

/-- The map of the sockets as a table of counters. -/
def deliveredTable (n : ℕ) :
    AccountedTable (PacketMaps n) (PacketEvent n) DeliveredKey DeliveredValue UdpField n where
  step := PacketMaps.step
  table := PacketMaps.delivered
  zero := .empty
  field := DeliveredValue.count
  entry := PacketEvent.deliveredEntry
  amount := PacketEvent.deliveredAmount
  field_zero f := by cases f <;> rfl
  table_step maps event := by
    cases event with
    | arrives a => rfl
    | receives program call =>
      show accountUdpDelivery call _ _ maps.delivered = _
      rw [accountUdpDelivery_eq, PacketEvent.deliveredEntry, ReceiveCall.datagram]
      cases readDelivery call.sk call.skb (program.cookie call.sk) (socketInode call.sk) <;> rfl
  fresh event e he := by
    cases event with
    | arrives a => cases he
    | receives program call =>
      obtain ⟨datagram, hread, rfl⟩ := Option.map_eq_some_iff.mp he
      exact deliver_zero hread
  field_add event e he f v := by
    cases event with
    | arrives a => cases he
    | receives program call =>
      obtain ⟨datagram, hread, rfl⟩ := Option.map_eq_some_iff.mp he
      rw [PacketEvent.deliveredAmount, hread]
      exact count_deliver f v datagram

end

end UdpAnalyzer

import UdpAnalyzer.Channel.Catalog
import UdpAnalyzer.Lib.CounterLoop

/-! The channel collectors (`tcp_channel.py`, `udp_channel.py`): one delta loop
over socket flows with attribution of every row to a unit through the pid the
kernel stored. The two files are copies of each other; what differs is the
endpoint a row is matched by and the constants of the rows, which are the
fields of `ChannelKind`. -/

namespace UdpAnalyzer

/-- `TcpFlowKey` and `UdpFlowKey`. -/
structure FlowKey where
  socketCookie : ℤ
  srcIp4 : ℤ
  dstIp4 : ℤ
  srcPort : ℤ
  dstPort : ℤ
  family : ℤ
  ipProto : ℤ
  cgroupId : ℤ
  deriving DecidableEq, Repr

abbrev FlowIdentity := ℤ × ℤ × ℤ × ℤ × ℤ × ℤ × ℤ × ℤ

-- spelled out: the search for it runs through every order on products
instance : DecidableEq FlowIdentity :=
  @instDecidableEqProd _ _ _ (@instDecidableEqProd _ _ _ (@instDecidableEqProd _ _ _ inferInstance))

def FlowKey.identity (k : FlowKey) : FlowIdentity :=
  (k.socketCookie, k.srcIp4, k.dstIp4, k.srcPort, k.dstPort, k.family, k.ipProto, k.cgroupId)

theorem FlowKey.identity_injective : Function.Injective FlowKey.identity := by
  rintro ⟨⟩ ⟨⟩ h
  simpa [FlowKey.identity] using h

/-- `TcpFlowCounters` and `UdpFlowCounters`. -/
structure FlowCounters where
  txBytes : ℤ
  rxBytes : ℤ
  txCalls : ℤ
  rxCalls : ℤ
  connections : ℤ
  deriving DecidableEq, Repr

/-- `TcpFlowValue` and `UdpFlowValue`. -/
structure FlowValue where
  txBytes : ℤ
  rxBytes : ℤ
  txCalls : ℤ
  rxCalls : ℤ
  connections : ℤ
  startNs : ℤ
  lastNs : ℤ
  pid : ℤ
  ifindex : ℤ
  state : ℤ
  deriving DecidableEq, Repr

def FlowValue.counters (v : FlowValue) : FlowCounters :=
  ⟨v.txBytes, v.rxBytes, v.txCalls, v.rxCalls, v.connections⟩

structure FlowEntry where
  key : FlowKey
  value : FlowValue
  deriving DecidableEq, Repr

/-! ### The loop -/

inductive FlowField where
  | txBytes | rxBytes | txCalls | rxCalls | connections
  deriving DecidableEq, Repr

namespace FlowCounters

def field : FlowField → FlowCounters → ℤ
  | .txBytes, c => c.txBytes
  | .rxBytes, c => c.rxBytes
  | .txCalls, c => c.txCalls
  | .rxCalls, c => c.rxCalls
  | .connections, c => c.connections

def add (acc c : FlowCounters) : FlowCounters where
  txBytes := acc.txBytes + c.txBytes
  rxBytes := acc.rxBytes + c.rxBytes
  txCalls := acc.txCalls + c.txCalls
  rxCalls := acc.rxCalls + c.rxCalls
  connections := acc.connections + c.connections

/-- `tx_delta` to `connections_delta`. -/
def delta (counters previous : FlowCounters) : FlowCounters where
  txBytes := max (counters.txBytes - previous.txBytes) 0
  rxBytes := max (counters.rxBytes - previous.rxBytes) 0
  txCalls := max (counters.txCalls - previous.txCalls) 0
  rxCalls := max (counters.rxCalls - previous.rxCalls) 0
  connections := max (counters.connections - previous.connections) 0

/-- Not every delta is at most zero. -/
def anyPositive (d : FlowCounters) : Bool :=
  !(d.txBytes ≤ 0 && d.rxBytes ≤ 0 && d.txCalls ≤ 0 && d.rxCalls ≤ 0 && d.connections ≤ 0)

def moved (counters previous : FlowCounters) : Bool := (delta counters previous).anyPositive

theorem moved_iff (c p : FlowCounters) : moved c p = true ↔ ∃ f, field f p < field f c := by
  have hsplit : moved c p = true ↔ p.txBytes < c.txBytes ∨ p.rxBytes < c.rxBytes ∨
      p.txCalls < c.txCalls ∨ p.rxCalls < c.rxCalls ∨ p.connections < c.connections := by
    simp only [moved, anyPositive, Bool.not_eq_true', Bool.and_eq_false_iff,
      decide_eq_false_iff_not]
    simp only [delta]
    omega
  rw [hsplit]
  constructor
  · rintro (h | h | h | h | h)
    · exact ⟨.txBytes, h⟩
    · exact ⟨.rxBytes, h⟩
    · exact ⟨.txCalls, h⟩
    · exact ⟨.rxCalls, h⟩
    · exact ⟨.connections, h⟩
  · rintro ⟨_ | _ | _ | _ | _, h⟩
    · exact .inl h
    · exact .inr (.inl h)
    · exact .inr (.inr (.inl h))
    · exact .inr (.inr (.inr (.inl h)))
    · exact .inr (.inr (.inr (.inr h)))

end FlowCounters

def flowLoop : CounterLoop FlowEntry FlowIdentity FlowCounters FlowField where
  identity e := e.key.identity
  counters e := e.value.counters
  zero := ⟨0, 0, 0, 0, 0⟩
  add := FlowCounters.add
  delta := FlowCounters.delta
  moved := FlowCounters.moved
  field := FlowCounters.field
  field_zero f := by cases f <;> rfl
  field_add f a b := by cases f <;> rfl
  field_delta f c p := by cases f <;> rfl
  moved_iff := FlowCounters.moved_iff

/-! ### The collector -/

/-- `ChannelTcpSample` and `ChannelUdpSample`. -/
structure ChannelSample where
  bucketStartNs : ℤ
  bucketMs : ℤ
  srcIp : Str
  dstIp : Str
  srcPort : ℤ
  dstPort : ℤ
  socketId : ℤ
  cgroupId : ℤ
  txBytes : ℤ
  rxBytes : ℤ
  txCalls : ℤ
  rxCalls : ℤ
  connections : ℤ
  unit : Str
  channel : Str
  url : Str
  host : Str
  ifindex : ℤ
  ifname : Str
  hostPid : ℤ
  state : ℤ
  status : MatchStatus
  layer : Layer
  ipProto : ℤ
  deriving DecidableEq, Repr

def ChannelSample.counters (s : ChannelSample) : FlowCounters :=
  ⟨s.txBytes, s.rxBytes, s.txCalls, s.rxCalls, s.connections⟩

structure ChannelSampleFilter where
  channel : Option Str := none
  unit : Option Str := none
  host : Option Str := none
  status : Option MatchStatus := none
  deriving DecidableEq, Repr

def ChannelSampleFilter.matchesSample (f : ChannelSampleFilter) (sample : ChannelSample) : Bool :=
  wants f.channel sample.channel && wants f.unit sample.unit && wants f.host sample.host &&
    wants f.status sample.status

@[simp] theorem ChannelSampleFilter.matchesSample_empty (sample : ChannelSample) :
    ChannelSampleFilter.matchesSample {} sample = true := rfl

/-- What the two collectors do not share. -/
structure ChannelKind where
  /-- The endpoint a flow is matched by, which is also the row's destination. -/
  endpoint : FlowKey → Except PyExc (Str × ℤ)
  layer : Layer
  ipProto : ℤ
  /-- The message when the loader process is gone. -/
  notRunning : String
  exited : ℤ → Str → String

/-- TCP matches the peer. -/
def tcpChannel : ChannelKind where
  endpoint k := do
    let dstIp ← ipv4FromBpfInt k.dstIp4
    return (dstIp, k.dstPort)
  layer := .tcpChannel
  ipProto := 6
  notRunning := "TCP channel BPF loader is not running"
  exited code detail := s!"TCP channel BPF loader exited with status {code}" ++
    (if detail = [] then "" else ": " ++ String.ofList detail)

/-- UDP matches the peer, or the bound address where the peer's is empty; the
address and the port are chosen one by one. -/
def udpChannel : ChannelKind where
  endpoint k := do
    let ip ← ipv4FromBpfInt (if k.dstIp4 ≠ 0 then k.dstIp4 else k.srcIp4)
    return (ip, if k.dstPort ≠ 0 then k.dstPort else k.srcPort)
  layer := .udpChannel
  ipProto := 17
  notRunning := "UDP channel BPF loader is not running"
  exited code detail := s!"UDP channel BPF loader exited with status {code}" ++
    (if detail = [] then "" else ": " ++ String.ofList detail)

/-- The loader attachment of a collector, as `ensure_alive` sees it. -/
structure ChannelAttachment where
  /-- `self.process is not None`. -/
  owned : Bool
  deriving DecidableEq, Repr

structure ChannelCollector where
  catalog : ChannelCatalog
  bucketMs : ℤ
  sampleFilter : ChannelSampleFilter := {}
  previous : Dict FlowIdentity FlowCounters := ∅
  pidUnits : Dict ℤ Str := ∅
  attachment : Option ChannelAttachment := none
  lastCheckpointNs : Option ℤ := none

/-- The error file of a loader: what comes of reading it from its start, and of closing it. -/
structure LoaderStderr where
  text : Except PyExc Str := .ok []
  close : Except PyExc Unit := .ok ()

/-- What one checkpoint meets outside. -/
structure ChannelInput where
  /-- `process.poll()` of the loader. -/
  poll : Option ℤ := none
  stderr : LoaderStderr := {}
  nowNs : ℤ
  dump : Except PyExc (List FlowEntry)
  /-- `unit_for_pid`: the unit the process table names for a pid. -/
  unitForPid : ℤ → Except PyExc Str
  ifIndexToName : ℤ → Except PyExc Str

abbrev FlowEmission := Emission FlowIdentity ChannelSample ChannelSample

namespace ChannelCollector

/-- `_unit_for_pid`, on the cache. -/
def unitForPid (input : ChannelInput) (pid : ℤ) (pidUnits : Dict ℤ Str) :
    Except PyExc Str × Dict ℤ Str :=
  if pid ≤ 0 then (.ok [], pidUnits)
  else
    match pidUnits.get? pid with
    | some cached => (.ok cached, pidUnits)
    | none =>
      match input.unitForPid pid with
      | .error e => (.error e, pidUnits)
      | .ok unit => (.ok unit, pidUnits.set pid unit)

/-- The sample of an increment of a flow whose unit is known. -/
def flowSample (kind : ChannelKind) (catalog : ChannelCatalog) (input : ChannelInput)
    (bucketNs elapsed : ℤ) (entry : FlowEntry) (delta : FlowCounters) (unit : Str) :
    Except PyExc ChannelSample := do
  let (endpointIp, endpointPort) ← kind.endpoint entry.key
  let found := catalog.matchFlow unit endpointIp endpointPort
  let srcIp ← ipv4FromBpfInt entry.key.srcIp4
  let ifname ← ifnameFromIndex input.ifIndexToName entry.value.ifindex []
  return {
    bucketStartNs := bucketNs, bucketMs := elapsed, srcIp, dstIp := endpointIp
    srcPort := entry.key.srcPort, dstPort := endpointPort
    socketId := entry.key.socketCookie, cgroupId := entry.key.cgroupId
    txBytes := delta.txBytes, rxBytes := delta.rxBytes, txCalls := delta.txCalls
    rxCalls := delta.rxCalls, connections := delta.connections, unit
    channel := (found.target.map ChannelTarget.channel).getD []
    url := (found.target.map ChannelTarget.url).getD []
    host := (found.target.map ChannelTarget.host).getD []
    ifindex := entry.value.ifindex, ifname, hostPid := entry.value.pid
    state := entry.value.state, status := found.status
    layer := kind.layer, ipProto := kind.ipProto }

/-- Attribute, build, filter. -/
def emitFlow (kind : ChannelKind) (c : ChannelCollector) (input : ChannelInput)
    (bucketNs elapsed : ℤ) (entry : FlowEntry) (delta : FlowCounters) (pidUnits : Dict ℤ Str) :
    Except PyExc (ChannelSample × List ChannelSample) × Dict ℤ Str :=
  match unitForPid input entry.value.pid pidUnits with
  | (.error e, pidUnits) => (.error e, pidUnits)
  | (.ok unit, pidUnits) =>
    match flowSample kind c.catalog input bucketNs elapsed entry delta unit with
    | .error e => (.error e, pidUnits)
    | .ok sample => (.ok (sample, [sample].filter c.sampleFilter.matchesSample), pidUnits)

/-- `_read_flows`. -/
def readFlows (kind : ChannelKind) (c : ChannelCollector) (input : ChannelInput)
    (bucketNs elapsed : ℤ) : Except PyExc (List FlowEmission) × ChannelCollector :=
  match input.dump with
  | .error e => (.error e, c)
  | .ok dump =>
    match flowLoop.readDump (c.emitFlow kind input bucketNs elapsed) dump c.previous c.pidUnits with
    | (r, previous, pidUnits) => (r, { c with previous := previous, pidUnits := pidUnits })

/-- `ensure_alive`. -/
def ensureAlive (kind : ChannelKind) (c : ChannelCollector) (input : ChannelInput) :
    Except PyExc Unit × ChannelCollector :=
  match c.attachment with
  | none => (.ok (), c)
  | some ⟨false⟩ => (.error (.runtimeError kind.notRunning), c)
  | some ⟨true⟩ =>
    match input.poll with
    | none => (.ok (), c)
    | some code =>
      match input.stderr.text with
      | .error e => (.error e, c)
      | .ok detail =>
        (input.stderr.close >>= fun _ => .error (.runtimeError (kind.exited code detail)),
          { c with attachment := some ⟨false⟩ })

/-- `read_checkpoint`: check the loader, drop the pid cache, store the clock, read. -/
def readCheckpoint (kind : ChannelKind) (c : ChannelCollector) (input : ChannelInput) :
    Except PyExc (List FlowEmission) × ChannelCollector :=
  match c.ensureAlive kind input with
  | (.error e, c) => (.error e, c)
  | (.ok (), c) =>
    let bucketNs := bucketStartNs input.nowNs c.bucketMs
    let elapsed := elapsedMs c.bucketMs c.lastCheckpointNs input.nowNs
    readFlows kind { c with pidUnits := ∅, lastCheckpointNs := some input.nowNs } input
      bucketNs elapsed

end ChannelCollector

/-- `TcpChannelCollector.read_checkpoint`. -/
def TcpChannelCollector.readCheckpoint : ChannelCollector → ChannelInput →
    Except PyExc (List FlowEmission) × ChannelCollector :=
  ChannelCollector.readCheckpoint tcpChannel

/-- `UdpChannelCollector.read_checkpoint`. -/
def UdpChannelCollector.readCheckpoint : ChannelCollector → ChannelInput →
    Except PyExc (List FlowEmission) × ChannelCollector :=
  ChannelCollector.readCheckpoint udpChannel

end UdpAnalyzer

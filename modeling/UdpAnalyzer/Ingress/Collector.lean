import UdpAnalyzer.Ingress.Enricher
import UdpAnalyzer.Lib.CounterLoop

/-! The ingress collector (`ebpf.py`): the delta loops over the ingress map and
over the delivered map, and one checkpoint. A checkpoint takes what it meets
outside as an argument (the clock, the two parsed dumps, interface names and the
calls of `sockets()`) and returns the rows or an exception together with the
collector it leaves behind, so that a failed checkpoint is visible. -/

namespace UdpAnalyzer

structure UdpMapKey where
  family : ℤ
  ipProto : ℤ
  srcPort : ℤ
  dstPort : ℤ
  ifindex : ℤ
  srcIp4 : ℤ
  dstIp4 : ℤ
  deriving DecidableEq, Repr

/-- The tuple of `UdpMapKey.identity()` and of `DeliveredMapKey.identity()`. -/
abbrev UdpIdentity := ℤ × ℤ × ℤ × ℤ × ℤ × ℤ × ℤ

-- spelled out: the search for it runs through every order on products
instance : DecidableEq UdpIdentity :=
  @instDecidableEqProd _ _ _ (@instDecidableEqProd _ _ _ inferInstance)

def UdpMapKey.identity (k : UdpMapKey) : UdpIdentity :=
  (k.family, k.ipProto, k.srcPort, k.dstPort, k.ifindex, k.srcIp4, k.dstIp4)

structure UdpMapCounters where
  packets : ℤ
  bytes : ℤ
  deriving DecidableEq, Repr

structure UdpMapEntry where
  key : UdpMapKey
  counters : UdpMapCounters
  deriving DecidableEq, Repr

structure DeliveredMapKey where
  socketCookie : ℤ
  srcIp4 : ℤ
  dstIp4 : ℤ
  srcPort : ℤ
  dstPort : ℤ
  family : ℤ
  ipProto : ℤ
  deriving DecidableEq, Repr

def DeliveredMapKey.identity (k : DeliveredMapKey) : UdpIdentity :=
  (k.socketCookie, k.srcIp4, k.dstIp4, k.srcPort, k.dstPort, k.family, k.ipProto)

structure DeliveredMapValue where
  packets : ℤ
  bytes : ℤ
  socketInode : ℤ
  ifindex : ℤ
  deriving DecidableEq, Repr

def DeliveredMapValue.counters (v : DeliveredMapValue) : UdpMapCounters := ⟨v.packets, v.bytes⟩

structure DeliveredMapEntry where
  key : DeliveredMapKey
  value : DeliveredMapValue
  deriving DecidableEq, Repr

/-! ### The two loops -/

inductive UdpField where
  | packets | bytes
  deriving DecidableEq, Repr

namespace UdpMapCounters

def field : UdpField → UdpMapCounters → ℤ
  | .packets, c => c.packets
  | .bytes, c => c.bytes

def add (acc c : UdpMapCounters) : UdpMapCounters := ⟨acc.packets + c.packets, acc.bytes + c.bytes⟩

/-- `packet_delta`, `byte_delta`, each clamped at zero. -/
def delta (counters previous : UdpMapCounters) : UdpMapCounters :=
  ⟨max (counters.packets - previous.packets) 0, max (counters.bytes - previous.bytes) 0⟩

/-- Not `packet_delta <= 0 and byte_delta <= 0`. -/
def moved (counters previous : UdpMapCounters) : Bool :=
  !(counters.packets - previous.packets ≤ 0 && counters.bytes - previous.bytes ≤ 0)

theorem moved_iff (c p : UdpMapCounters) : moved c p = true ↔ ∃ f, field f p < field f c := by
  have hsplit : moved c p = true ↔ p.packets < c.packets ∨ p.bytes < c.bytes := by
    simp only [moved, Bool.not_eq_true', Bool.and_eq_false_iff, decide_eq_false_iff_not]
    omega
  rw [hsplit]
  constructor
  · rintro (h | h)
    · exact ⟨.packets, h⟩
    · exact ⟨.bytes, h⟩
  · rintro ⟨_ | _, h⟩
    · exact .inl h
    · exact .inr h

/-- The loop over entries of any kind that carry these counters. -/
def loop {E : Type*} (identity : E → UdpIdentity) (counters : E → UdpMapCounters) :
    CounterLoop E UdpIdentity UdpMapCounters UdpField where
  identity := identity
  counters := counters
  zero := ⟨0, 0⟩
  add := add
  delta := delta
  moved := moved
  field := field
  field_zero f := by cases f <;> rfl
  field_add f a b := by cases f <;> rfl
  field_delta f c p := by cases f <;> rfl
  moved_iff := moved_iff

end UdpMapCounters

def ingressLoop : CounterLoop UdpMapEntry UdpIdentity UdpMapCounters UdpField :=
  UdpMapCounters.loop (fun e => e.key.identity) UdpMapEntry.counters

def deliveredLoop : CounterLoop DeliveredMapEntry UdpIdentity UdpMapCounters UdpField :=
  UdpMapCounters.loop (fun e => e.key.identity) (fun e => e.value.counters)

/-! ### The collector -/

inductive DeliveryAttribution where
  | none | auto | cookie | legacy
  deriving DecidableEq, Repr

structure EbpfIngressCollector where
  ifname : Str
  bucketMs : ℤ
  sampleFilter : SampleFilter := {}
  processEnricher : Option ProcessSocketEnricher := none
  deliveryAttribution : DeliveryAttribution := .none
  previous : Dict UdpIdentity UdpMapCounters := ∅
  /-- The map id of `delivered_reader`, when there is one. -/
  deliveredReader : Option ℤ := none
  deliveredPrevious : Dict UdpIdentity UdpMapCounters := ∅
  lastCheckpointNs : Option ℤ := none

/-- What one checkpoint meets outside. `sockets n` is what `sockets()` meets when
the `n`-th enrichment of this checkpoint calls it. -/
structure IngressInput where
  nowNs : ℤ
  ingressDump : Except PyExc (List UdpMapEntry)
  deliveredDump : Except PyExc (List DeliveredMapEntry) := .ok []
  ifIndexToName : ℤ → Except PyExc Str
  sockets : ℕ → SocketsCall

/-- The enricher and the number of enrichments so far. -/
abbrev Enriching := Option ProcessSocketEnricher × ℕ

abbrev UdpEmission := Emission UdpIdentity UdpSample UdpSample

namespace EbpfIngressCollector

/-- The sample of an ingress increment. -/
def ingressSample (input : IngressInput) (fallback : Str) (bucketNs elapsed : ℤ)
    (entry : UdpMapEntry) (delta : UdpMapCounters) : Except PyExc UdpSample := do
  let srcIp ← ipv4FromBpfInt entry.key.srcIp4
  let dstIp ← ipv4FromBpfInt entry.key.dstIp4
  let ifname ← ifnameFromIndex input.ifIndexToName entry.key.ifindex fallback
  return {
    bucketStartNs := bucketNs, bucketMs := elapsed, srcIp, dstIp
    srcPort := entry.key.srcPort, dstPort := entry.key.dstPort, ipProto := entry.key.ipProto
    ifindex := entry.key.ifindex, ifname, packets := delta.packets, bytes := delta.bytes
    layer := .ingress }

/-- The sample of a delivered increment. -/
def deliveredSample (input : IngressInput) (fallback : Str) (bucketNs elapsed : ℤ)
    (entry : DeliveredMapEntry) (delta : UdpMapCounters) : Except PyExc UdpSample := do
  let srcIp ← ipv4FromBpfInt entry.key.srcIp4
  let dstIp ← ipv4FromBpfInt entry.key.dstIp4
  let ifname ← ifnameFromIndex input.ifIndexToName entry.value.ifindex fallback
  return {
    bucketStartNs := bucketNs, bucketMs := elapsed, srcIp, dstIp
    srcPort := entry.key.srcPort, dstPort := entry.key.dstPort, ipProto := entry.key.ipProto
    ifindex := entry.value.ifindex, ifname, packets := delta.packets, bytes := delta.bytes
    socketId := entry.key.socketCookie, layer := .delivered }

/-- Build, enrich in legacy mode, filter. -/
def emitIngress (c : EbpfIngressCollector) (input : IngressInput) (bucketNs elapsed : ℤ)
    (entry : UdpMapEntry) (delta : UdpMapCounters) :
    Enriching → Except PyExc (UdpSample × List UdpSample) × Enriching
  | (enricher, n) =>
    match ingressSample input c.ifname bucketNs elapsed entry delta with
    | .error e => (.error e, enricher, n)
    | .ok sample =>
      match c.deliveryAttribution, enricher with
      | .legacy, some en =>
        match en.enrich (input.sockets n) sample with
        | (.error e, en) => (.error e, some en, n + 1)
        | (.ok rows, en) => (.ok (sample, rows.filter c.sampleFilter.matchesSample), some en, n + 1)
      | _, enricher => (.ok (sample, [sample].filter c.sampleFilter.matchesSample), enricher, n)

/-- Build, enrich by socket inode, filter. -/
def emitDelivered (c : EbpfIngressCollector) (input : IngressInput) (bucketNs elapsed : ℤ)
    (entry : DeliveredMapEntry) (delta : UdpMapCounters) :
    Enriching → Except PyExc (UdpSample × List UdpSample) × Enriching
  | (enricher, n) =>
    match deliveredSample input c.ifname bucketNs elapsed entry delta with
    | .error e => (.error e, enricher, n)
    | .ok sample =>
      match enricher with
      | some en =>
        match en.enrichExact (input.sockets n) sample entry.value.socketInode
            entry.key.socketCookie with
        | (.error e, en) => (.error e, some en, n + 1)
        | (.ok rows, en) => (.ok (sample, rows.filter c.sampleFilter.matchesSample), some en, n + 1)
      | none => (.ok (sample, [sample].filter c.sampleFilter.matchesSample), none, n)

/-- `_read_ingress`, with the emissions instead of the flat list of rows. The
dump is taken before the collector is touched. -/
def readIngress (c : EbpfIngressCollector) (input : IngressInput) (n : ℕ) (bucketNs elapsed : ℤ) :
    Except PyExc (List UdpEmission) × EbpfIngressCollector × ℕ :=
  match input.ingressDump with
  | .error e => (.error e, c, n)
  | .ok dump =>
    match ingressLoop.readDump (c.emitIngress input bucketNs elapsed) dump c.previous
        (c.processEnricher, n) with
    | (r, previous, enricher, n) =>
      (r, { c with previous := previous, processEnricher := enricher }, n)

/-- `_read_delivered`. -/
def readDelivered (c : EbpfIngressCollector) (input : IngressInput) (n : ℕ)
    (bucketNs elapsed : ℤ) : Except PyExc (List UdpEmission) × EbpfIngressCollector × ℕ :=
  match c.deliveredReader with
  | none => (.ok [], c, n)
  | some _ =>
    match input.deliveredDump with
    | .error e => (.error e, c, n)
    | .ok dump =>
      match deliveredLoop.readDump (c.emitDelivered input bucketNs elapsed) dump
          c.deliveredPrevious (c.processEnricher, n) with
      | (r, previous, enricher, n) =>
        (r, { c with deliveredPrevious := previous, processEnricher := enricher }, n)

/-- The emissions of one checkpoint, per layer. -/
structure Checkpoint where
  ingress : List UdpEmission
  delivered : List UdpEmission

/-- The list `read_checkpoint` returns. -/
def Checkpoint.samples (k : Checkpoint) : List UdpSample :=
  k.ingress.flatMap Emission.rows ++ k.delivered.flatMap Emission.rows

/-- `read_checkpoint`. The clock is stored first, then the two maps are read. -/
def readCheckpoint (c : EbpfIngressCollector) (input : IngressInput) :
    Except PyExc Checkpoint × EbpfIngressCollector :=
  let bucketNs := bucketStartNs input.nowNs c.bucketMs
  let elapsed := elapsedMs c.bucketMs c.lastCheckpointNs input.nowNs
  let c := { c with lastCheckpointNs := some input.nowNs }
  match c.readIngress input 0 bucketNs elapsed with
  | (.error e, c, _) => (.error e, c)
  | (.ok ingress, c, n) =>
    match c.readDelivered input n bucketNs elapsed with
    | (.error e, c, _) => (.error e, c)
    | (.ok delivered, c, _) => (.ok ⟨ingress, delivered⟩, c)

end EbpfIngressCollector

end UdpAnalyzer

import Mathlib.Data.List.Chain
import UdpAnalyzer.Channel.Collector
import UdpAnalyzer.Ingress.Collector
import UdpAnalyzer.Lib.Run

/-! The law of the four delta loops over whole runs. After every completed
checkpoint the baseline is the map of sums of the dump just read, and the
samples built are one for each identity that is in this dump and in the one
before and went up in some counter. Each carries the increments between the two
dumps and the time between the two readings of the clock. -/

namespace UdpAnalyzer

/-- The law of one checkpoint: `before` is the reading of the clock and the dump
of the checkpoint before, if there was one. -/
structure DeltaLaw {E I C F B R : Type*} [DecidableEq I] (L : CounterLoop E I C F)
    (describes : E → B → Prop) (counters : B → C) (bucketMs : B → ℤ)
    (before : Option (ℤ × List E)) (nowNs : ℤ) (dump : List E) (baseline : Dict I C)
    (ems : List (Emission I B R)) : Prop where
  baseline : L.view baseline = L.snapshot dump
  distinct : (ems.map Emission.identity).Nodup
  mem_iff : ∀ i, (∃ em ∈ ems, em.identity = i) ↔
    ∃ b ∈ before, Snapshot.Moved (L.snapshot b.2) (L.snapshot dump) i
  built : ∀ em ∈ ems, ∃ b ∈ before, bucketMs em.built = (nowNs - b.1) / 1000000 ∧
    (∀ f, L.field f (counters em.built) =
      Snapshot.gain (L.snapshot b.2) (L.snapshot dump) em.identity f) ∧
    ∃ e ∈ dump, L.identity e = em.identity ∧ describes e em.built

section Law
variable {E I C F B R σ ε : Type*} [DecidableEq I] {L : CounterLoop E I C F}

/-- The baselines the checkpoint before has left: none before the first one. -/
def leftBy (L : CounterLoop E I C F) : Option (ℤ × List E) → Snapshot I F
  | none => fun _ => none
  | some b => L.snapshot b.2

theorem moved_leftBy (before : Option (ℤ × List E)) (s : Snapshot I F) (i : I) :
    Snapshot.Moved (leftBy L before) s i ↔ ∃ b ∈ before, Snapshot.Moved (L.snapshot b.2) s i := by
  cases before with
  | none => simp [leftBy, Snapshot.Moved]
  | some b => simp [leftBy]

/-- A completed loop obeys the law when its samples carry the increments and the
measured interval. -/
theorem deltaLaw_of_completed {describes : E → B → Prop} {counters : B → C} {bucketMs : B → ℤ}
    {before : Option (ℤ × List E)} {nowNs elapsed : ℤ} {dump : List E} {baseline : Dict I C}
    {ems : List (Emission I B R)}
    (helapsed : ∀ b ∈ before, elapsed = (nowNs - b.1) / 1000000)
    (h : L.Completed (fun e d b _ => describes e b ∧ counters b = d ∧ bucketMs b = elapsed)
      (leftBy L before) dump baseline ems) :
    DeltaLaw L describes counters bucketMs before nowNs dump baseline ems where
  baseline := h.baseline
  distinct := h.distinct
  mem_iff i := (h.mem_iff i).trans (moved_leftBy before _ i)
  built em hem := by
    obtain ⟨b, hb, hmoved⟩ := (moved_leftBy before _ _).mp ((h.mem_iff _).mp ⟨em, hem, rfl⟩)
    obtain ⟨e, d, he, hid, hgain, hdesc, hcount, hbucket⟩ := h.built em hem
    obtain rfl : before = some b := hb
    exact ⟨b, rfl, hbucket.trans (helapsed b rfl), fun f => by rw [hcount]; exact hgain f,
      e, he, hid, hdesc⟩

end Law

/-- The entries of a dump that was read. -/
def listed {E : Type*} : Except PyExc (List E) → List E
  | .ok dump => dump
  | .error _ => []

/-! ### Samples of the ingress collector -/

/-- The addresses, ports and protocol of a sample are those of the entry. -/
def describesIngress (e : UdpMapEntry) (b : UdpSample) : Prop :=
  ipv4FromBpfInt e.key.srcIp4 = .ok b.srcIp ∧ ipv4FromBpfInt e.key.dstIp4 = .ok b.dstIp ∧
    e.key.srcPort = b.srcPort ∧ e.key.dstPort = b.dstPort ∧ e.key.ipProto = b.ipProto ∧
    e.key.ifindex = b.ifindex

def describesDelivered (e : DeliveredMapEntry) (b : UdpSample) : Prop :=
  ipv4FromBpfInt e.key.srcIp4 = .ok b.srcIp ∧ ipv4FromBpfInt e.key.dstIp4 = .ok b.dstIp ∧
    e.key.srcPort = b.srcPort ∧ e.key.dstPort = b.dstPort ∧ e.key.ipProto = b.ipProto ∧
    e.key.socketCookie = b.socketId

def UdpSample.counters (b : UdpSample) : UdpMapCounters := ⟨b.packets, b.bytes⟩

namespace EbpfIngressCollector

theorem ingressSample_spec {input : IngressInput} {fallback : Str} {bucketNs elapsed : ℤ}
    {e : UdpMapEntry} {d : UdpMapCounters} {b : UdpSample}
    (h : ingressSample input fallback bucketNs elapsed e d = .ok b) :
    describesIngress e b ∧ b.counters = d ∧ b.bucketMs = elapsed := by
  obtain ⟨srcIp, hsrc, h⟩ := bind_eq_ok h
  obtain ⟨dstIp, hdst, h⟩ := bind_eq_ok h
  obtain ⟨ifname, -, h⟩ := bind_eq_ok h
  cases h
  exact ⟨⟨hsrc, hdst, rfl, rfl, rfl, rfl⟩, rfl, rfl⟩

theorem deliveredSample_spec {input : IngressInput} {fallback : Str} {bucketNs elapsed : ℤ}
    {e : DeliveredMapEntry} {d : UdpMapCounters} {b : UdpSample}
    (h : deliveredSample input fallback bucketNs elapsed e d = .ok b) :
    describesDelivered e b ∧ b.counters = d ∧ b.bucketMs = elapsed := by
  obtain ⟨srcIp, hsrc, h⟩ := bind_eq_ok h
  obtain ⟨dstIp, hdst, h⟩ := bind_eq_ok h
  obtain ⟨ifname, -, h⟩ := bind_eq_ok h
  cases h
  exact ⟨⟨hsrc, hdst, rfl, rfl, rfl, rfl⟩, rfl, rfl⟩

theorem ingressSample_layer {input : IngressInput} {fallback : Str} {bucketNs elapsed : ℤ}
    {e : UdpMapEntry} {d : UdpMapCounters} {b : UdpSample}
    (h : ingressSample input fallback bucketNs elapsed e d = .ok b) : b.layer = .ingress := by
  obtain ⟨srcIp, -, h⟩ := bind_eq_ok h
  obtain ⟨dstIp, -, h⟩ := bind_eq_ok h
  obtain ⟨ifname, -, h⟩ := bind_eq_ok h
  cases h
  rfl

theorem deliveredSample_layer {input : IngressInput} {fallback : Str} {bucketNs elapsed : ℤ}
    {e : DeliveredMapEntry} {d : UdpMapCounters} {b : UdpSample}
    (h : deliveredSample input fallback bucketNs elapsed e d = .ok b) : b.layer = .delivered := by
  obtain ⟨srcIp, -, h⟩ := bind_eq_ok h
  obtain ⟨dstIp, -, h⟩ := bind_eq_ok h
  obtain ⟨ifname, -, h⟩ := bind_eq_ok h
  cases h
  rfl

/-- A completed emission has built the sample of its entry. -/
theorem emitIngress_built {c : EbpfIngressCollector} {input : IngressInput} {bucketNs elapsed : ℤ}
    {e : UdpMapEntry} {d : UdpMapCounters} {s s' : Enriching} {b : UdpSample}
    {rows : List UdpSample} (h : c.emitIngress input bucketNs elapsed e d s = (.ok (b, rows), s')) :
    ingressSample input c.ifname bucketNs elapsed e d = .ok b := by
  obtain ⟨enricher, n⟩ := s
  simp only [emitIngress] at h
  cases hb : ingressSample input c.ifname bucketNs elapsed e d with
  | error x => rw [hb] at h; cases h
  | ok sample =>
    rw [hb] at h
    dsimp only at h
    split at h
    · split at h
      · cases h
      · cases h; rfl
    · cases h; rfl

theorem emitDelivered_built {c : EbpfIngressCollector} {input : IngressInput}
    {bucketNs elapsed : ℤ} {e : DeliveredMapEntry} {d : UdpMapCounters} {s s' : Enriching}
    {b : UdpSample} {rows : List UdpSample}
    (h : c.emitDelivered input bucketNs elapsed e d s = (.ok (b, rows), s')) :
    deliveredSample input c.ifname bucketNs elapsed e d = .ok b := by
  obtain ⟨enricher, n⟩ := s
  simp only [emitDelivered] at h
  cases hb : deliveredSample input c.ifname bucketNs elapsed e d with
  | error x => rw [hb] at h; cases h
  | ok sample =>
    rw [hb] at h
    dsimp only at h
    split at h
    · split at h
      · cases h
      · cases h; rfl
    · cases h; rfl

/-- What a completed emission tells about the sample it built. -/
abbrev Built {E : Type*} (describes : E → UdpSample → Prop) (elapsed : ℤ) (e : E)
    (d : UdpMapCounters) (b : UdpSample) (_ : List UdpSample) : Prop :=
  describes e b ∧ b.counters = d ∧ b.bucketMs = elapsed

/-- A completed pass over the ingress dump has emitted what its emissions are known to be. -/
theorem readIngress_completed {P : UdpMapEntry → UdpMapCounters → UdpSample → List UdpSample → Prop}
    {c c' : EbpfIngressCollector} {input : IngressInput} {n n' : ℕ} {bucketNs elapsed : ℤ}
    {ems : List UdpEmission}
    (hemit : CounterLoop.EmitSpec (c.emitIngress input bucketNs elapsed) (fun _ => True) P)
    (h : c.readIngress input n bucketNs elapsed = (.ok ems, c', n')) :
    ingressLoop.Completed P (ingressLoop.view c.previous) (listed input.ingressDump) c'.previous ems ∧
      c' = { c with previous := c'.previous, processEnricher := c'.processEnricher } := by
  simp only [readIngress] at h
  cases hd : input.ingressDump with
  | error e => rw [hd] at h; cases h
  | ok dump =>
    rw [hd] at h
    rcases hr : ingressLoop.readDump (c.emitIngress input bucketNs elapsed) dump c.previous
        (c.processEnricher, n) with ⟨r, previous, enricher, m⟩
    dsimp only at h
    rw [hr] at h
    cases h
    exact ⟨ingressLoop.readDump_spec hemit trivial hr, rfl⟩

theorem readDelivered_completed
    {P : DeliveredMapEntry → UdpMapCounters → UdpSample → List UdpSample → Prop}
    {c c' : EbpfIngressCollector} {input : IngressInput} {n n' : ℕ} {bucketNs elapsed : ℤ}
    {ems : List UdpEmission}
    (hemit : CounterLoop.EmitSpec (c.emitDelivered input bucketNs elapsed) (fun _ => True) P)
    (h : c.readDelivered input n bucketNs elapsed = (.ok ems, c', n')) :
    (c.deliveredReader = none → ems = []) ∧
    (c.deliveredReader.isSome → deliveredLoop.Completed P (deliveredLoop.view c.deliveredPrevious)
      (listed input.deliveredDump) c'.deliveredPrevious ems) ∧
    c' = { c with
      deliveredPrevious := c'.deliveredPrevious, processEnricher := c'.processEnricher } := by
  simp only [readDelivered] at h
  cases hreader : c.deliveredReader with
  | none =>
    rw [hreader] at h
    cases h
    exact ⟨fun _ => rfl, nofun, by rw [← hreader]⟩
  | some id =>
    rw [hreader] at h
    cases hd : input.deliveredDump with
    | error e => rw [hd] at h; cases h
    | ok dump =>
      rw [hd] at h
      rcases hr : deliveredLoop.readDump (c.emitDelivered input bucketNs elapsed) dump
          c.deliveredPrevious (c.processEnricher, n) with ⟨r, previous, enricher, m⟩
      dsimp only at h
      rw [hr] at h
      cases h
      exact ⟨nofun, fun _ => deliveredLoop.readDump_spec hemit trivial hr, by rw [← hreader]⟩

theorem emitIngress_spec (c : EbpfIngressCollector) (input : IngressInput) (bucketNs elapsed : ℤ) :
    CounterLoop.EmitSpec (c.emitIngress input bucketNs elapsed) (fun _ => True)
      (Built describesIngress elapsed) :=
  fun _ _ _ _ _ _ _ hbuilt => ⟨ingressSample_spec (emitIngress_built hbuilt), trivial⟩

theorem emitDelivered_spec (c : EbpfIngressCollector) (input : IngressInput)
    (bucketNs elapsed : ℤ) :
    CounterLoop.EmitSpec (c.emitDelivered input bucketNs elapsed) (fun _ => True)
      (Built describesDelivered elapsed) :=
  fun _ _ _ _ _ _ _ hbuilt => ⟨deliveredSample_spec (emitDelivered_built hbuilt), trivial⟩

/-- The two passes of a completed checkpoint. -/
theorem readCheckpoint_passes {c c' : EbpfIngressCollector} {input : IngressInput} {k : Checkpoint}
    (h : c.readCheckpoint input = (.ok k, c')) :
    ∃ c₁ n₁ n₂,
      { c with lastCheckpointNs := some input.nowNs }.readIngress input 0
          (bucketStartNs input.nowNs c.bucketMs)
          (elapsedMs c.bucketMs c.lastCheckpointNs input.nowNs) =
        (.ok k.ingress, c₁, n₁) ∧
      c₁.readDelivered input n₁ (bucketStartNs input.nowNs c.bucketMs)
          (elapsedMs c.bucketMs c.lastCheckpointNs input.nowNs) = (.ok k.delivered, c', n₂) := by
  simp only [readCheckpoint] at h
  split at h
  · cases h
  next ingress c₁ n hi =>
    split at h
    · cases h
    next delivered c₂ n' hd =>
      cases h
      exact ⟨c₁, n, n', hi, hd⟩

/-- A completed checkpoint has completed the loops it runs, has stored the clock
and has kept the configuration. -/
theorem readCheckpoint_spec {c c' : EbpfIngressCollector} {input : IngressInput} {k : Checkpoint}
    (h : c.readCheckpoint input = (.ok k, c')) :
    let elapsed := elapsedMs c.bucketMs c.lastCheckpointNs input.nowNs
    ingressLoop.Completed (Built describesIngress elapsed) (ingressLoop.view c.previous)
      (listed input.ingressDump) c'.previous k.ingress ∧
    (c.deliveredReader.isSome → deliveredLoop.Completed (Built describesDelivered elapsed)
      (deliveredLoop.view c.deliveredPrevious) (listed input.deliveredDump) c'.deliveredPrevious
      k.delivered) ∧
    c'.lastCheckpointNs = some input.nowNs ∧ c'.deliveredReader = c.deliveredReader := by
  obtain ⟨c₁, n₁, n₂, hi, hd⟩ := readCheckpoint_passes h
  obtain ⟨hingress, hc₁⟩ := readIngress_completed (emitIngress_spec _ input _ _) hi
  obtain ⟨-, hdelivered, hc'⟩ := readDelivered_completed (emitDelivered_spec _ input _ _) hd
  rw [hc', hc₁]
  rw [hc₁] at hdelivered
  exact ⟨hingress, hdelivered, rfl, rfl⟩

end EbpfIngressCollector

/-! ### Samples of the channel collectors -/

/-- The destination of a row is the endpoint its flow is matched by. -/
def describesFlow (kind : ChannelKind) (e : FlowEntry) (b : ChannelSample) : Prop :=
  ipv4FromBpfInt e.key.srcIp4 = .ok b.srcIp ∧ kind.endpoint e.key = .ok (b.dstIp, b.dstPort) ∧
    e.key.srcPort = b.srcPort ∧ e.key.socketCookie = b.socketId ∧ e.key.cgroupId = b.cgroupId

namespace ChannelCollector

theorem flowSample_spec {kind : ChannelKind} {catalog : ChannelCatalog} {input : ChannelInput}
    {bucketNs elapsed : ℤ} {e : FlowEntry} {d : FlowCounters} {unit : Str} {b : ChannelSample}
    (h : flowSample kind catalog input bucketNs elapsed e d unit = .ok b) :
    describesFlow kind e b ∧ b.counters = d ∧ b.bucketMs = elapsed ∧ b.unit = unit := by
  obtain ⟨⟨ip, port⟩, hend, h⟩ := bind_eq_ok h
  obtain ⟨srcIp, hsrc, h⟩ := bind_eq_ok h
  obtain ⟨ifname, -, h⟩ := bind_eq_ok h
  cases h
  exact ⟨⟨hsrc, hend, rfl, rfl, rfl⟩, rfl, rfl, rfl⟩

/-- A completed emission has found the unit of its pid and built the sample; its
rows are the sample when the filter lets it through. -/
theorem emitFlow_built {kind : ChannelKind} {c : ChannelCollector} {input : ChannelInput}
    {bucketNs elapsed : ℤ} {e : FlowEntry} {d : FlowCounters} {s s' : Dict ℤ Str}
    {b : ChannelSample} {rows : List ChannelSample}
    (h : c.emitFlow kind input bucketNs elapsed e d s = (.ok (b, rows), s')) :
    ∃ unit, unitForPid input e.value.pid s = (.ok unit, s') ∧
      flowSample kind c.catalog input bucketNs elapsed e d unit = .ok b ∧
      rows = [b].filter c.sampleFilter.matchesSample := by
  simp only [emitFlow] at h
  split at h
  · cases h
  next unit pidUnits hunit =>
    split at h
    · cases h
    next sample hsample =>
      cases h
      exact ⟨unit, hunit, hsample, rfl⟩

theorem emitFlow_spec (kind : ChannelKind) (c : ChannelCollector) (input : ChannelInput)
    (bucketNs elapsed : ℤ) : CounterLoop.EmitSpec (c.emitFlow kind input bucketNs elapsed)
      (fun _ => True)
      (fun e d b _ => describesFlow kind e b ∧ b.counters = d ∧ b.bucketMs = elapsed) := by
  intro e d s b rows s' _ hemit
  obtain ⟨unit, -, hsample, -⟩ := emitFlow_built hemit
  obtain ⟨hdesc, hcount, hbucket, -⟩ := flowSample_spec hsample
  exact ⟨⟨hdesc, hcount, hbucket⟩, trivial⟩

/-- The rows of an emission are its sample, when the filter lets it through. -/
theorem emitFlow_rows (kind : ChannelKind) (c : ChannelCollector) (input : ChannelInput)
    (bucketNs elapsed : ℤ) : CounterLoop.EmitSpec (c.emitFlow kind input bucketNs elapsed)
      (fun _ => True)
      (fun _ d b rows => b.counters = d ∧ rows = [b].filter c.sampleFilter.matchesSample) := by
  intro e d s b rows s' _ hemit
  obtain ⟨unit, -, hsample, hrows⟩ := emitFlow_built hemit
  obtain ⟨-, hcount, -, -⟩ := flowSample_spec hsample
  exact ⟨⟨hcount, hrows⟩, trivial⟩

theorem ensureAlive_ok {kind : ChannelKind} {c c' : ChannelCollector} {input : ChannelInput}
    {u : Unit} (h : c.ensureAlive kind input = (.ok u, c')) : c' = c := by
  simp only [ensureAlive] at h
  split at h
  · cases h; rfl
  · cases h
  · split at h
    · cases h; rfl
    · split at h
      · cases h
      · cases hclose : input.stderr.close <;> rw [hclose] at h <;> cases h

theorem readFlows_spec {kind : ChannelKind} {c c' : ChannelCollector} {input : ChannelInput}
    {bucketNs elapsed : ℤ} {ems : List FlowEmission} {Inv : Dict ℤ Str → Prop}
    {P : FlowEntry → FlowCounters → ChannelSample → List ChannelSample → Prop}
    (hP : CounterLoop.EmitSpec (c.emitFlow kind input bucketNs elapsed) Inv P)
    (hcache : Inv c.pidUnits)
    (h : c.readFlows kind input bucketNs elapsed = (.ok ems, c')) :
    flowLoop.Completed P (flowLoop.view c.previous) (listed input.dump) c'.previous ems ∧
    c' = { c with previous := c'.previous, pidUnits := c'.pidUnits } := by
  simp only [readFlows] at h
  cases hd : input.dump with
  | error e => rw [hd] at h; cases h
  | ok dump =>
    rw [hd] at h
    rcases hr : flowLoop.readDump (c.emitFlow kind input bucketNs elapsed) dump c.previous
        c.pidUnits with ⟨r, previous, pidUnits⟩
    dsimp only at h
    rw [hr] at h
    cases h
    exact ⟨flowLoop.readDump_spec hP hcache hr, rfl⟩

/-- A completed checkpoint is a completed loop of the collector with an empty pid
cache and the clock stored; the configuration stays. -/
theorem readCheckpoint_spec {kind : ChannelKind} {c c' : ChannelCollector} {input : ChannelInput}
    {ems : List FlowEmission} (h : c.readCheckpoint kind input = (.ok ems, c')) :
    readFlows kind { c with pidUnits := ∅, lastCheckpointNs := some input.nowNs } input
      (bucketStartNs input.nowNs c.bucketMs)
      (elapsedMs c.bucketMs c.lastCheckpointNs input.nowNs) = (.ok ems, c') := by
  simp only [readCheckpoint] at h
  split at h
  · cases h
  next c₁ halive =>
    obtain rfl := ensureAlive_ok halive
    exact h

end ChannelCollector

/-! ### Whole runs -/

/-- A collector no checkpoint has been read with. -/
structure EbpfIngressCollector.Fresh (c : EbpfIngressCollector) : Prop where
  previous : c.previous = ∅
  deliveredPrevious : c.deliveredPrevious = ∅
  clock : c.lastCheckpointNs = none

structure ChannelCollector.Fresh (c : ChannelCollector) : Prop where
  previous : c.previous = ∅
  clock : c.lastCheckpointNs = none

/-- Successive readings of the clock are at least a millisecond apart. -/
def Spaced {α : Type*} (nowNs : α → ℤ) (inputs : List α) : Prop :=
  inputs.IsChain (fun a b => nowNs a + 1000000 ≤ nowNs b)

theorem Spaced.getLast? {α : Type*} {nowNs : α → ℤ} {inputs : List α} {last a : α}
    (h : Spaced nowNs (inputs ++ [last])) (ha : inputs.getLast? = some a) :
    nowNs a + 1000000 ≤ nowNs last :=
  (List.isChain_append.mp h).2.2 a ha last rfl

namespace EbpfIngressCollector

/-- What a completed run leaves behind: the dumps and the clock of its last
checkpoint. -/
theorem completedRun_state {inputs : List IngressInput} {c₀ c : EbpfIngressCollector}
    {outs : List Checkpoint} (hfresh : c₀.Fresh)
    (h : completedRun readCheckpoint inputs c₀ = some (outs, c)) :
    ingressLoop.view c.previous =
      leftBy ingressLoop (inputs.getLast?.map fun a => (a.nowNs, listed a.ingressDump)) ∧
    (c₀.deliveredReader.isSome → deliveredLoop.view c.deliveredPrevious =
      leftBy deliveredLoop (inputs.getLast?.map fun a => (a.nowNs, listed a.deliveredDump))) ∧
    c.lastCheckpointNs = inputs.getLast?.map IngressInput.nowNs ∧
    c.deliveredReader = c₀.deliveredReader := by
  induction inputs using List.reverseRecOn generalizing outs c with
  | nil =>
    cases h
    refine ⟨?_, fun _ => ?_, hfresh.clock, rfl⟩
    · rw [hfresh.previous]; rfl
    · rw [hfresh.deliveredPrevious]; rfl
  | append_singleton inputs last ih =>
    obtain ⟨outs', c', out, hrun, hstep, -⟩ := completedRun_concat h
    obtain ⟨-, -, -, hreader'⟩ := ih hrun
    obtain ⟨hingress, hdelivered, hclock, hreader⟩ := readCheckpoint_spec hstep
    rw [List.getLast?_concat, hreader, hreader']
    rw [hreader'] at hdelivered
    exact ⟨hingress.baseline, fun hr => (hdelivered hr).baseline, hclock, rfl⟩

/-- Both loops of the ingress collector obey the law after every completed run. -/
theorem run_deltaLaw {inputs : List IngressInput} {last : IngressInput}
    {c₀ c : EbpfIngressCollector} {outs : List Checkpoint} {out : Checkpoint} (hfresh : c₀.Fresh)
    (hspaced : Spaced IngressInput.nowNs (inputs ++ [last]))
    (h : completedRun readCheckpoint (inputs ++ [last]) c₀ = some (outs ++ [out], c)) :
    DeltaLaw ingressLoop describesIngress UdpSample.counters UdpSample.bucketMs
      (inputs.getLast?.map fun a => (a.nowNs, listed a.ingressDump)) last.nowNs
      (listed last.ingressDump) c.previous out.ingress ∧
    (c₀.deliveredReader.isSome → DeltaLaw deliveredLoop describesDelivered UdpSample.counters
      UdpSample.bucketMs (inputs.getLast?.map fun a => (a.nowNs, listed a.deliveredDump))
      last.nowNs (listed last.deliveredDump) c.deliveredPrevious out.delivered) := by
  obtain ⟨outs', c', out', hrun, hstep, hout⟩ := completedRun_concat h
  obtain ⟨rfl, he⟩ := List.append_inj' hout rfl
  cases he
  obtain ⟨hview, hview', hclock, hreader⟩ := completedRun_state hfresh hrun
  obtain ⟨hingress, hdelivered, -, -⟩ := readCheckpoint_spec hstep
  rw [hview] at hingress
  have helapsed : ∀ a, inputs.getLast? = some a →
      elapsedMs c'.bucketMs c'.lastCheckpointNs last.nowNs = (last.nowNs - a.nowNs) / 1000000 := by
    intro a ha
    rw [hclock, ha]
    exact elapsedMs_measured _ (hspaced.getLast? ha)
  refine ⟨deltaLaw_of_completed (fun b hb => ?_) hingress, fun hr => ?_⟩
  · obtain ⟨a, ha, rfl⟩ := Option.map_eq_some_iff.mp hb
    exact helapsed a ha
  · have hd := hdelivered (by rw [hreader]; exact hr)
    rw [hview' hr] at hd
    refine deltaLaw_of_completed (fun b hb => ?_) hd
    obtain ⟨a, ha, rfl⟩ := Option.map_eq_some_iff.mp hb
    exact helapsed a ha

end EbpfIngressCollector

namespace ChannelCollector

theorem completedRun_state {kind : ChannelKind} {inputs : List ChannelInput}
    {c₀ c : ChannelCollector} {outs : List (List FlowEmission)} (hfresh : c₀.Fresh)
    (h : completedRun (readCheckpoint kind) inputs c₀ = some (outs, c)) :
    flowLoop.view c.previous =
      leftBy flowLoop (inputs.getLast?.map fun a => (a.nowNs, listed a.dump)) ∧
    c.lastCheckpointNs = inputs.getLast?.map ChannelInput.nowNs := by
  cases inputs using List.reverseRecOn with
  | nil =>
    cases h
    exact ⟨by rw [hfresh.previous]; rfl, hfresh.clock⟩
  | append_singleton inputs last =>
    obtain ⟨outs', c', out, -, hstep, -⟩ := completedRun_concat h
    obtain ⟨hdone, hc⟩ := readFlows_spec (emitFlow_spec _ _ _ _ _) trivial (readCheckpoint_spec hstep)
    rw [List.getLast?_concat]
    exact ⟨hdone.baseline, by rw [hc]; rfl⟩

/-- The loop of a channel collector obeys the law after every completed run. -/
theorem run_deltaLaw {kind : ChannelKind} {inputs : List ChannelInput} {last : ChannelInput}
    {c₀ c : ChannelCollector} {outs : List (List FlowEmission)} {out : List FlowEmission}
    (hfresh : c₀.Fresh) (hspaced : Spaced ChannelInput.nowNs (inputs ++ [last]))
    (h : completedRun (readCheckpoint kind) (inputs ++ [last]) c₀ = some (outs ++ [out], c)) :
    DeltaLaw flowLoop (describesFlow kind) ChannelSample.counters ChannelSample.bucketMs
      (inputs.getLast?.map fun a => (a.nowNs, listed a.dump)) last.nowNs (listed last.dump)
      c.previous out := by
  obtain ⟨outs', c', out', hrun, hstep, hout⟩ := completedRun_concat h
  obtain ⟨rfl, he⟩ := List.append_inj' hout rfl
  cases he
  obtain ⟨hview, hclock⟩ := completedRun_state hfresh hrun
  obtain ⟨hdone, -⟩ := readFlows_spec (emitFlow_spec _ _ _ _ _) trivial (readCheckpoint_spec hstep)
  rw [hview] at hdone
  refine deltaLaw_of_completed (fun b hb => ?_) hdone
  obtain ⟨a, ha, rfl⟩ := Option.map_eq_some_iff.mp hb
  rw [hclock, ha]
  exact elapsedMs_measured _ (hspaced.getLast? ha)

end ChannelCollector

/-- The law of all four delta loops, for every run of completed checkpoints. -/
theorem delta_loops_obey_law :
    (∀ (c₀ c : EbpfIngressCollector) (inputs : List IngressInput) (last : IngressInput)
      (outs : List EbpfIngressCollector.Checkpoint) (out : EbpfIngressCollector.Checkpoint),
      c₀.Fresh → Spaced IngressInput.nowNs (inputs ++ [last]) →
      completedRun EbpfIngressCollector.readCheckpoint (inputs ++ [last]) c₀ =
        some (outs ++ [out], c) →
      DeltaLaw ingressLoop describesIngress UdpSample.counters UdpSample.bucketMs
        (inputs.getLast?.map fun a => (a.nowNs, listed a.ingressDump)) last.nowNs
        (listed last.ingressDump) c.previous out.ingress ∧
      (c₀.deliveredReader.isSome → DeltaLaw deliveredLoop describesDelivered UdpSample.counters
        UdpSample.bucketMs (inputs.getLast?.map fun a => (a.nowNs, listed a.deliveredDump))
        last.nowNs (listed last.deliveredDump) c.deliveredPrevious out.delivered)) ∧
    (∀ (c₀ c : ChannelCollector) (inputs : List ChannelInput) (last : ChannelInput)
      (outs : List (List FlowEmission)) (out : List FlowEmission),
      c₀.Fresh → Spaced ChannelInput.nowNs (inputs ++ [last]) →
      completedRun TcpChannelCollector.readCheckpoint (inputs ++ [last]) c₀ =
        some (outs ++ [out], c) →
      DeltaLaw flowLoop (describesFlow tcpChannel) ChannelSample.counters ChannelSample.bucketMs
        (inputs.getLast?.map fun a => (a.nowNs, listed a.dump)) last.nowNs (listed last.dump)
        c.previous out) ∧
    (∀ (c₀ c : ChannelCollector) (inputs : List ChannelInput) (last : ChannelInput)
      (outs : List (List FlowEmission)) (out : List FlowEmission),
      c₀.Fresh → Spaced ChannelInput.nowNs (inputs ++ [last]) →
      completedRun UdpChannelCollector.readCheckpoint (inputs ++ [last]) c₀ =
        some (outs ++ [out], c) →
      DeltaLaw flowLoop (describesFlow udpChannel) ChannelSample.counters ChannelSample.bucketMs
        (inputs.getLast?.map fun a => (a.nowNs, listed a.dump)) last.nowNs (listed last.dump)
        c.previous out) :=
  ⟨fun _ _ _ _ _ _ hfresh hspaced h => EbpfIngressCollector.run_deltaLaw hfresh hspaced h,
    fun _ _ _ _ _ _ hfresh hspaced h => ChannelCollector.run_deltaLaw hfresh hspaced h,
    fun _ _ _ _ _ _ hfresh hspaced h => ChannelCollector.run_deltaLaw hfresh hspaced h⟩

/-! A flow split over two entries, seeded at the first checkpoint and read again
three seconds later. -/

def splitFlowKey : UdpMapKey := ⟨2, 17, 40000, 5000, 2, 0x0A0200C0, 0x146433C6⟩

def splitFlowInput (nowNs : ℤ) (packets₁ packets₂ : ℤ) : IngressInput where
  nowNs := nowNs
  ingressDump := .ok [⟨splitFlowKey, ⟨packets₁, 1316 * packets₁⟩⟩,
    ⟨splitFlowKey, ⟨packets₂, 1316 * packets₂⟩⟩]
  ifIndexToName _ := .error .osError
  sockets _ := ⟨0, fun _ => .ok []⟩

def channelFlowInput (kind : ChannelKind) (nowNs rxBytes : ℤ) : ChannelInput where
  nowNs := nowNs
  dump := .ok [⟨⟨7, 0x0A00000A, 0x0A7100CB, 40000, 80, 2, kind.ipProto, 7⟩,
    ⟨0, rxBytes, 0, 1, 0, 0, 0, 1234, 0, 1⟩⟩]
  unitForPid _ := .ok "a.service".toList
  ifIndexToName _ := .error .osError

def freshIngress : EbpfIngressCollector where
  ifname := "eth0".toList
  bucketMs := 1000
  deliveredReader := some 77

def freshChannel : ChannelCollector where
  catalog := ChannelCatalog.ofTargets []
  bucketMs := 1000

theorem delta_loops_obey_law_split_flow :
    (∃ out c, completedRun EbpfIngressCollector.readCheckpoint
        ([splitFlowInput 5000000000 100 200] ++ [splitFlowInput 8000000000 150 720]) freshIngress =
        some ([⟨[], []⟩] ++ [out], c) ∧
      out.ingress.map (fun em => (em.built.packets, em.built.bucketMs)) = [(570, 3000)] ∧
      DeltaLaw ingressLoop describesIngress UdpSample.counters UdpSample.bucketMs
        (some (5000000000, listed (splitFlowInput 5000000000 100 200).ingressDump)) 8000000000
        (listed (splitFlowInput 8000000000 150 720).ingressDump) c.previous out.ingress ∧
      DeltaLaw deliveredLoop describesDelivered UdpSample.counters UdpSample.bucketMs
        (some (5000000000, [])) 8000000000 [] c.deliveredPrevious out.delivered) ∧
    (∃ out c, completedRun TcpChannelCollector.readCheckpoint
        ([channelFlowInput tcpChannel 5000000000 1000] ++ [channelFlowInput tcpChannel 8000000000 4000])
        freshChannel = some ([[]] ++ [out], c) ∧
      DeltaLaw flowLoop (describesFlow tcpChannel) ChannelSample.counters ChannelSample.bucketMs
        (some (5000000000, listed (channelFlowInput tcpChannel 5000000000 1000).dump)) 8000000000
        (listed (channelFlowInput tcpChannel 8000000000 4000).dump) c.previous out) ∧
    (∃ out c, completedRun UdpChannelCollector.readCheckpoint
        ([channelFlowInput udpChannel 5000000000 1000] ++ [channelFlowInput udpChannel 8000000000 4000])
        freshChannel = some ([[]] ++ [out], c) ∧
      DeltaLaw flowLoop (describesFlow udpChannel) ChannelSample.counters ChannelSample.bucketMs
        (some (5000000000, listed (channelFlowInput udpChannel 5000000000 1000).dump)) 8000000000
        (listed (channelFlowInput udpChannel 8000000000 4000).dump) c.previous out) := by
  have hspaced : ∀ {α : Type} (f : α → ℤ) (a b : α), f a + 1000000 ≤ f b →
      Spaced f ([a] ++ [b]) := fun f a b h => by simpa [Spaced] using h
  refine ⟨⟨_, _, rfl, rfl, ?_⟩, ⟨_, _, rfl, ?_⟩, ⟨_, _, rfl, ?_⟩⟩
  · have h := delta_loops_obey_law.1 freshIngress _ [splitFlowInput 5000000000 100 200]
      (splitFlowInput 8000000000 150 720) [⟨[], []⟩] _ ⟨rfl, rfl, rfl⟩ (hspaced _ _ _ (by decide)) rfl
    exact ⟨h.1, h.2 rfl⟩
  · exact delta_loops_obey_law.2.1 freshChannel _ [channelFlowInput tcpChannel 5000000000 1000]
      (channelFlowInput tcpChannel 8000000000 4000) [[]] _ ⟨rfl, rfl⟩ (hspaced _ _ _ (by decide)) rfl
  · exact delta_loops_obey_law.2.2 freshChannel _ [channelFlowInput udpChannel 5000000000 1000]
      (channelFlowInput udpChannel 8000000000 4000) [[]] _ ⟨rfl, rfl⟩ (hspaced _ _ _ (by decide)) rfl

end UdpAnalyzer

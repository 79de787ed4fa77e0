import UdpAnalyzer.Ingress.DeliveredRows
import UdpAnalyzer.Lib.Sweep

/-! The ingress collector while traffic goes on. The dump of a map takes time: `bpftool` walks
through the keys and copies the records of one key after the other, word by word, and the kernel
programs do not wait for it. A key that is inserted meanwhile may or may not be listed. No entry is
ever taken out of the two maps, so a walk comes across every key that was there before it. -/

namespace UdpAnalyzer

open Snapshot EbpfIngressCollector

variable {n : ℕ}

/-! ### The words of the records -/

/-- The words of `struct delivered_value`. -/
inductive DeliveredWord where
  | packets
  | bytes
  | socketInode
  | ifindex
  deriving DecidableEq, Repr

/-- A `struct udp_counters` that is copied word by word. -/
def ingressWords (n : ℕ) : Words UdpCounters UdpField UdpField (ingressTable n).field where
  word := id
  assemble read := { packets := (read .packets).packets, bytes := (read .bytes).bytes }
  field_assemble f read := by cases f <;> rfl

def deliveredWords (n : ℕ) :
    Words DeliveredValue UdpField DeliveredWord (deliveredTable n).field where
  word
    | .packets => .packets
    | .bytes => .bytes
  assemble read := {
    packets := (read .packets).packets, bytes := (read .bytes).bytes
    socketInode := (read .socketInode).socketInode, ifindex := (read .ifindex).ifindex }
  field_assemble f read := by cases f <;> rfl

/-! ### Checkpoints that race with the kernel -/

/-- What happens from one checkpoint to the next, and while its maps are dumped. -/
structure RacingInterval (n : ℕ) extends PacketInterval n where
  during : List (PacketEvent n)
  ingressSweep : Sweep n UdpKey UdpField
  deliveredSweep : Sweep n DeliveredKey DeliveredWord

namespace RacingInterval

/-- Everything that happens up to the end of the dumps. -/
def timeline (i : RacingInterval n) : List (PacketEvent n) := i.events ++ i.during

/-- What the two dumps make of the maps, which are as given when they begin. -/
def dumped (i : RacingInterval n) (maps : PacketMaps n) : PacketMaps n where
  ingress := { counters := (ingressTable n).sweep (ingressWords n) i.ingressSweep maps i.during }
  delivered := (deliveredTable n).sweep (deliveredWords n) i.deliveredSweep maps i.during

/-- Run the kernel, then read a checkpoint while it runs on. -/
def step (s : PacketMaps n × EbpfIngressCollector) (i : RacingInterval n) :
    Except PyExc Checkpoint × (PacketMaps n × EbpfIngressCollector) :=
  let maps := i.events.foldl PacketMaps.step s.1
  match s.2.readCheckpoint (i.input (i.dumped maps)) with
  | (r, c) => (r, (i.during.foldl PacketMaps.step maps, c))

/-- The interval without its events: only the checkpoint is left. -/
def still (i : RacingInterval n) : PacketInterval n := { i.toPacketInterval with events := [] }

/-- For the collector, the checkpoint is one of maps that stand still and are what was dumped. -/
theorem step_still {s s' : PacketMaps n × EbpfIngressCollector} {i : RacingInterval n}
    {r : Except PyExc Checkpoint} (h : i.step s = (r, s')) :
    s'.1 = i.timeline.foldl PacketMaps.step s.1 ∧
      i.still.step (i.dumped (i.events.foldl PacketMaps.step s.1), s.2) =
        (r, (i.dumped (i.events.foldl PacketMaps.step s.1), s'.2)) := by
  obtain ⟨maps, c⟩ := s
  simp only [step] at h
  rcases hread : c.readCheckpoint (i.input (i.dumped (i.events.foldl PacketMaps.step maps)))
    with ⟨r', c'⟩
  rw [hread] at h
  cases h
  refine ⟨List.foldl_append.symm, ?_⟩
  have hstill : c.readCheckpoint (i.still.input (i.dumped (i.events.foldl PacketMaps.step maps))) =
      (r', c') := hread
  simp only [PacketInterval.step, still, List.foldl_nil] at hstill ⊢
  rw [hstill]

end RacingInterval

/-- Everything that happens in a run. -/
def racingEvents (before : List (PacketEvent n)) (intervals : List (RacingInterval n)) :
    List (PacketEvent n) :=
  before ++ intervals.flatMap RacingInterval.timeline

theorem racingEvents_concat (before : List (PacketEvent n)) (intervals : List (RacingInterval n))
    (last : RacingInterval n) : racingEvents before (intervals ++ [last]) =
      racingEvents before intervals ++ last.events ++ last.during := by
  unfold racingEvents
  rw [List.flatMap_append, List.flatMap_singleton, RacingInterval.timeline]
  simp only [List.append_assoc]

/-- The maps when the dumps of an interval begin. -/
def mapsAt (before : List (PacketEvent n)) (early : List (RacingInterval n))
    (i : RacingInterval n) : PacketMaps n :=
  packetMaps (racingEvents before early ++ i.events)

/-- What the dumps of an interval make of the maps. -/
def dumpedAt (before : List (PacketEvent n)) (early : List (RacingInterval n))
    (i : RacingInterval n) : PacketMaps n :=
  i.dumped (mapsAt before early i)

/-- What a completed run of racing checkpoints leaves behind. -/
theorem completedRun_racing {before : List (PacketEvent n)} {intervals : List (RacingInterval n)}
    {c₀ : EbpfIngressCollector} (hfresh : c₀.Fresh) {outs : List Checkpoint}
    {s : PacketMaps n × EbpfIngressCollector}
    (h : completedRun RacingInterval.step intervals (packetMaps before, c₀) = some (outs, s)) :
    s.1 = packetMaps (racingEvents before intervals) ∧ s.2.config = c₀.config ∧
      s.2.deliveredReader = c₀.deliveredReader ∧
      (intervals = [] → s.2.flowBaselines = (fun _ => none) ∧
        s.2.deliveredBaselines = fun _ => none) ∧
      ∀ early i, intervals = early ++ [i] →
        s.2.flowBaselines = (ingressTable n).counts (dumpedAt before early i) ∧
        (c₀.deliveredReader.isSome →
          s.2.deliveredBaselines = (deliveredTable n).counts (dumpedAt before early i)) := by
  induction intervals using List.reverseRecOn generalizing outs s with
  | nil =>
    cases h
    refine ⟨?_, rfl, rfl, fun _ => ⟨?_, ?_⟩, ?_⟩
    · rw [racingEvents, List.flatMap_nil, List.append_nil]
    · funext key
      rw [flowBaselines, hfresh.previous]
      rfl
    · funext key
      rw [deliveredBaselines, hfresh.deliveredPrevious]
      rfl
    · intro early i heq
      exact absurd heq.symm (List.append_ne_nil_of_right_ne_nil _ (List.cons_ne_nil _ _))
  | append_singleton intervals last ih =>
    obtain ⟨outs', s', out, hrun, hstep, -⟩ := completedRun_concat h
    obtain ⟨hmaps, hconfig, hreader, -, -⟩ := ih hrun
    obtain ⟨hmaps', hstill⟩ := RacingInterval.step_still hstep
    obtain ⟨-, hconfig', hreader', hflows, hdelivered⟩ := PacketInterval.step_baselines hstill
    refine ⟨?_, hconfig'.trans hconfig, hreader'.trans hreader, fun heq => ?_, ?_⟩
    · rw [hmaps', hmaps, racingEvents_concat, List.append_assoc, packetMaps_append]
      rfl
    · exact absurd heq (List.append_ne_nil_of_right_ne_nil _ (List.cons_ne_nil _ _))
    · intro early i heq
      obtain ⟨rfl, hi⟩ := List.append_inj' heq rfl
      cases hi
      have hdumped : last.dumped (last.events.foldl PacketMaps.step s'.1) =
          dumpedAt before intervals last := by
        rw [dumpedAt, mapsAt, hmaps, packetMaps_append]
      rw [hdumped] at hflows hdelivered
      refine ⟨hflows, fun hsome => hdelivered ?_⟩
      show s'.2.deliveredReader.isSome
      rw [hreader]
      exact hsome

/-- The last checkpoint of a run, as one of maps that stand still. -/
theorem completedRun_racing_last {before : List (PacketEvent n)}
    {intervals : List (RacingInterval n)} {last : RacingInterval n} {c₀ : EbpfIngressCollector}
    (hfresh : c₀.Fresh) {outs : List Checkpoint} {out : Checkpoint}
    {s : PacketMaps n × EbpfIngressCollector}
    (h : completedRun RacingInterval.step (intervals ++ [last]) (packetMaps before, c₀) =
      some (outs ++ [out], s)) :
    ∃ s', completedRun RacingInterval.step intervals (packetMaps before, c₀) = some (outs, s') ∧
      last.still.step (dumpedAt before intervals last, s'.2) =
        (.ok out, (dumpedAt before intervals last, s.2)) := by
  obtain ⟨outs', s', out', hrun, hstep, hout⟩ := completedRun_concat h
  obtain ⟨rfl, he⟩ := List.append_inj' hout rfl
  cases he
  obtain ⟨hmaps, -, -, -, -⟩ := completedRun_racing hfresh hrun
  obtain ⟨-, hstill⟩ := RacingInterval.step_still hstep
  refine ⟨s', hrun, ?_⟩
  rwa [hmaps, ← packetMaps_append] at hstill

/-! ### From one dump to a later one -/

section
variable (moment : RacingInterval n → ℕ)

/-- What happens after a word was read in one dump and before it was read in a later one. -/
def eventsBetween (i : RacingInterval n) (mid : List (RacingInterval n))
    (last : RacingInterval n) : List (PacketEvent n) :=
  i.during.drop (moment i) ++ (mid.flatMap RacingInterval.timeline ++ last.events) ++
    last.during.take (moment last)

/-- A dump in the middle splits what happens at the moment when it reads the word. -/
theorem eventsBetween_concat (i : RacingInterval n) (mid : List (RacingInterval n))
    (prev last : RacingInterval n) : eventsBetween moment i (mid ++ [prev]) last =
      eventsBetween moment i mid prev ++ eventsBetween moment prev [] last := by
  unfold eventsBetween
  rw [List.flatMap_append, List.flatMap_singleton, List.flatMap_nil, List.nil_append,
    RacingInterval.timeline]
  conv_lhs => rw [← List.take_append_drop (moment prev) prev.during]
  simp only [List.append_assoc]

end

section Dumps
variable {K V P : Type} [DecidableEq K]
  (T : AccountedTable (PacketMaps n) (PacketEvent n) K V UdpField n)
  (W : Words V UdpField P T.field) (sweep : RacingInterval n → Sweep n K P)

/-- The dumps of a map are of what was in it. -/
def FaithfulDumps (before : List (PacketEvent n)) (intervals : List (RacingInterval n)) : Prop :=
  ∀ early i late, intervals = early ++ i :: late →
    T.Faithful (sweep i) (mapsAt before early i) i.during

/-- What is counted under a key between the readings of a counter in two dumps, over the CPUs. -/
def countedBetween (i : RacingInterval n) (mid : List (RacingInterval n)) (last : RacingInterval n)
    (key : K) (f : UdpField) : ℕ :=
  ∑ cpu, T.chargedOn key cpu f
    (eventsBetween (fun i => (sweep i).moment key cpu (W.word f)) i mid last)

theorem countedBetween_concat (i : RacingInterval n) (mid : List (RacingInterval n))
    (prev last : RacingInterval n) (key : K) (f : UdpField) :
    countedBetween T W sweep i (mid ++ [prev]) last key f =
      countedBetween T W sweep i mid prev key f + countedBetween T W sweep prev [] last key f := by
  unfold countedBetween
  rw [← Finset.sum_add_distrib]
  refine Finset.sum_congr rfl fun cpu _ => ?_
  rw [eventsBetween_concat, AccountedTable.chargedOn_append]

variable {T W sweep} {before : List (PacketEvent n)}

theorem FaithfulDumps.initial {intervals late : List (RacingInterval n)}
    (h : FaithfulDumps T sweep before (intervals ++ late)) :
    FaithfulDumps T sweep before intervals := by
  rintro early i rest rfl
  exact h early i (rest ++ late) (List.append_assoc _ _ _)

/-- A key that a dump lists is listed by the next one. -/
theorem FaithfulDumps.listed_next (hT : T.step = PacketMaps.step)
    {early late : List (RacingInterval n)} {i next : RacingInterval n}
    (h : FaithfulDumps T sweep before (early ++ i :: next :: late)) {key : K}
    (hkey : key ∈ (sweep i).keys) : key ∈ (sweep next).keys := by
  refine (h (early ++ [i]) next late (List.append_cons _ _ _)).complete key ?_
  have hafter := T.mem_foldl ((h early i _ rfl).mem_after hkey) next.events
  rw [hT, mapsAt, ← packetMaps_append, ← packetMaps_append, ← racingEvents_concat] at hafter
  exact hafter

/-- A key that a dump lists is listed by all dumps after it. -/
theorem FaithfulDumps.listed_later (hT : T.step = PacketMaps.step)
    {early mid : List (RacingInterval n)} {i last : RacingInterval n}
    (h : FaithfulDumps T sweep before (early ++ i :: (mid ++ [last]))) {key : K}
    (hkey : key ∈ (sweep i).keys) : key ∈ (sweep last).keys := by
  induction mid using List.reverseRecOn generalizing last with
  | nil => exact h.listed_next hT hkey
  | append_singleton mid prev ih =>
    have hsplit : early ++ i :: (mid ++ [prev] ++ [last]) =
        (early ++ i :: mid) ++ prev :: last :: [] := by
      simp only [List.append_assoc, List.cons_append, List.nil_append]
    have hwhole : FaithfulDumps T sweep before (early ++ i :: (mid ++ [prev]) ++ [last]) := by
      rwa [List.append_assoc, List.cons_append]
    have hinitial : FaithfulDumps T sweep before (early ++ i :: (mid ++ [prev])) := hwhole.initial
    rw [hsplit] at h
    exact h.listed_next hT (ih hinitial)

/-- The gain of a key from one dump to the next. -/
theorem gain_dumps (hT : T.step = PacketMaps.step) {early : List (RacingInterval n)}
    {prev last : RacingInterval n}
    (hdumps : FaithfulDumps T sweep before (early ++ [prev] ++ [last])) {key : K} {f : UdpField}
    (hempty : (T.table {}).get? key = none)
    (hfit : T.chargedIn key f (racingEvents before (early ++ [prev] ++ [last])) < 2 ^ 64) :
    gain (T.countsOf (T.sweep W (sweep prev) (mapsAt before early prev) prev.during))
        (T.countsOf (T.sweep W (sweep last) (mapsAt before (early ++ [prev]) last) last.during))
        key f =
      if key ∈ (sweep prev).keys then (countedBetween T W sweep prev [] last key f : ℤ) else 0 := by
  rw [List.append_assoc] at hdumps
  by_cases hkey : key ∈ (sweep prev).keys
  · rw [if_pos hkey]
    have hprev := hdumps early prev [last] rfl
    rw [racingEvents_concat, racingEvents_concat] at hfit
    rw [mapsAt, packetMaps, ← hT] at hprev
    rw [mapsAt, mapsAt, packetMaps, packetMaps, ← hT, racingEvents_concat]
    exact T.gain_sweeps hempty hprev hkey (hdumps.listed_next hT hkey) hfit
  · rw [if_neg hkey]
    exact gain_of_none (T.countsOf_sweep_of_not_mem hkey) f

end Dumps

/-! ### Rows of the interface layer -/

/-- The frames taken for a flow between the readings of its counters in two dumps. -/
abbrev framesBetween (i : RacingInterval n) (mid : List (RacingInterval n))
    (last : RacingInterval n) (key : UdpKey) (f : UdpField) : ℕ :=
  countedBetween (ingressTable n) (ingressWords n) RacingInterval.ingressSweep i mid last key f

/-- The dumps of the flows are of what was in the map. -/
abbrev FaithfulFlows (before : List (PacketEvent n)) (intervals : List (RacingInterval n)) : Prop :=
  FaithfulDumps (ingressTable n) RacingInterval.ingressSweep before intervals

/-- The last checkpoint reports of a flow the frames taken between the readings of its counters in
the dump before and in its own. -/
theorem racing_flowReport {before : List (PacketEvent n)} {intervals : List (RacingInterval n)}
    {last : RacingInterval n} {c₀ : EbpfIngressCollector} (hfresh : c₀.Fresh)
    (hfilter : c₀.sampleFilter = {}) {outs : List Checkpoint} {out : Checkpoint}
    {s : PacketMaps n × EbpfIngressCollector}
    (h : completedRun RacingInterval.step (intervals ++ [last]) (packetMaps before, c₀) =
      some (outs ++ [out], s)) (hdumps : FaithfulFlows before (intervals ++ [last]))
    {key : UdpKey} (hkey : key.IsUdp4) {f : UdpField}
    (hfit : framesTaken (racingEvents before (intervals ++ [last])) key f < 2 ^ 64) :
    (intervals = [] → flowReport out key f = 0) ∧
    ∀ early prev, intervals = early ++ [prev] → flowReport out key f =
      if key ∈ prev.ingressSweep.keys then (framesBetween prev [] last key f : ℤ) else 0 := by
  obtain ⟨s', hrun, hstill⟩ := completedRun_racing_last hfresh h
  obtain ⟨-, hconfig, -, hfirst, hbaselines⟩ := completedRun_racing hfresh hrun
  have hkeys : ∀ key ∈ (dumpedAt before intervals last).ingress.counters, key.IsUdp4 := by
    intro key hmem
    have hfound := (hdumps intervals last [] rfl).present key ((ingressTable n).mem_sweep.mp hmem)
    exact ingress_isUdp4 (racingEvents before intervals ++ last.events ++ _) key
      (by rw [packetMaps_append]; exact hfound)
  have hfilter' : s'.2.sampleFilter = {} := (congrArg Prod.fst hconfig).trans hfilter
  have hreport := PacketInterval.step_flowReport (s := (dumpedAt before intervals last, s'.2))
    hfilter' hstill hkeys hkey f
  rw [hreport]
  constructor
  · intro hnil
    exact gain_of_none (congrFun (hfirst hnil).1 key) f
  · rintro early prev rfl
    show gain s'.2.flowBaselines _ key f = _
    rw [(hbaselines early prev rfl).1]
    exact gain_dumps (T := ingressTable n) (W := ingressWords n) rfl hdumps rfl hfit

theorem framesTaken_racing_le {before : List (PacketEvent n)}
    (intervals : List (RacingInterval n)) (last : RacingInterval n) (key : UdpKey) (f : UdpField) :
    framesTaken (racingEvents before intervals) key f ≤
      framesTaken (racingEvents before (intervals ++ [last])) key f := by
  rw [racingEvents_concat, List.append_assoc]
  show _ ≤ (ingressTable n).chargedIn key f _
  rw [AccountedTable.chargedIn_append]
  exact Nat.le_add_right _ _

/-- Nothing is reported of a flow up to the first checkpoint that lists it. -/
theorem racing_flowReported_eq_zero {before : List (PacketEvent n)}
    {intervals : List (RacingInterval n)} {last : RacingInterval n} {c₀ : EbpfIngressCollector}
    (hfresh : c₀.Fresh) (hfilter : c₀.sampleFilter = {}) {outs : List Checkpoint}
    {s : PacketMaps n × EbpfIngressCollector}
    (h : completedRun RacingInterval.step (intervals ++ [last]) (packetMaps before, c₀) =
      some (outs, s)) (hdumps : FaithfulFlows before (intervals ++ [last])) {key : UdpKey}
    (hkey : key.IsUdp4) {f : UdpField}
    (hfit : framesTaken (racingEvents before (intervals ++ [last])) key f < 2 ^ 64)
    (hunlisted : ∀ i ∈ intervals, key ∉ i.ingressSweep.keys) : flowReported outs key f = 0 := by
  induction intervals using List.reverseRecOn generalizing last outs s with
  | nil =>
    obtain ⟨outs', s', out, hrun, -, rfl⟩ := completedRun_concat h
    cases hrun
    rw [flowReported_concat, (racing_flowReport hfresh hfilter h hdumps hkey hfit).1 rfl]
    rfl
  | append_singleton intervals prev ih =>
    obtain ⟨outs', s', out, hrun, -, rfl⟩ := completedRun_concat h
    have hbefore := ih hrun hdumps.initial
      (lt_of_le_of_lt (framesTaken_racing_le _ last key f) hfit)
      fun i hi => hunlisted i (List.mem_append_left _ hi)
    rw [flowReported_concat, hbefore,
      (racing_flowReport hfresh hfilter h hdumps hkey hfit).2 intervals prev rfl,
      if_neg (hunlisted prev (List.mem_append_right _ (List.mem_singleton_self prev)))]
    rfl

/-- From the first dump on that lists a flow, everything that is taken for it after its counters
were read there is reported. -/
theorem racing_flowReported_eq {before : List (PacketEvent n)} {early mid : List (RacingInterval n)}
    {i last : RacingInterval n} {c₀ : EbpfIngressCollector} (hfresh : c₀.Fresh)
    (hfilter : c₀.sampleFilter = {}) {outs : List Checkpoint}
    {s : PacketMaps n × EbpfIngressCollector}
    (h : completedRun RacingInterval.step (early ++ i :: (mid ++ [last])) (packetMaps before, c₀) =
      some (outs, s)) (hdumps : FaithfulFlows before (early ++ i :: (mid ++ [last])))
    {key : UdpKey} (hkey : key.IsUdp4) {f : UdpField}
    (hfit : framesTaken (racingEvents before (early ++ i :: (mid ++ [last]))) key f < 2 ^ 64)
    (hunlisted : ∀ j ∈ early, key ∉ j.ingressSweep.keys) (hlisted : key ∈ i.ingressSweep.keys) :
    flowReported outs key f = (framesBetween i mid last key f : ℤ) := by
  induction mid using List.reverseRecOn generalizing last outs s with
  | nil =>
    have hsplit : early ++ i :: ([] ++ [last]) = early ++ [i] ++ [last] := by
      rw [List.append_assoc]
      rfl
    rw [hsplit] at h hdumps hfit
    obtain ⟨outs', s', out, hrun, -, rfl⟩ := completedRun_concat h
    have hbefore := racing_flowReported_eq_zero hfresh hfilter hrun hdumps.initial hkey
      (lt_of_le_of_lt (framesTaken_racing_le _ last key f) hfit) hunlisted
    rw [flowReported_concat, hbefore,
      (racing_flowReport hfresh hfilter h hdumps hkey hfit).2 early i rfl, if_pos hlisted, zero_add]
  | append_singleton mid prev ih =>
    have hkept : key ∈ prev.ingressSweep.keys := by
      have hwhole : FaithfulFlows before (early ++ i :: (mid ++ [prev]) ++ [last]) := by
        rwa [List.append_assoc, List.cons_append]
      have hinitial : FaithfulFlows before (early ++ i :: (mid ++ [prev])) := hwhole.initial
      exact hinitial.listed_later rfl hlisted
    rw [← List.cons_append, ← List.append_assoc] at h hdumps hfit
    obtain ⟨outs', s', out, hrun, -, rfl⟩ := completedRun_concat h
    have hbefore := ih hrun hdumps.initial
      (lt_of_le_of_lt (framesTaken_racing_le _ last key f) hfit)
    rw [← List.cons_append, ← List.append_assoc] at h hdumps hfit
    rw [flowReported_concat, hbefore,
      (racing_flowReport hfresh hfilter h hdumps hkey hfit).2 (early ++ i :: mid) prev rfl,
      if_pos hkept, ← Nat.cast_add]
    exact congrArg Nat.cast (countedBetween_concat _ _ _ i mid prev last key f).symm

/-- In any attribution mode and without a filter, while the kernel goes on counting during every
dump: the rows of the interface layer of a checkpoint report of a flow that the dump before has
listed the frames taken, on each CPU, after that dump had read the counter and before this one
read it, and else nothing. So over a whole run every frame is reported once that is taken between
the readings of the first dump that lists the flow and those of the last dump. -/
theorem racing_rows_report_frames (before : List (PacketEvent n))
    (intervals : List (RacingInterval n)) (last : RacingInterval n) (c₀ : EbpfIngressCollector)
    (outs : List Checkpoint) (out : Checkpoint) (s : PacketMaps n × EbpfIngressCollector)
    (key : UdpKey) (f : UdpField) (hfresh : c₀.Fresh) (hfilter : c₀.sampleFilter = {})
    (h : completedRun RacingInterval.step (intervals ++ [last]) (packetMaps before, c₀) =
      some (outs ++ [out], s)) (hdumps : FaithfulFlows before (intervals ++ [last]))
    (hkey : key.IsUdp4)
    (hfit : framesTaken (racingEvents before (intervals ++ [last])) key f < 2 ^ 64) :
    (intervals = [] → flowReport out key f = 0) ∧
    (∀ early prev, intervals = early ++ [prev] → flowReport out key f =
      if key ∈ prev.ingressSweep.keys then (framesBetween prev [] last key f : ℤ) else 0) ∧
    ∀ early i mid, intervals = early ++ i :: mid → (∀ j ∈ early, key ∉ j.ingressSweep.keys) →
      key ∈ i.ingressSweep.keys →
      flowReported (outs ++ [out]) key f = (framesBetween i mid last key f : ℤ) := by
  obtain ⟨hfirst, hnext⟩ := racing_flowReport hfresh hfilter h hdumps hkey hfit
  refine ⟨hfirst, hnext, ?_⟩
  rintro early i mid rfl hunlisted hlisted
  rw [List.append_assoc, List.cons_append] at h hdumps hfit
  exact racing_flowReported_eq hfresh hfilter h hdumps hkey hfit hunlisted hlisted

/-! The flow of before, with frames that come in while the map is dumped. In the first dump the
packets are read after them and the bytes before them. -/

def streamSweep (moment : Fin 2 → UdpField → ℕ) : Sweep 2 UdpKey UdpField where
  keys := [streamKey]
  nodup := List.nodup_singleton _
  found _ := 0
  moment _ := moment
  found_le _ _ _ := Nat.zero_le _

def receiveSweep (keys : List DeliveredKey) (nodup : keys.Nodup)
    (moment : Fin 2 → DeliveredWord → ℕ) : Sweep 2 DeliveredKey DeliveredWord where
  keys
  nodup
  found _ := 0
  moment _ := moment
  found_le _ _ _ := Nat.zero_le _

def racingFirst : RacingInterval 2 where
  toPacketInterval := streamInterval 1000000000 []
  during := [streamArrival 0, streamArrival 1]
  ingressSweep := streamSweep fun _ f => if f = .packets then 2 else 0
  deliveredSweep := receiveSweep [] List.nodup_nil fun _ _ => 0

def racingSecond : RacingInterval 2 where
  toPacketInterval := streamInterval 2000000000 [streamArrival 1]
  during := [streamArrival 0]
  ingressSweep := streamSweep fun _ _ => 1
  deliveredSweep := receiveSweep [] List.nodup_nil fun _ _ => 0

/-- A run of two checkpoints has two dumps. -/
theorem faithfulDumps_pair {K V P : Type} [DecidableEq K]
    {T : AccountedTable (PacketMaps n) (PacketEvent n) K V UdpField n}
    {sweep : RacingInterval n → Sweep n K P} {before : List (PacketEvent n)}
    {first second : RacingInterval n}
    (hfirst : T.Faithful (sweep first) (mapsAt before [] first) first.during)
    (hsecond : T.Faithful (sweep second) (mapsAt before [first] second) second.during) :
    FaithfulDumps T sweep before ([first] ++ [second]) := by
  intro early i late heq
  rcases early with _ | ⟨j, early⟩
  · cases heq
    exact hfirst
  · rcases early with _ | ⟨j', early⟩
    · cases heq
      exact hsecond
    · have hlength := congrArg List.length heq
      simp only [List.length_append, List.length_cons, List.length_nil] at hlength
      omega

theorem racing_rows_report_frames_stream : ∃ outs out s,
    completedRun RacingInterval.step ([racingFirst] ++ [racingSecond])
      (packetMaps [streamArrival 0], streamCollector) = some (outs ++ [out], s) ∧
    flowReport out streamKey .packets = 2 ∧ flowReport out streamKey .bytes = 5264 ∧
    flowReported (outs ++ [out]) streamKey .bytes = 5264 := by
  have hsome : (completedRun RacingInterval.step ([racingFirst] ++ [racingSecond])
      (packetMaps [streamArrival 0], streamCollector)).isSome = true := by decide +kernel
  obtain ⟨⟨all, s⟩, hrun⟩ := Option.isSome_iff_exists.mp hsome
  obtain ⟨outs, s', out, -, -, rfl⟩ := completedRun_concat hrun
  have hdumps : FaithfulFlows [streamArrival 0] ([racingFirst] ++ [racingSecond]) :=
    faithfulDumps_pair (by decide +kernel) (by decide +kernel)
  obtain ⟨-, hpackets, -⟩ := racing_rows_report_frames [streamArrival 0] [racingFirst]
    racingSecond streamCollector outs out s streamKey .packets ⟨rfl, rfl, rfl⟩ rfl hrun hdumps
    ⟨rfl, rfl⟩ (by decide +kernel)
  obtain ⟨-, hbytes, hall⟩ := racing_rows_report_frames [streamArrival 0] [racingFirst]
    racingSecond streamCollector outs out s streamKey .bytes ⟨rfl, rfl, rfl⟩ rfl hrun hdumps
    ⟨rfl, rfl⟩ (by decide +kernel)
  have hlisted : streamKey ∈ racingFirst.ingressSweep.keys := List.mem_singleton_self _
  refine ⟨outs, out, s, hrun, ?_, ?_, ?_⟩
  · rw [hpackets [] racingFirst rfl, if_pos hlisted]
    decide +kernel
  · rw [hbytes [] racingFirst rfl, if_pos hlisted]
    decide +kernel
  · rw [hall [] racingFirst [] rfl (fun j hj => absurd hj List.not_mem_nil) hlisted]
    decide +kernel

/-! ### Rows of the delivered layer -/

/-- What is delivered under a key between the readings of a counter in two dumps. -/
abbrev datagramsBetween (i : RacingInterval n) (mid : List (RacingInterval n))
    (last : RacingInterval n) (key : DeliveredKey) (f : UdpField) : ℕ :=
  countedBetween (deliveredTable n) (deliveredWords n) RacingInterval.deliveredSweep i mid last key f

/-- The dumps of the sockets are of what was in the map. -/
abbrev FaithfulDeliveries (before : List (PacketEvent n)) (intervals : List (RacingInterval n)) :
    Prop :=
  FaithfulDumps (deliveredTable n) RacingInterval.deliveredSweep before intervals

theorem dumpedAt_delivered_isUdp4 {before : List (PacketEvent n)}
    {intervals : List (RacingInterval n)} {last : RacingInterval n}
    (hdumps : FaithfulDeliveries before (intervals ++ [last])) :
    ∀ key ∈ (dumpedAt before intervals last).delivered, key.IsUdp4 := by
  intro key hmem
  have hfound := (hdumps intervals last [] rfl).present key ((deliveredTable n).mem_sweep.mp hmem)
  exact delivered_isUdp4 (racingEvents before intervals ++ last.events ++ _) key
    (by rw [packetMaps_append]; exact hfound)

/-- Every record of a dump has seen what it holds with a datagram of its key. -/
theorem seen_dumpedAt {before : List (PacketEvent n)} {intervals : List (RacingInterval n)}
    {last : RacingInterval n} (hdumps : FaithfulDeliveries before (intervals ++ [last]))
    {key : DeliveredKey} {slots : Fin n → DeliveredValue}
    (h : (dumpedAt before intervals last).delivered.get? key = some slots) (cpu : Fin n) :
    Seen (deliveredDatagrams (racingEvents before (intervals ++ [last])) key) (slots cpu) := by
  have hfaithful := hdumps intervals last [] rfl
  have hmem : key ∈ (dumpedAt before intervals last).delivered :=
    Dict.get?_isSome.mp (by rw [h]; rfl)
  have hlisted : key ∈ last.deliveredSweep.keys := (deliveredTable n).mem_sweep.mp hmem
  have hword : ∀ word, Seen (deliveredDatagrams (racingEvents before (intervals ++ [last])) key)
      (((deliveredTable n).table ((last.during.take (last.deliveredSweep.moment key cpu word)).foldl
        (deliveredTable n).step (mapsAt before intervals last))).slot .empty key cpu) := by
    intro word
    have hread := hfaithful.mem_read hlisted cpu word
    obtain ⟨slots', hslots'⟩ := Option.isSome_iff_exists.mp (Dict.get?_isSome.mpr hread)
    have hseen := seen_packetMaps (racingEvents before intervals ++ last.events ++
      last.during.take (last.deliveredSweep.moment key cpu word)) key slots'
      (by rw [packetMaps_append]; exact hslots') cpu
    have hsplit : racingEvents before (intervals ++ [last]) =
        (racingEvents before intervals ++ last.events ++
          last.during.take (last.deliveredSweep.moment key cpu word)) ++
        last.during.drop (last.deliveredSweep.moment key cpu word) := by
      rw [racingEvents_concat, List.append_assoc _ (last.during.take _), List.take_append_drop]
    rw [PerCpuMap.slot, hslots', hsplit, deliveredDatagrams_append]
    exact hseen.mono
  have hslots := ((deliveredTable n).get?_sweep hlisted).symm.trans h
  cases hslots
  exact ⟨(hword .socketInode).1, (hword .ifindex).2⟩

/-- The intervals and the outputs of a run with one checkpoint more. -/
theorem racing_zip {intervals : List (RacingInterval n)} {last : RacingInterval n}
    {outs : List Checkpoint} {out : Checkpoint} {s s' : PacketMaps n × EbpfIngressCollector}
    (h : completedRun RacingInterval.step intervals s = some (outs, s')) :
    ((intervals ++ [last]).map RacingInterval.toPacketInterval).zip (outs ++ [out]) =
      (intervals.map RacingInterval.toPacketInterval).zip outs ++
        [(last.toPacketInterval, out)] := by
  rw [List.map_append]
  exact List.zip_append ((List.length_map _).trans (completedRun_length h))

/-- A run in cookie mode keeps the mode and knows only what it may know. -/
theorem racing_cookie {before : List (PacketEvent n)} {intervals : List (RacingInterval n)}
    {c₀ : EbpfIngressCollector} {Known : ProcessSocket → Prop} {name : Option Str}
    (hfresh : c₀.Fresh) (hmode : CookieMode c₀) (hcache : KnownCache Known name c₀.processEnricher)
    {outs : List Checkpoint}
    (hscans : ∀ checkpoint ∈ (intervals.map RacingInterval.toPacketInterval).zip outs,
      checkpoint.1.KnownScans Known name checkpoint.2) (hdumps : FaithfulDeliveries before intervals)
    {s : PacketMaps n × EbpfIngressCollector}
    (h : completedRun RacingInterval.step intervals (packetMaps before, c₀) = some (outs, s)) :
    CookieMode s.2 ∧ KnownCache Known name s.2.processEnricher := by
  induction intervals using List.reverseRecOn generalizing outs s with
  | nil =>
    cases h
    exact ⟨hmode, hcache⟩
  | append_singleton intervals last ih =>
    obtain ⟨outs', s', out, -, -, rfl⟩ := completedRun_concat h
    obtain ⟨s', hrun, hstill⟩ := completedRun_racing_last hfresh h
    rw [racing_zip hrun, List.forall_mem_append] at hscans
    obtain ⟨hmode', hcache'⟩ := ih hscans.1 hdumps.initial hrun
    obtain ⟨-, hconfig, hreader, -, -⟩ := completedRun_racing hfresh h
    refine ⟨⟨?_, ?_, ?_⟩, ?_⟩
    · exact (congrArg Prod.snd hconfig).trans hmode.attribution
    · rw [hreader]
      exact hmode.reader
    · exact (congrArg Prod.fst hconfig).trans hmode.filter
    · exact (PacketInterval.step_deliveredRows (s := (dumpedAt before intervals last, s'.2))
        (i := last.still) hmode' hcache' (hscans.2 _ (List.mem_singleton_self _)) hstill
        (dumpedAt_delivered_isUdp4 hdumps)).1

/-- The rows of the last checkpoint of a run, in terms of what was dumped. -/
theorem racing_deliveredRows {before : List (PacketEvent n)} {intervals : List (RacingInterval n)}
    {last : RacingInterval n} {c₀ : EbpfIngressCollector} (hfresh : c₀.Fresh)
    (hmode : CookieMode c₀) {outs : List Checkpoint} {out : Checkpoint}
    {s : PacketMaps n × EbpfIngressCollector}
    (h : completedRun RacingInterval.step (intervals ++ [last]) (packetMaps before, c₀) =
      some (outs ++ [out], s)) (hdumps : FaithfulDeliveries before (intervals ++ [last]))
    {key : DeliveredKey} (hkey : key.IsUdp4) :
    ∃ baselines : Snapshot DeliveredKey UdpField,
      (intervals = [] → baselines = fun _ => none) ∧
      (∀ early prev, intervals = early ++ [prev] →
        baselines = (deliveredTable n).counts (dumpedAt before early prev)) ∧
      DeliveredRows
        (KnownIn c₀ (((intervals ++ [last]).map RacingInterval.toPacketInterval).zip (outs ++ [out])))
        baselines (dumpedAt before intervals last) out.samples key := by
  obtain ⟨s', hrun, hstill⟩ := completedRun_racing_last hfresh h
  obtain ⟨-, -, -, hfirst, hbaselines⟩ := completedRun_racing hfresh hrun
  have hscans := @knownIn_scans n c₀
    (((intervals ++ [last]).map RacingInterval.toPacketInterval).zip (outs ++ [out]))
  rw [racing_zip hrun] at hscans
  rw [racing_zip hrun]
  obtain ⟨hbefore, hlast⟩ := List.forall_mem_append.mp hscans
  obtain ⟨hmode', hcache'⟩ :=
    racing_cookie hfresh hmode (knownIn_cache c₀ _) hbefore hdumps.initial hrun
  refine ⟨s'.2.deliveredBaselines, fun hnil => (hfirst hnil).2,
    fun early prev heq => (hbaselines early prev heq).2 hmode.reader, ?_⟩
  exact (PacketInterval.step_deliveredRows (s := (dumpedAt before intervals last, s'.2))
    (i := last.still) hmode' hcache' (hlast _ (List.mem_singleton_self _)) hstill
    (dumpedAt_delivered_isUdp4 hdumps)).2 key hkey

/-- In cookie mode and without a filter, while datagrams are delivered during every dump: a
checkpoint has rows of a socket and a flow exactly when the dump before has listed them and
something was counted between the readings of a counter there and here; each of the rows carries
what was counted between, and names an interface and a process that were seen with a datagram of
the flow. -/
theorem racing_rows_report_datagrams (before : List (PacketEvent n))
    (intervals : List (RacingInterval n)) (last : RacingInterval n) (c₀ : EbpfIngressCollector)
    (outs : List Checkpoint) (out : Checkpoint) (s : PacketMaps n × EbpfIngressCollector)
    (key : DeliveredKey) (hfresh : c₀.Fresh) (hmode : CookieMode c₀)
    (h : completedRun RacingInterval.step (intervals ++ [last]) (packetMaps before, c₀) =
      some (outs ++ [out], s)) (hdumps : FaithfulDeliveries before (intervals ++ [last]))
    (hkey : key.IsUdp4)
    (hfit : ∀ f, deliveredSum
      (deliveredDatagrams (racingEvents before (intervals ++ [last])) key) f < 2 ^ 64) :
    ((∃ row ∈ out.samples, row.OfDelivery key) ↔
      ∃ early prev, intervals = early ++ [prev] ∧ key ∈ prev.deliveredSweep.keys ∧
        ∃ f, 0 < datagramsBetween prev [] last key f) ∧
    ∀ row ∈ out.samples, row.OfDelivery key →
      (∀ early prev, intervals = early ++ [prev] → ∀ f, UdpMapCounters.field f row.counters =
        datagramsBetween prev [] last key f) ∧
      (row.ifindex = 0 ∨
        ∃ datagram ∈ deliveredDatagrams (racingEvents before (intervals ++ [last])) key,
          row.ifindex = datagram.zero.ifindex.toNat) ∧
      (row.NoProcess ∨ ∃ process,
        KnownIn c₀ (((intervals ++ [last]).map RacingInterval.toPacketInterval).zip (outs ++ [out]))
          process ∧
        row.Names process ∧
        ∃ datagram ∈ deliveredDatagrams (racingEvents before (intervals ++ [last])) key,
          process.socketInode = datagram.zero.socketInode.toNat) := by
  obtain ⟨baselines, hfirst, hnext, hrows⟩ := racing_deliveredRows hfresh hmode h hdumps hkey
  have hgain : ∀ early prev, intervals = early ++ [prev] → ∀ f,
      gain baselines ((deliveredTable n).counts (dumpedAt before intervals last)) key f =
        if key ∈ prev.deliveredSweep.keys then (datagramsBetween prev [] last key f : ℤ) else 0 := by
    rintro early prev rfl f
    rw [hnext early prev rfl]
    exact gain_dumps (T := deliveredTable n) (W := deliveredWords n) rfl hdumps rfl
      (by rw [chargedIn_delivered]; exact hfit f)
  have hexists : (∃ row ∈ out.samples, row.OfDelivery key) ↔
      ∃ early prev, intervals = early ++ [prev] ∧ key ∈ prev.deliveredSweep.keys ∧
        ∃ f, 0 < datagramsBetween prev [] last key f := by
    rw [hrows.exists_iff, moved_iff_gain]
    constructor
    · rintro ⟨f, hpos⟩
      rcases List.eq_nil_or_concat intervals with hnil | ⟨early, prev, hsplit⟩
      · rw [hfirst hnil, gain_of_none rfl] at hpos
        exact absurd hpos (lt_irrefl 0)
      · rw [List.concat_eq_append] at hsplit
        rw [hgain early prev hsplit f] at hpos
        split_ifs at hpos with hlisted
        · exact ⟨early, prev, hsplit, hlisted, f, Int.natCast_pos.mp hpos⟩
        · exact absurd hpos (lt_irrefl 0)
    · rintro ⟨early, prev, hsplit, hlisted, f, hpos⟩
      refine ⟨f, ?_⟩
      rw [hgain early prev hsplit f, if_pos hlisted]
      exact Int.natCast_pos.mpr hpos
  refine ⟨hexists, fun row hmem hof => ⟨fun early prev hsplit f => ?_, ?_⟩⟩
  · obtain ⟨early', prev', hsplit', hlisted, -⟩ := hexists.mp ⟨row, hmem, hof⟩
    obtain ⟨-, hsame⟩ := List.append_inj' (hsplit.symm.trans hsplit') rfl
    cases hsame
    rw [hrows.counters row hmem hof f, hgain early prev hsplit f, if_pos hlisted]
  · exact hrows.names (fun slots hslots cpu => seen_dumpedAt hdumps hslots cpu) hmem hof

/-! Datagrams that are delivered while the map is dumped. -/

def racingReceiveFirst : RacingInterval 2 where
  toPacketInterval := receiveIntervalAt 2000000000 [streamReceive 0]
  during := [streamReceive 1]
  ingressSweep := streamSweep fun _ _ => 0
  deliveredSweep := receiveSweep [streamDeliveredKey] (List.nodup_singleton _) fun _ _ => 0

def racingReceiveSecond : RacingInterval 2 where
  toPacketInterval := receiveIntervalAt 4000000000 [streamReceive 0]
  during := [streamReceive 0]
  ingressSweep := streamSweep fun _ _ => 0
  deliveredSweep := receiveSweep [streamDeliveredKey] (List.nodup_singleton _)
    fun _ word => if word = .packets then 1 else 0

theorem racing_rows_report_datagrams_stream : ∃ outs out s,
    completedRun RacingInterval.step ([racingReceiveFirst] ++ [racingReceiveSecond])
      (packetMaps [streamReceive 0], receivingCollector) = some (outs ++ [out], s) ∧
    (∃ row ∈ out.samples, row.OfDelivery streamDeliveredKey) ∧
    ∀ row ∈ out.samples, row.OfDelivery streamDeliveredKey → row.counters.packets = 3 := by
  have hsome : (completedRun RacingInterval.step ([racingReceiveFirst] ++ [racingReceiveSecond])
      (packetMaps [streamReceive 0], receivingCollector)).isSome = true := by decide +kernel
  obtain ⟨⟨all, s⟩, hrun⟩ := Option.isSome_iff_exists.mp hsome
  obtain ⟨outs, s', out, -, -, rfl⟩ := completedRun_concat hrun
  obtain ⟨hexists, hrows⟩ := racing_rows_report_datagrams [streamReceive 0] [racingReceiveFirst]
    racingReceiveSecond receivingCollector outs out s streamDeliveredKey ⟨rfl, rfl, rfl⟩
    ⟨rfl, rfl, rfl⟩ hrun (faithfulDumps_pair (by decide +kernel) (by decide +kernel))
    ⟨rfl, rfl, by decide⟩ (by intro f; cases f <;> decide +kernel)
  have hcount : datagramsBetween racingReceiveFirst [] racingReceiveSecond streamDeliveredKey
      .packets = 3 := by decide +kernel
  refine ⟨outs, out, s, hrun, hexists.mpr ⟨[], racingReceiveFirst, rfl, List.mem_singleton_self _,
    .packets, by rw [hcount]; decide⟩, fun row hmem hof => ?_⟩
  have hpackets := (hrows row hmem hof).1 [] racingReceiveFirst rfl .packets
  rw [hcount] at hpackets
  exact hpackets

end UdpAnalyzer

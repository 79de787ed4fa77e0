import UdpAnalyzer.Channel.Accounting
import UdpAnalyzer.DeltaLaw

/-! A channel collector on top of its kernel program. Between two checkpoints any
hooks run and any flows are evicted; a checkpoint prints every flow in the map
once, in any order, and the collector reads what was printed. What its rows report
of a flow is the gain between the two readings of the map, so it never exceeds
what the hooks accounted in between. -/

namespace UdpAnalyzer

open Snapshot

variable {P : ChannelProgram} {n : ℕ}

/-- What happens from one checkpoint to the next, and what the checkpoint meets
outside. The listing is the order the map is printed in. -/
structure Interval (P : ChannelProgram) (n : ℕ) where
  events : List (KernelEvent P n)
  listing : List (ChannelKey × (Fin n → ChannelValue)) → List (ChannelKey × (Fin n → ChannelValue))
  listing_perm : ∀ items, (listing items).Perm items
  poll : Option ℤ
  stderr : LoaderStderr
  nowNs : ℤ
  unitForPid : ℤ → Except PyExc Str
  ifIndexToName : ℤ → Except PyExc Str

namespace Interval

/-- The map after the events. -/
def mapAfter (i : Interval P n) (m : FlowMap n) : FlowMap n := i.events.foldl KernelEvent.step m

/-- The checkpoint of a map. -/
def input (i : Interval P n) (m : FlowMap n) : ChannelInput where
  poll := i.poll
  stderr := i.stderr
  nowNs := i.nowNs
  dump := P.decoder.dumpEntries (.ok (.arr ((i.listing m.items).map bpftoolEntry)))
  unitForPid := i.unitForPid
  ifIndexToName := i.ifIndexToName

/-- Run the kernel, then read a checkpoint. -/
def step (s : FlowMap n × ChannelCollector) (i : Interval P n) :
    Except PyExc (List FlowEmission) × (FlowMap n × ChannelCollector) :=
  let m := i.mapAfter s.1
  match s.2.readCheckpoint P.kind (i.input m) with
  | (r, c) => (r, (m, c))

end Interval

/-- What the rows of a checkpoint report of a counter of a flow. -/
def reported (out : List FlowEmission) (key : ChannelKey) (f : FlowField) : ℤ :=
  ((out.filter fun em => em.identity = key.decode.identity).flatMap Emission.rows
    |>.map fun row => FlowCounters.field f row.counters).sum

/-! ### The dump of a map -/

theorem dump_input {i : Interval P n} {m : FlowMap n} (h : ∀ key ∈ m, P.decoder.Accepts key) :
    (i.input m).dump = .ok ((i.listing m.items).map decodedEntry) := by
  apply FlowDecoder.dumpEntries_layout
  intro e he
  have hitem : e ∈ m.items := (i.listing_perm m.items).mem_iff.mp he
  exact h e.1 (List.mem_map.mpr ⟨e, hitem, rfl⟩)

/-- The entries of a flow in the dump: the one the map holds. -/
theorem entriesOf_dump (i : Interval P n) (m : FlowMap n) (key : ChannelKey) :
    flowLoop.entriesOf ((i.listing m.items).map decodedEntry) key.decode.identity =
      (m.get? key).toList.map fun slots => decodedEntry (key, slots) := by
  have hfilter : (i.listing m.items).filter (fun e => e.1 = key) =
      (m.get? key).toList.map fun slots => (key, slots) := by
    have hperm := (i.listing_perm m.items).filter fun e => e.1 = key
    rw [Dict.filter_items] at hperm
    cases hget : m.get? key with
    | none =>
      rw [hget] at hperm
      exact List.perm_nil.mp hperm
    | some slots =>
      rw [hget] at hperm
      exact List.perm_singleton.mp hperm
  have hsame : (fun e : FlowEntry => decide (e.key.identity = key.decode.identity)) ∘ decodedEntry =
      fun e : ChannelKey × (Fin n → ChannelValue) => decide (e.1 = key) := by
    funext e
    exact decide_eq_decide.mpr identity_decode_injective.eq_iff
  show ((i.listing m.items).map decodedEntry).filter
    (fun e => e.key.identity = key.decode.identity) = _
  rw [List.filter_map, hsame, hfilter, List.map_map]
  rfl

/-- The snapshot of the dump is the counts of the map. -/
theorem snapshot_dump (i : Interval P n) (m : FlowMap n) (key : ChannelKey) :
    flowLoop.snapshot ((i.listing m.items).map decodedEntry) key.decode.identity = m.counts key := by
  have hentries := entriesOf_dump i m key
  rw [FlowMap.counts]
  cases hget : m.get? key with
  | none =>
    rw [hget] at hentries
    exact flowLoop.snapshot_of_nil hentries
  | some slots =>
    rw [hget] at hentries
    have hne :
        flowLoop.entriesOf ((i.listing m.items).map decodedEntry) key.decode.identity ≠ [] := by
      rw [hentries]
      exact List.cons_ne_nil _ _
    rw [flowLoop.snapshot_of_ne_nil hne]
    refine congrArg some (funext fun f => ?_)
    show flowLoop.total _ _ f = _
    rw [CounterLoop.total, hentries]
    show FlowCounters.field f (mergedValue slots).counters + 0 = _
    rw [field_mergedValue, add_zero]
    rfl

/-! ### One checkpoint -/

/-- The rows of an emission are its sample alone. -/
abbrev Unfiltered (_ : FlowEntry) (d : FlowCounters) (b : ChannelSample)
    (rows : List ChannelSample) : Prop :=
  b.counters = d ∧ rows = [b]

/-- A completed loop whose rows are unfiltered reports the gains. -/
theorem reported_of_completed {before : Snapshot FlowIdentity FlowField} {dump : List FlowEntry}
    {previous : Dict FlowIdentity FlowCounters} {ems : List FlowEmission}
    (h : flowLoop.Completed Unfiltered before dump previous ems) (key : ChannelKey) (f : FlowField) :
    reported ems key f = gain before (flowLoop.snapshot dump) key.decode.identity f := by
  rcases h.filter_identity flowLoop key.decode.identity with
    ⟨em, hem, hid, hfilter⟩ | ⟨hfilter, hstill⟩
  · obtain ⟨e, d, -, -, hgain, hcounters, hrows⟩ := h.built em hem
    rw [reported, hfilter]
    show ((em.rows ++ []).map _).sum = _
    rw [hrows, ← hid, ← hgain f, ← hcounters]
    exact add_zero _
  · rw [reported, hfilter, gain_eq_zero_of_not_moved hstill]
    rfl

/-- The baselines of a collector, by kernel keys. -/
def ChannelCollector.baselines (c : ChannelCollector) : Snapshot ChannelKey FlowField :=
  fun key => flowLoop.view c.previous key.decode.identity

/-- A completed checkpoint of an unfiltered collector reports the gains from its
baselines to the map, and the map becomes the baselines. -/
theorem Interval.step_spec {s s' : FlowMap n × ChannelCollector} {i : Interval P n}
    {out : List FlowEmission} (hkeys : ∀ key ∈ s.1, P.decoder.Accepts key)
    (hfilter : s.2.sampleFilter = {}) (h : i.step s = (.ok out, s')) :
    s'.1 = i.mapAfter s.1 ∧ s'.2.sampleFilter = {} ∧ s'.2.baselines = s'.1.counts ∧
      ∀ key f, reported out key f = gain s.2.baselines s'.1.counts key f := by
  obtain ⟨m, c⟩ := s
  dsimp only at hkeys hfilter
  simp only [step] at h
  rcases hread : c.readCheckpoint P.kind (i.input (i.mapAfter m)) with ⟨r, c'⟩
  rw [hread] at h
  cases h
  have hemit : CounterLoop.EmitSpec (ChannelCollector.emitFlow P.kind
      { c with pidUnits := ∅, lastCheckpointNs := some i.nowNs } (i.input (i.mapAfter m))
      (bucketStartNs i.nowNs c.bucketMs) (elapsedMs c.bucketMs c.lastCheckpointNs i.nowNs))
      (fun _ => True) Unfiltered := by
    intro e d t b rows t' ht hbuilt
    obtain ⟨⟨hcounters, hrows⟩, -⟩ := ChannelCollector.emitFlow_rows _ _ _ _ _ e d t b rows t' ht hbuilt
    refine ⟨⟨hcounters, ?_⟩, trivial⟩
    rw [hrows, hfilter, List.filter_singleton, ChannelSampleFilter.matchesSample_empty]
    rfl
  obtain ⟨hdone, hc'⟩ := ChannelCollector.readFlows_spec hemit trivial
    (ChannelCollector.readCheckpoint_spec hread)
  have hkeys' : ∀ key ∈ i.mapAfter m, P.decoder.Accepts key := accepts_foldl hkeys
  have hdump : listed (i.input (i.mapAfter m)).dump =
      (i.listing (i.mapAfter m).items).map decodedEntry := by
    rw [dump_input hkeys']
    rfl
  rw [hdump] at hdone
  refine ⟨rfl, ?_, ?_, fun key f => ?_⟩
  · rw [hc']
    exact hfilter
  · funext key
    show flowLoop.view c'.previous key.decode.identity = _
    rw [hdone.baseline, snapshot_dump]
  · have hsnapshot := snapshot_dump i (i.mapAfter m) key
    have hbaseline : flowLoop.view c.previous key.decode.identity = c.baselines key := rfl
    rw [reported_of_completed hdone]
    exact gain_congr hbaseline hsnapshot f

/-! ### Whole runs -/

/-- The map after a run of intervals from the empty one. -/
def mapOf (intervals : List (Interval P n)) : FlowMap n :=
  (intervals.flatMap Interval.events).foldl KernelEvent.step ∅

theorem mapOf_concat (intervals : List (Interval P n)) (last : Interval P n) :
    mapOf (intervals ++ [last]) = last.mapAfter (mapOf intervals) := by
  unfold mapOf Interval.mapAfter
  rw [List.flatMap_append, List.flatMap_singleton, List.foldl_append]

theorem accepts_mapOf (intervals : List (Interval P n)) :
    ∀ key ∈ mapOf intervals, P.decoder.Accepts key :=
  accepts_foldl fun _ hkey => absurd hkey List.not_mem_nil

/-- What a completed run of a fresh, unfiltered collector leaves behind. -/
theorem completedRun_system {intervals : List (Interval P n)} {c₀ : ChannelCollector}
    (hfresh : c₀.Fresh) (hfilter : c₀.sampleFilter = {}) {outs : List (List FlowEmission)}
    {s : FlowMap n × ChannelCollector}
    (h : completedRun Interval.step intervals (∅, c₀) = some (outs, s)) :
    s.1 = mapOf intervals ∧ s.2.sampleFilter = {} ∧
      s.2.baselines = if intervals = [] then fun _ => none else s.1.counts := by
  induction intervals using List.reverseRecOn generalizing outs s with
  | nil =>
    cases h
    refine ⟨rfl, hfilter, ?_⟩
    rw [if_pos rfl]
    funext key
    rw [ChannelCollector.baselines, hfresh.previous]
    rfl
  | append_singleton intervals last ih =>
    obtain ⟨outs', s', out, hrun, hstep, -⟩ := completedRun_concat h
    obtain ⟨hmap, hfilter', -⟩ := ih hrun
    have hkeys : ∀ key ∈ s'.1, P.decoder.Accepts key := by
      rw [hmap]
      exact accepts_mapOf intervals
    obtain ⟨hmap', hfilter'', hbaselines, -⟩ := Interval.step_spec hkeys hfilter' hstep
    refine ⟨?_, hfilter'', ?_⟩
    · rw [hmap', hmap, mapOf_concat]
    · rw [if_neg (List.append_ne_nil_of_right_ne_nil _ (List.cons_ne_nil _ _)), hbaselines]

/-- The rows of the last checkpoint report the gains since the checkpoint before,
and nothing at the first checkpoint. -/
theorem completedRun_reported {intervals : List (Interval P n)} {last : Interval P n}
    {c₀ : ChannelCollector} (hfresh : c₀.Fresh) (hfilter : c₀.sampleFilter = {})
    {outs : List (List FlowEmission)} {s : FlowMap n × ChannelCollector}
    (h : completedRun Interval.step (intervals ++ [last]) (∅, c₀) = some (outs, s)) :
    ∃ outs' out s', outs = outs' ++ [out] ∧
      completedRun Interval.step intervals (∅, c₀) = some (outs', s') ∧
      ∀ key f, reported out key f = if intervals = [] then 0 else
        gain (mapOf intervals).counts (last.mapAfter (mapOf intervals)).counts key f := by
  obtain ⟨outs', s', out, hrun, hstep, rfl⟩ := completedRun_concat h
  obtain ⟨hmap, hfilter', hbefore⟩ := completedRun_system hfresh hfilter hrun
  have hkeys : ∀ key ∈ s'.1, P.decoder.Accepts key := by
    rw [hmap]
    exact accepts_mapOf intervals
  obtain ⟨hmap', -, -, hreported⟩ := Interval.step_spec hkeys hfilter' hstep
  refine ⟨outs', out, s', rfl, hrun, fun key f => ?_⟩
  rw [hreported key f, hmap', hmap, hbefore]
  split_ifs
  · exact gain_of_none rfl f
  · rw [hmap]

/-- No event of the intervals wraps a counter. -/
def NoWrap (intervals : List (Interval P n)) : Prop :=
  Along KernelEvent.step KernelEvent.Fits ∅ (intervals.flatMap Interval.events)

instance (intervals : List (Interval P n)) : Decidable (NoWrap intervals) :=
  inferInstanceAs (Decidable (Along _ _ _ _))

theorem noWrap_concat {intervals : List (Interval P n)} {last : Interval P n}
    (h : NoWrap (intervals ++ [last])) : NoWrap intervals ∧
      Along KernelEvent.step KernelEvent.Fits (mapOf intervals) last.events := by
  unfold NoWrap at h
  rw [List.flatMap_append, List.flatMap_singleton] at h
  exact along_append.mp h

/-- What is accounted to a flow in a run. -/
def accountedIn (intervals : List (Interval P n)) (key : ChannelKey) (f : FlowField) : ℤ :=
  accounted ∅ (intervals.flatMap Interval.events) key f

theorem accountedIn_concat (intervals : List (Interval P n)) (last : Interval P n)
    (key : ChannelKey) (f : FlowField) : accountedIn (intervals ++ [last]) key f =
      accountedIn intervals key f + accounted (mapOf intervals) last.events key f := by
  unfold accountedIn
  rw [List.flatMap_append, List.flatMap_singleton, accounted_append]
  rfl

/-- What the rows of all checkpoints report of a flow. -/
def reportedIn (outs : List (List FlowEmission)) (key : ChannelKey) (f : FlowField) : ℤ :=
  (outs.map fun out => reported out key f).sum

theorem reportedIn_concat (outs : List (List FlowEmission)) (out : List FlowEmission)
    (key : ChannelKey) (f : FlowField) :
    reportedIn (outs ++ [out]) key f = reportedIn outs key f + reported out key f := by
  unfold reportedIn
  rw [List.map_append, List.sum_append, List.map_singleton, List.sum_singleton]

/-- The rows of a checkpoint report no more than what was accounted since the
checkpoint before, and all of it for a flow that was listed there and stayed. -/
structure ReportsTraffic (intervals : List (Interval P n)) (last : Interval P n)
    (outs : List (List FlowEmission)) (out : List FlowEmission) : Prop where
  le : ∀ key f, reported out key f ≤ accounted (mapOf intervals) last.events key f
  eq_of_kept : ∀ key f, intervals ≠ [] → key ∈ mapOf intervals → .evict key ∉ last.events →
    reported out key f = accounted (mapOf intervals) last.events key f
  total_le : ∀ key f, reportedIn (outs ++ [out]) key f ≤ accountedIn (intervals ++ [last]) key f

theorem reportedIn_le {intervals : List (Interval P n)} {c₀ : ChannelCollector}
    (hfresh : c₀.Fresh) (hfilter : c₀.sampleFilter = {}) (hwrap : NoWrap intervals)
    {outs : List (List FlowEmission)} {s : FlowMap n × ChannelCollector}
    (h : completedRun Interval.step intervals (∅, c₀) = some (outs, s)) (key : ChannelKey)
    (f : FlowField) : reportedIn outs key f ≤ accountedIn intervals key f := by
  induction intervals using List.reverseRecOn generalizing outs s with
  | nil =>
    cases h
    exact le_rfl
  | append_singleton intervals last ih =>
    obtain ⟨outs', out, s', rfl, hrun, hreported⟩ := completedRun_reported hfresh hfilter h
    obtain ⟨hbefore, hlast⟩ := noWrap_concat hwrap
    have hsum := ih hbefore hrun
    have hle : reported out key f ≤ accounted (mapOf intervals) last.events key f := by
      rw [hreported key f]
      split_ifs
      · exact accounted_nonneg _ _ key f
      · exact gain_le_accounted hlast key f
    rw [reportedIn_concat, accountedIn_concat]
    omega

theorem run_reportsTraffic {intervals : List (Interval P n)} {last : Interval P n}
    {c₀ : ChannelCollector} (hfresh : c₀.Fresh) (hfilter : c₀.sampleFilter = {})
    (hwrap : NoWrap (intervals ++ [last])) {outs : List (List FlowEmission)}
    {out : List FlowEmission} {s : FlowMap n × ChannelCollector}
    (h : completedRun Interval.step (intervals ++ [last]) (∅, c₀) = some (outs ++ [out], s)) :
    ReportsTraffic intervals last outs out := by
  obtain ⟨outs', out', s', heq, hrun, hreported⟩ := completedRun_reported hfresh hfilter h
  obtain ⟨rfl, hout⟩ := List.append_inj' heq rfl
  cases hout
  obtain ⟨hbefore, hlast⟩ := noWrap_concat hwrap
  refine ⟨fun key f => ?_, fun key f hne hkey hevict => ?_, fun key f => ?_⟩
  · rw [hreported key f]
    split_ifs
    · exact accounted_nonneg _ _ key f
    · exact gain_le_accounted hlast key f
  · rw [hreported key f, if_neg hne]
    exact gain_eq_accounted hlast hkey hevict f
  · exact reportedIn_le hfresh hfilter hwrap h key f

/-- What the channel collectors report is bounded by what their hooks accounted. -/
theorem channel_rows_report_traffic :
    (∀ (n : ℕ) (intervals : List (Interval tcpProgram n)) (last : Interval tcpProgram n)
      (c₀ : ChannelCollector) (outs : List (List FlowEmission)) (out : List FlowEmission)
      (s : FlowMap n × ChannelCollector), c₀.Fresh → c₀.sampleFilter = {} →
      NoWrap (intervals ++ [last]) →
      completedRun Interval.step (intervals ++ [last]) (∅, c₀) = some (outs ++ [out], s) →
      ReportsTraffic intervals last outs out) ∧
    (∀ (n : ℕ) (intervals : List (Interval udpProgram n)) (last : Interval udpProgram n)
      (c₀ : ChannelCollector) (outs : List (List FlowEmission)) (out : List FlowEmission)
      (s : FlowMap n × ChannelCollector), c₀.Fresh → c₀.sampleFilter = {} →
      NoWrap (intervals ++ [last]) →
      completedRun Interval.step (intervals ++ [last]) (∅, c₀) = some (outs ++ [out], s) →
      ReportsTraffic intervals last outs out) :=
  ⟨fun _ _ _ _ _ _ _ hfresh hfilter hwrap h => run_reportsTraffic hfresh hfilter hwrap h,
    fun _ _ _ _ _ _ _ hfresh hfilter hwrap h => run_reportsTraffic hfresh hfilter hwrap h⟩

/-! A socket of a service that connects, sends and receives on two CPUs. -/

def serviceSock : Sock where
  cookie := 7
  family := afInet
  rcvSaddr := 0x0A00000A
  daddr := 0x0A7100CB
  num := 40000
  dport := 0xBB01
  boundDevIf := 0

def serviceContext (cpu : Fin 2) (nowNs : BitVec 64) : HookContext 2 where
  cpu := cpu
  nowNs := nowNs
  pidTgid := 4242#64 <<< 32
  cgroupId := 77

def serviceKey : ChannelKey := flowKeyOf serviceSock 6 77

def serviceInterval (P : ChannelProgram) (nowNs : ℤ) (events : List (KernelEvent P 2)) :
    Interval P 2 where
  events := events
  listing := id
  listing_perm _ := .refl _
  poll := none
  stderr := {}
  nowNs := nowNs
  unitForPid _ := .ok "a.service".toList
  ifIndexToName _ := .error .osError

def connectInterval : Interval tcpProgram 2 :=
  serviceInterval tcpProgram 2000000000
    [.hook (serviceContext 0 1) (TcpCall.connectExit (some serviceSock) 0),
      .hook (serviceContext 0 2) (TcpCall.sendmsgExit (some serviceSock) 100)]

def receiveInterval : Interval tcpProgram 2 :=
  serviceInterval tcpProgram 3000000000
    [.hook (serviceContext 1 3) (TcpCall.recvmsgExit (some serviceSock) 0 500)]

def datagramInterval (nowNs : ℤ) (cpu : Fin 2) : Interval udpProgram 2 :=
  serviceInterval udpProgram nowNs
    [.hook (serviceContext cpu 1) (UdpCall.recvmsgExit (some serviceSock) 0 1316)]

theorem channel_rows_report_traffic_service :
    (∃ outs out s, completedRun Interval.step ([connectInterval] ++ [receiveInterval])
        (∅, freshChannel) = some (outs ++ [out], s) ∧
      ReportsTraffic [connectInterval] receiveInterval outs out ∧
      reported out serviceKey .rxBytes = 500) ∧
    (∃ outs out s, completedRun Interval.step
        ([datagramInterval 2000000000 0] ++ [datagramInterval 3000000000 1]) (∅, freshChannel) =
          some (outs ++ [out], s) ∧
      ReportsTraffic [datagramInterval 2000000000 0] (datagramInterval 3000000000 1) outs out) := by
  refine ⟨?_, ?_⟩
  · have hsome : (completedRun Interval.step ([connectInterval] ++ [receiveInterval])
        (∅, freshChannel)).isSome = true := by decide +kernel
    obtain ⟨⟨all, s⟩, hrun⟩ := Option.isSome_iff_exists.mp hsome
    obtain ⟨outs, s', out, -, -, rfl⟩ := completedRun_concat hrun
    have hreports := channel_rows_report_traffic.1 2 [connectInterval] receiveInterval freshChannel
      outs out s ⟨rfl, rfl⟩ rfl (by decide +kernel) hrun
    refine ⟨outs, out, s, hrun, hreports, ?_⟩
    rw [hreports.eq_of_kept serviceKey .rxBytes (List.cons_ne_nil _ _) (by decide +kernel)]
    · decide +kernel
    · rintro (_ | ⟨_, _ | _⟩)
  · have hsome : (completedRun Interval.step
        ([datagramInterval 2000000000 0] ++ [datagramInterval 3000000000 1])
        (∅, freshChannel)).isSome = true := by decide +kernel
    obtain ⟨⟨all, s⟩, hrun⟩ := Option.isSome_iff_exists.mp hsome
    obtain ⟨outs, s', out, -, -, rfl⟩ := completedRun_concat hrun
    exact ⟨outs, out, s, hrun, channel_rows_report_traffic.2 2 [datagramInterval 2000000000 0]
      (datagramInterval 3000000000 1) freshChannel outs out s ⟨rfl, rfl⟩ rfl (by decide +kernel) hrun⟩

end UdpAnalyzer

import UdpAnalyzer.Channel.EndToEnd

/-! Dumps that list a flow more than once. A dump is a walk from key to key that starts over
when the map has evicted the key it stands at, so it lists flows while the hooks run on, some
of them again, each time with the counters of the moment. The collector adds up what a dump
lists of a flow. What was accounted to each flow so far is carried along, so that every
listing knows it. -/

namespace UdpAnalyzer

open Snapshot

variable {P : ChannelProgram} {n : ℕ}

/-! ### Listings -/

/-- The kernel goes on, or the walk of a dump comes to a key. -/
inductive WalkStep (P : ChannelProgram) (n : ℕ) where
  | kernel (ev : KernelEvent P n)
  | visit (key : ChannelKey)

/-- The map, and what was accounted to each flow so far. -/
structure Metered (n : ℕ) where
  map : FlowMap n := ∅
  accounted : ChannelKey → FlowField → ℤ := fun _ _ => 0

/-- A flow as a dump lists it, and what was accounted to it by then. -/
structure FlowListing (n : ℕ) where
  key : ChannelKey
  slots : Fin n → ChannelValue
  accounted : FlowField → ℤ

namespace Metered

def step (s : Metered n) (ev : KernelEvent P n) : Metered n where
  map := ev.step s.map
  accounted key f := s.accounted key f + posted (ev.postings s.map) key f

/-- What evictions and wraps have taken from a counter. -/
def lost (s : Metered n) (key : ChannelKey) (f : FlowField) : ℤ :=
  s.accounted key f - s.map.counts.level key f

end Metered

namespace FlowListing

def level (l : FlowListing n) (f : FlowField) : ℤ := slotsLevel l.slots f

def lost (l : FlowListing n) (f : FlowField) : ℤ := l.accounted f - l.level f

end FlowListing

namespace WalkStep

def step (s : Metered n) : WalkStep P n → Metered n
  | .kernel ev => s.step ev
  | .visit _ => s

/-- A key that is gone by the time the walk comes to it is not listed. -/
def listed (s : Metered n) : WalkStep P n → List (FlowListing n)
  | .kernel _ => []
  | .visit key => (s.map.get? key).toList.map fun slots => ⟨key, slots, s.accounted key⟩

end WalkStep

/-- What a walk lists. -/
def listings : Metered n → List (WalkStep P n) → List (FlowListing n)
  | _, [] => []
  | s, st :: rest => st.listed s ++ listings (st.step s) rest

/-! ### The counters in between -/

/-- An event raises a counter by no more than it accounts, even where the counter wraps. -/
theorem level_step_le (ev : KernelEvent P n) (m : FlowMap n) (key : ChannelKey) (f : FlowField) :
    (ev.step m).counts.level key f ≤ m.counts.level key f + posted (ev.postings m) key f := by
  have hposted : 0 ≤ posted (ev.postings m) key f :=
    posted_nonneg (fun _ hp => KernelEvent.postings_nonneg hp) key f
  have hlevel := m.level_counts_nonneg key f
  cases ev with
  | evict k =>
    show (m.evict k).counts.level key f ≤ _
    rw [counts_evict]
    exact level_post_le hlevel (.drop k) |>.trans (by show _ + 0 ≤ _; omega)
  | hook ctx call =>
    show (P.hook ctx call m).counts.level key f ≤ _
    cases hcharged : P.charged ctx call with
    | none =>
      rw [counts_of_standing (P.hook_uncharged hcharged m)]
      omega
    | some p =>
      obtain ⟨k, charge⟩ := p
      obtain ⟨sk, haccount⟩ := P.hook_charged hcharged
      have hget := get?_accountFlow ctx sk k charge m key
      rw [← haccount m] at hget
      by_cases hkey : key = k
      · subst hkey
        rw [if_pos rfl] at hget
        cases hslots : m.slotsFor ctx key (freshValue ctx sk charge.state) with
        | none =>
          rw [hslots] at hget
          rw [level_of_none (by rw [FlowMap.counts, hget]; rfl)]
          omega
        | some slots =>
          obtain ⟨hadmitted, hslotsLevel⟩ := FlowMap.slotsFor_level hslots
          have hcharge : posted ((KernelEvent.hook ctx call : KernelEvent P n).postings m) key f =
              charge.amount f := by
            unfold KernelEvent.postings
            simp only [hcharged, if_pos hadmitted, posted, List.map_cons, List.map_nil,
              List.sum_cons, List.sum_nil, add_zero, Posting.amountOf_add, if_true]
          have hadd : (((slots ctx.cpu).account (freshValue ctx sk charge.state) charge
              ctx.nowNs).counter f).toNat ≤
                ((slots ctx.cpu).counter f).toNat + (charge.counter f).toNat := by
            have hcounter : ((slots ctx.cpu).account (freshValue ctx sk charge.state) charge
                ctx.nowNs).counter f = (slots ctx.cpu).counter f + charge.counter f := by
              cases f <;> rfl
            rw [hcounter, BitVec.toNat_add]
            exact Nat.mod_le _ _
          rw [hslots] at hget
          rw [level_of_some (by rw [FlowMap.counts, hget]; rfl), slotsLevel_update, hslotsLevel f,
            hcharge, Charge.amount]
          omega
      · rw [if_neg hkey] at hget
        have hsame : (P.hook ctx call m).counts.level key f = m.counts.level key f := by
          unfold Snapshot.level FlowMap.counts
          rw [hget]
        omega

/-- What a meter and what is lost show of a flow. -/
abbrev Reading := (FlowField → ℤ) × (FlowField → ℤ)

def Metered.reading (s : Metered n) (key : ChannelKey) : Reading := (s.accounted key, s.lost key)

def FlowListing.reading (l : FlowListing n) : Reading := (l.accounted, l.lost)

namespace Metered

theorem reading_step_le (s : Metered n) (ev : KernelEvent P n) (key : ChannelKey) :
    s.reading key ≤ (s.step ev).reading key := by
  constructor
  · intro f
    have hposted : 0 ≤ posted (ev.postings s.map) key f :=
      posted_nonneg (fun _ hp => KernelEvent.postings_nonneg hp) key f
    show s.accounted key f ≤ s.accounted key f + _
    omega
  · intro f
    have hlevel := level_step_le ev s.map key f
    show s.accounted key f - _ ≤ s.accounted key f + _ - (ev.step s.map).counts.level key f
    omega

/-- The readings of a flow go up while the kernel goes on. -/
theorem reading_walk_le (s : Metered n) (steps : List (WalkStep P n)) (key : ChannelKey) :
    s.reading key ≤ (steps.foldl WalkStep.step s).reading key := by
  induction steps generalizing s with
  | nil => exact le_rfl
  | cons st rest ih =>
    cases st with
    | visit k => exact ih s
    | kernel ev => exact (s.reading_step_le ev key).trans (ih (s.step ev))

theorem accepts_walkStep {s : Metered n} (h : ∀ key ∈ s.map, P.decoder.Accepts key)
    (st : WalkStep P n) : ∀ key ∈ (st.step s).map, P.decoder.Accepts key := by
  cases st with
  | visit k => exact h
  | kernel ev => exact accepts_step h

end Metered

/-- A flow is listed with what the map holds of it. -/
theorem mem_listed {s : Metered n} {st : WalkStep P n} {l : FlowListing n} (h : l ∈ st.listed s) :
    l.key ∈ s.map ∧ l.reading = s.reading l.key := by
  cases st with
  | kernel ev => cases h
  | visit key =>
    obtain ⟨slots, hslots, rfl⟩ := List.mem_map.mp h
    have hget : s.map.get? key = some slots := Option.mem_toList.mp hslots
    refine ⟨Dict.get?_isSome.mp (by rw [hget]; rfl), ?_⟩
    have hlevel : ∀ f, s.map.counts.level key f = slotsLevel slots f := fun f =>
      level_of_some (by rw [FlowMap.counts, hget]; rfl) f
    exact Prod.ext rfl (funext fun f => by
      show s.accounted key f - _ = s.accounted key f - _
      rw [hlevel]
      rfl)

/-- What is listed, is read between the start and the end of the walk. -/
theorem mem_listings {s : Metered n} {steps : List (WalkStep P n)} {l : FlowListing n}
    (h : l ∈ listings s steps) : s.reading l.key ≤ l.reading ∧
      l.reading ≤ (steps.foldl WalkStep.step s).reading l.key := by
  induction steps generalizing s with
  | nil => cases h
  | cons st rest ih =>
    have hstep := s.reading_walk_le [st] l.key
    rcases List.mem_append.mp h with h | h
    · have hread := (mem_listed h).2
      refine ⟨hread.ge, ?_⟩
      rw [hread]
      exact s.reading_walk_le (st :: rest) l.key
    · obtain ⟨hfrom, hto⟩ := ih h
      exact ⟨hstep.trans hfrom, hto⟩

theorem accepts_listings {s : Metered n} {steps : List (WalkStep P n)}
    (haccepts : ∀ key ∈ s.map, P.decoder.Accepts key) :
    (∀ l ∈ listings s steps, P.decoder.Accepts l.key) ∧
      ∀ key ∈ (steps.foldl WalkStep.step s).map, P.decoder.Accepts key := by
  induction steps generalizing s with
  | nil => exact ⟨fun l h => absurd h List.not_mem_nil, haccepts⟩
  | cons st rest ih =>
    obtain ⟨hlisted, hmap⟩ := ih (Metered.accepts_walkStep haccepts st)
    refine ⟨fun l h => ?_, hmap⟩
    rcases List.mem_append.mp h with h | h
    · exact haccepts l.key (mem_listed h).1
    · exact hlisted l h

/-! ### One dump -/

/-- The entry a flow is printed as. -/
def FlowListing.entry (l : FlowListing n) : ChannelKey × (Fin n → ChannelValue) := (l.key, l.slots)

/-- The listings of a flow, in order. -/
def listingsOf (ls : List (FlowListing n)) (key : ChannelKey) : List (FlowListing n) :=
  ls.filter fun l => l.key = key

/-- What a dump lists of a counter of a flow, all listings together. -/
def listedSum (ls : List (FlowListing n)) (key : ChannelKey) (f : FlowField) : ℤ :=
  ((listingsOf ls key).map fun l => l.level f).sum

/-- What the listings of a flow before its last one add. -/
def repeats (ls : List (FlowListing n)) (key : ChannelKey) (f : FlowField) : ℤ :=
  ((listingsOf ls key).dropLast.map fun l => l.level f).sum

/-- The reading of a flow when it was listed last. -/
def lastReading (ls : List (FlowListing n)) (key : ChannelKey) : Reading :=
  (((listingsOf ls key).getLast?).map FlowListing.reading).getD 0

/-- The increase of the counter of a flow from one dump to the next. -/
def increase (before now : List (FlowListing n)) (key : ChannelKey) (f : FlowField) : ℤ :=
  (lastReading now key).1 f - (lastReading before key).1 f

/-- What evictions and wraps have taken from it in the meantime. -/
def taken (before now : List (FlowListing n)) (key : ChannelKey) (f : FlowField) : ℤ :=
  (lastReading now key).2 f - (lastReading before key).2 f

/-- Of every flow in both dumps the repeated listings add no more than they did before, or
than was taken from the flow. -/
def Harmless (before now : List (FlowListing n)) : Prop :=
  ∀ key f, listingsOf before key ≠ [] → listingsOf now key ≠ [] →
    repeats now key f ≤ repeats before key f + taken before now key f

/-- No row reports more of a flow than its counter has increased by. -/
def Bounded (before now : List (FlowListing n)) (out : List FlowEmission) : Prop :=
  ∀ em ∈ out, ∃ key, em.identity = key.decode.identity ∧ ∀ row ∈ em.rows, ∀ f,
    FlowCounters.field f row.counters ≤ increase before now key f

/-- The sums are the last listing and what the others add to it. -/
theorem listedSum_sub {before now : List (FlowListing n)} {key : ChannelKey}
    (hbefore : listingsOf before key ≠ []) (hnow : listingsOf now key ≠ []) (f : FlowField) :
    listedSum now key f - listedSum before key f =
      increase before now key f - taken before now key f +
        (repeats now key f - repeats before key f) := by
  have hsum : ∀ {ls : List (FlowListing n)}, listingsOf ls key ≠ [] → listedSum ls key f =
      repeats ls key f + ((lastReading ls key).1 f - (lastReading ls key).2 f) := by
    intro ls hne
    have hlast : lastReading ls key = ((listingsOf ls key).getLast hne).reading := by
      rw [lastReading, List.getLast?_eq_some_getLast hne]
      rfl
    have hlevel : ∀ l : FlowListing n, l.level f = l.reading.1 f - l.reading.2 f := by
      intro l
      show _ = l.accounted f - (l.accounted f - l.level f)
      omega
    rw [hlast, ← hlevel, repeats, listedSum]
    conv_lhs => rw [← List.dropLast_concat_getLast hne]
    rw [List.map_append, List.sum_append, List.map_singleton, List.sum_singleton]
  rw [hsum hbefore, hsum hnow]
  unfold increase taken
  omega

/-- The snapshot of a dump is what it lists. -/
theorem snapshot_listings (ls : List (FlowListing n)) (key : ChannelKey) :
    flowLoop.snapshot (ls.map fun l => decodedEntry l.entry) key.decode.identity =
      if listingsOf ls key = [] then none else some (listedSum ls key) := by
  have hentries : flowLoop.entriesOf (ls.map fun l => decodedEntry l.entry) key.decode.identity =
      (listingsOf ls key).map fun l => decodedEntry l.entry := by
    have hsame : (fun e : FlowEntry => decide (e.key.identity = key.decode.identity)) ∘
        (fun l : FlowListing n => decodedEntry l.entry) = fun l => decide (l.key = key) := by
      funext l
      exact decide_eq_decide.mpr identity_decode_injective.eq_iff
    show ((ls.map fun l => decodedEntry l.entry).filter
      fun e => e.key.identity = key.decode.identity) = _
    rw [List.filter_map, hsame]
    rfl
  by_cases hnil : listingsOf ls key = []
  · rw [if_pos hnil]
    rw [hnil] at hentries
    exact flowLoop.snapshot_of_nil hentries
  · have hne : flowLoop.entriesOf (ls.map fun l => decodedEntry l.entry) key.decode.identity ≠ [] := by
      rw [hentries]
      exact fun h => hnil (List.map_eq_nil_iff.mp h)
    rw [if_neg hnil, flowLoop.snapshot_of_ne_nil hne]
    refine congrArg some (funext fun f => ?_)
    rw [CounterLoop.total, hentries, List.map_map, listedSum]
    congr 1
    apply List.map_congr_left
    intro l _
    exact field_mergedValue l.slots f

/-! ### Runs -/

/-- What happens up to the end of a dump, and what the checkpoint meets outside. -/
structure WalkedInterval (P : ChannelProgram) (n : ℕ) where
  steps : List (WalkStep P n)
  poll : Option ℤ
  stderr : LoaderStderr
  nowNs : ℤ
  unitForPid : ℤ → Except PyExc Str
  ifIndexToName : ℤ → Except PyExc Str

/-- The kernel, what the dump before has listed, and the collector. -/
structure WalkedSystem (n : ℕ) where
  kernel : Metered n := {}
  before : List (FlowListing n) := []
  collector : ChannelCollector

namespace WalkedInterval

/-- The checkpoint of what a walk lists. -/
def input (i : WalkedInterval P n) (ls : List (FlowListing n)) : ChannelInput where
  poll := i.poll
  stderr := i.stderr
  nowNs := i.nowNs
  dump := P.decoder.dumpEntries (.ok (.arr ((ls.map FlowListing.entry).map bpftoolEntry)))
  unitForPid := i.unitForPid
  ifIndexToName := i.ifIndexToName

def step (s : WalkedSystem n) (i : WalkedInterval P n) :
    Except PyExc (List FlowEmission) × WalkedSystem n :=
  let now := listings s.kernel i.steps
  match s.collector.readCheckpoint P.kind (i.input now) with
  | (r, c) => (r, ⟨i.steps.foldl WalkStep.step s.kernel, now, c⟩)

end WalkedInterval

/-- What holds of a system after every completed run. -/
structure WalkedSystem.Inv (P : ChannelProgram) (f : ChannelSampleFilter) (s : WalkedSystem n) :
    Prop where
  accepts : ∀ key ∈ s.kernel.map, P.decoder.Accepts key
  listed : ∀ l ∈ s.before, l.reading ≤ s.kernel.reading l.key
  baselines : s.collector.baselines = fun key =>
    if listingsOf s.before key = [] then none else some (listedSum s.before key)
  sampleFilter : s.collector.sampleFilter = f

/-- One checkpoint: what the collector emits, and the invariant again. -/
theorem WalkedInterval.step_spec {f : ChannelSampleFilter} {s s' : WalkedSystem n}
    {i : WalkedInterval P n} {out : List FlowEmission} (hinv : s.Inv P f)
    (h : i.step s = (.ok out, s')) :
    s'.Inv P f ∧ s'.before = listings s.kernel i.steps ∧
      flowLoop.Completed (fun _ d b rows => b.counters = d ∧ rows = [b].filter f.matchesSample)
        (flowLoop.view s.collector.previous) (s'.before.map fun l => decodedEntry l.entry)
        s'.collector.previous out := by
  obtain ⟨hlisted, hmap⟩ := @accepts_listings P n s.kernel i.steps hinv.accepts
  simp only [step] at h
  rcases hread : s.collector.readCheckpoint P.kind (i.input (listings s.kernel i.steps)) with ⟨r, c⟩
  rw [hread] at h
  cases h
  have hdump : listed (i.input (listings s.kernel i.steps)).dump =
      (listings s.kernel i.steps).map fun l => decodedEntry l.entry := by
    have hlayout : (i.input (listings s.kernel i.steps)).dump =
        .ok (((listings s.kernel i.steps).map FlowListing.entry).map decodedEntry) := by
      apply FlowDecoder.dumpEntries_layout
      intro e he
      obtain ⟨l, hl, rfl⟩ := List.mem_map.mp he
      exact hlisted l hl
    rw [hlayout, List.map_map]
    rfl
  obtain ⟨hdone, hc⟩ := ChannelCollector.readFlows_spec (ChannelCollector.emitFlow_rows _ _ _ _ _)
    trivial (ChannelCollector.readCheckpoint_spec hread)
  rw [hdump] at hdone
  dsimp only at hdone
  rw [hinv.sampleFilter] at hdone
  refine ⟨⟨hmap, fun l hl => (mem_listings hl).2, ?_, ?_⟩, rfl, hdone⟩
  · funext key
    show flowLoop.view c.previous key.decode.identity = _
    rw [hdone.baseline, snapshot_listings]
  · rw [hc]
    exact hinv.sampleFilter

theorem WalkedSystem.inv_start {c₀ : ChannelCollector} (hfresh : c₀.Fresh) :
    ({ collector := c₀ } : WalkedSystem n).Inv P c₀.sampleFilter where
  accepts _ h := absurd h List.not_mem_nil
  listed _ h := absurd h List.not_mem_nil
  baselines := by
    funext key
    rw [ChannelCollector.baselines, hfresh.previous]
    rfl
  sampleFilter := rfl

theorem WalkedSystem.inv_run {f : ChannelSampleFilter} {intervals : List (WalkedInterval P n)} :
    ∀ {s s' : WalkedSystem n} {outs : List (List FlowEmission)}, s.Inv P f →
      completedRun WalkedInterval.step intervals s = some (outs, s') → s'.Inv P f := by
  induction intervals with
  | nil =>
    intro s s' outs hinv h
    cases h
    exact hinv
  | cons i rest ih =>
    intro s s' outs hinv h
    rw [completedRun] at h
    rcases hstep : i.step s with ⟨_ | out, s₁⟩
    · rw [hstep] at h
      cases h
    · rw [hstep] at h
      obtain ⟨⟨outs', s₂⟩, hrun, he⟩ := Option.map_eq_some_iff.mp h
      cases he
      exact ih (WalkedInterval.step_spec hinv hstep).1 hrun

/-! ### What a checkpoint reports -/

theorem exists_lastReading {ls : List (FlowListing n)} {key : ChannelKey}
    (h : listingsOf ls key ≠ []) : ∃ l ∈ ls, l.key = key ∧ lastReading ls key = l.reading := by
  have hmem := List.getLast_mem h
  obtain ⟨hl, hkey⟩ := List.mem_filter.mp hmem
  refine ⟨_, hl, of_decide_eq_true hkey, ?_⟩
  rw [lastReading, List.getLast?_eq_some_getLast h]
  rfl

section Checkpoint
variable {f : ChannelSampleFilter} {s s' : WalkedSystem n} {i : WalkedInterval P n}
  {out : List FlowEmission} (hinv : s.Inv P f) (h : i.step s = (.ok out, s'))

include hinv h

/-- A flow is read later in the next dump. -/
theorem lastReading_le {key : ChannelKey} (hbefore : listingsOf s.before key ≠ [])
    (hnow : listingsOf s'.before key ≠ []) :
    lastReading s.before key ≤ lastReading s'.before key := by
  obtain ⟨l, hl, hkey, hlast⟩ := exists_lastReading hbefore
  obtain ⟨l', hl', hkey', hlast'⟩ := exists_lastReading hnow
  rw [(WalkedInterval.step_spec hinv h).2.1] at hl'
  have hfrom := hinv.listed l hl
  have hto := (mem_listings hl').1
  rw [hkey] at hfrom
  rw [hkey'] at hto
  rw [hlast, hlast']
  exact hfrom.trans hto

omit h in
/-- What is reported of a flow in both dumps is the difference of the sums. -/
theorem gain_listings {key : ChannelKey} (hbefore : listingsOf s.before key ≠ [])
    (hnow : listingsOf s'.before key ≠ []) (g : FlowField) :
    gain (flowLoop.view s.collector.previous)
      (flowLoop.snapshot (s'.before.map fun l => decodedEntry l.entry)) key.decode.identity g =
        max (listedSum s'.before key g - listedSum s.before key g) 0 := by
  have hold : flowLoop.view s.collector.previous key.decode.identity =
      some (listedSum s.before key) := by
    have hkey := congrFun hinv.baselines key
    rw [if_neg hbefore] at hkey
    exact hkey
  have hnew : flowLoop.snapshot (s'.before.map fun l => decodedEntry l.entry) key.decode.identity =
      some (listedSum s'.before key) := by
    rw [snapshot_listings, if_neg hnow]
  exact gain_of_some hold hnew g

/-- It is within the increase exactly when the repeats are harmless. -/
theorem gain_le_increase_iff {key : ChannelKey} (hbefore : listingsOf s.before key ≠ [])
    (hnow : listingsOf s'.before key ≠ []) (g : FlowField) :
    max (listedSum s'.before key g - listedSum s.before key g) 0 ≤
        increase s.before s'.before key g ↔
      repeats s'.before key g ≤ repeats s.before key g + taken s.before s'.before key g := by
  have hincrease : 0 ≤ increase s.before s'.before key g :=
    sub_nonneg.mpr ((lastReading_le hinv h hbefore hnow).1 g)
  rw [max_le_iff, and_iff_left hincrease, listedSum_sub hbefore hnow]
  omega

/-- A row is of a flow in both dumps. -/
theorem listed_of_mem {em : FlowEmission} (hem : em ∈ out) :
    ∃ key, em.identity = key.decode.identity ∧ listingsOf s.before key ≠ [] ∧
      listingsOf s'.before key ≠ [] := by
  obtain ⟨-, -, hdone⟩ := WalkedInterval.step_spec hinv h
  obtain ⟨e, d, he, hid, -, -⟩ := hdone.built em hem
  obtain ⟨l, hl, rfl⟩ := List.mem_map.mp he
  refine ⟨l.key, hid.symm, ?_, ?_⟩
  · obtain ⟨a, -, ha, -⟩ := (hdone.mem_iff em.identity).mp ⟨em, hem, rfl⟩
    intro hnil
    have hkey := congrFun hinv.baselines l.key
    rw [if_pos hnil] at hkey
    rw [← hid] at ha
    exact absurd (hkey.symm.trans ha) (Option.some_ne_none a).symm
  · exact List.ne_nil_of_mem (List.mem_filter.mpr ⟨hl, decide_eq_true rfl⟩)

/-- Harmless repeats are not reported. -/
theorem bounded_of_harmless (hharmless : Harmless s.before s'.before) :
    Bounded s.before s'.before out := by
  intro em hem
  obtain ⟨key, hid, hbefore, hnow⟩ := listed_of_mem hinv h hem
  refine ⟨key, hid, fun row hrow g => ?_⟩
  obtain ⟨-, -, hdone⟩ := WalkedInterval.step_spec hinv h
  obtain ⟨e, d, -, -, hgain, hcounters, hrows⟩ := hdone.built em hem
  rw [hrows] at hrow
  rw [List.mem_singleton.mp (List.mem_filter.mp hrow).1, hcounters]
  show flowLoop.field g d ≤ _
  rw [hgain g, hid, gain_listings hinv hbefore hnow]
  exact (gain_le_increase_iff hinv h hbefore hnow g).mpr (hharmless key g hbefore hnow)

/-- Without a filter the others are. -/
theorem harmless_of_bounded (hf : f = {}) (hbounded : Bounded s.before s'.before out) :
    Harmless s.before s'.before := by
  intro key g hbefore hnow
  rw [← gain_le_increase_iff hinv h hbefore hnow]
  obtain ⟨-, -, hdone⟩ := WalkedInterval.step_spec hinv h
  have hgain := gain_listings hinv hbefore hnow
  by_cases hmoved : Moved (flowLoop.view s.collector.previous)
      (flowLoop.snapshot (s'.before.map fun l => decodedEntry l.entry)) key.decode.identity
  · obtain ⟨em, hem, hid⟩ := (hdone.mem_iff _).mpr hmoved
    obtain ⟨key', hid', hrows⟩ := hbounded em hem
    obtain rfl : key = key' := identity_decode_injective (hid.symm.trans hid')
    obtain ⟨e, d, -, -, hfield, hcounters, hbuilt⟩ := hdone.built em hem
    have hrow : em.built ∈ em.rows := by
      rw [hbuilt, hf, List.filter_singleton, ChannelSampleFilter.matchesSample_empty]
      exact List.mem_singleton_self _
    have hle := hrows em.built hrow g
    have hreport : FlowCounters.field g em.built.counters =
        max (listedSum s'.before key g - listedSum s.before key g) 0 := by
      rw [hcounters, ← hgain g, ← hid]
      exact hfield g
    rwa [hreport] at hle
  · have hzero := gain_eq_zero_of_not_moved hmoved g
    rw [hgain g] at hzero
    rw [hzero]
    exact sub_nonneg.mpr ((lastReading_le hinv h hbefore hnow).1 g)

/-- A dump that lists every flow once has only harmless repeats. -/
theorem harmless_of_once (honce : (s'.before.map FlowListing.key).Nodup) :
    Harmless s.before s'.before := by
  intro key g hbefore hnow
  have hnone : repeats s'.before key g = 0 := by
    have hlength : (listingsOf s'.before key).length ≤ 1 := by
      have hcount := List.nodup_iff_count_le_one.mp honce key
      rwa [List.count, List.countP_map, List.countP_eq_length_filter] at hcount
    have hdrop : (listingsOf s'.before key).dropLast = [] := by
      rw [← List.length_eq_zero_iff, List.length_dropLast]
      omega
    rw [repeats, hdrop]
    rfl
  have hsome : 0 ≤ repeats s.before key g := by
    apply List.sum_nonneg
    intro x hx
    obtain ⟨l, -, rfl⟩ := List.mem_map.mp hx
    exact slotsLevel_nonneg l.slots g
  have htaken : 0 ≤ taken s.before s'.before key g :=
    sub_nonneg.mpr ((lastReading_le hinv h hbefore hnow).2 g)
  omega

end Checkpoint

/-- What a channel collector reports is bounded by the increase of the counters exactly when
the repeats of its dumps are harmless. -/
def RepeatsLaw (f : ChannelSampleFilter) (before now : List (FlowListing n))
    (out : List FlowEmission) : Prop :=
  (Harmless before now → Bounded before now out) ∧
    (f = {} → Bounded before now out → Harmless before now) ∧
    ((now.map FlowListing.key).Nodup → Harmless before now)

theorem repeatsLaw_of_run {c₀ : ChannelCollector} {intervals : List (WalkedInterval P n)}
    {outs : List (List FlowEmission)} {s : WalkedSystem n} (hfresh : c₀.Fresh)
    (hrun : completedRun WalkedInterval.step intervals { collector := c₀ } = some (outs, s))
    {last : WalkedInterval P n} {out : List FlowEmission} {s' : WalkedSystem n}
    (h : last.step s = (.ok out, s')) : RepeatsLaw c₀.sampleFilter s.before s'.before out := by
  have hinv := WalkedSystem.inv_run (WalkedSystem.inv_start hfresh) hrun
  exact ⟨bounded_of_harmless hinv h, harmless_of_bounded hinv h, harmless_of_once hinv h⟩

/-- Both channel collectors obey the law at every checkpoint of every completed run. -/
theorem repeated_listings_bounded_iff (n : ℕ) (c₀ : ChannelCollector) (hfresh : c₀.Fresh) :
    (∀ (intervals : List (WalkedInterval tcpProgram n)) (outs : List (List FlowEmission))
      (s : WalkedSystem n) (last : WalkedInterval tcpProgram n) (out : List FlowEmission)
      (s' : WalkedSystem n),
      completedRun WalkedInterval.step intervals { collector := c₀ } = some (outs, s) →
      last.step s = (.ok out, s') → RepeatsLaw c₀.sampleFilter s.before s'.before out) ∧
    (∀ (intervals : List (WalkedInterval udpProgram n)) (outs : List (List FlowEmission))
      (s : WalkedSystem n) (last : WalkedInterval udpProgram n) (out : List FlowEmission)
      (s' : WalkedSystem n),
      completedRun WalkedInterval.step intervals { collector := c₀ } = some (outs, s) →
      last.step s = (.ok out, s') → RepeatsLaw c₀.sampleFilter s.before s'.before out) :=
  ⟨fun _ _ _ _ _ _ hrun h => repeatsLaw_of_run hfresh hrun h,
    fun _ _ _ _ _ _ hrun h => repeatsLaw_of_run hfresh hrun h⟩

/-! A flow that receives once, next to one that the map evicts while the second dump stands at
it; the walk starts over. -/

def evictedSock : Sock := { serviceSock with cookie := 8 }

def evictedKey : ChannelKey := flowKeyOf evictedSock 6 77

def walkedInterval (P : ChannelProgram) (nowNs : ℤ) (steps : List (WalkStep P 2)) :
    WalkedInterval P 2 where
  steps := steps
  poll := none
  stderr := {}
  nowNs := nowNs
  unitForPid _ := .ok "a.service".toList
  ifIndexToName _ := .error .osError

def seededWalk : WalkedInterval tcpProgram 2 :=
  walkedInterval tcpProgram 2000000000
    [.kernel (.hook (serviceContext 0 1) (TcpCall.recvmsgExit (some serviceSock) 0 500)),
      .kernel (.hook (serviceContext 1 2) (TcpCall.recvmsgExit (some evictedSock) 0 10)),
      .visit serviceKey, .visit evictedKey]

def restartedWalk : WalkedInterval tcpProgram 2 :=
  walkedInterval tcpProgram 3000000000
    [.visit serviceKey, .visit evictedKey, .kernel (.evict evictedKey), .visit serviceKey]

def undisturbedWalk : WalkedInterval tcpProgram 2 :=
  walkedInterval tcpProgram 3000000000
    [.kernel (.hook (serviceContext 1 3) (TcpCall.recvmsgExit (some serviceSock) 0 200)),
      .visit serviceKey, .visit evictedKey]

def datagramWalk (nowNs : ℤ) : WalkedInterval udpProgram 2 :=
  walkedInterval udpProgram nowNs
    [.kernel (.hook (serviceContext 0 1) (UdpCall.recvmsgExit (some serviceSock) 0 1316)),
      .visit (flowKeyOf serviceSock 17 77)]

/-- The system after the first dump of the two flows. -/
def seededSystem : WalkedSystem 2 := (seededWalk.step { collector := freshChannel }).2

/-- The system after the first dump of the datagrams. -/
def datagramSystem : WalkedSystem 2 :=
  ((datagramWalk 2000000000).step { collector := freshChannel }).2

theorem seededWalk_run : ∃ out, completedRun WalkedInterval.step [seededWalk]
    { collector := freshChannel } = some ([out], seededSystem) := by
  have hreturns : (seededWalk.step { collector := freshChannel }).1.toBool = true := by
    decide +kernel
  obtain ⟨out, -, hrun⟩ := completedRun_singleton hreturns
  exact ⟨out, hrun⟩

theorem datagramWalk_run : ∃ out, completedRun WalkedInterval.step [datagramWalk 2000000000]
    { collector := freshChannel } = some ([out], datagramSystem) := by
  have hreturns : ((datagramWalk 2000000000).step { collector := freshChannel }).1.toBool = true := by
    decide +kernel
  obtain ⟨out, -, hrun⟩ := completedRun_singleton hreturns
  exact ⟨out, hrun⟩

theorem repeated_listings_bounded_iff_service :
    (∃ outs s out s', completedRun WalkedInterval.step [seededWalk] { collector := freshChannel } =
        some (outs, s) ∧ undisturbedWalk.step s = (.ok out, s') ∧ Bounded s.before s'.before out ∧
      increase s.before s'.before serviceKey .rxBytes = 200) ∧
    (∃ outs s out s', completedRun WalkedInterval.step [datagramWalk 2000000000]
        { collector := freshChannel } = some (outs, s) ∧
      (datagramWalk 3000000000).step s = (.ok out, s') ∧ Bounded s.before s'.before out) := by
  obtain ⟨hsecond, hincrease, honce'⟩ : (undisturbedWalk.step seededSystem).1.toBool = true ∧
      increase seededSystem.before (undisturbedWalk.step seededSystem).2.before serviceKey
        .rxBytes = 200 ∧
      ((undisturbedWalk.step seededSystem).2.before.map FlowListing.key).Nodup := by decide +kernel
  obtain ⟨hsecond', honce''⟩ :
      ((datagramWalk 3000000000).step datagramSystem).1.toBool = true ∧
      (((datagramWalk 3000000000).step datagramSystem).2.before.map FlowListing.key).Nodup := by
    decide +kernel
  refine ⟨?_, ?_⟩
  · obtain ⟨_, hrun⟩ := seededWalk_run
    obtain ⟨out, hstep, -⟩ := completedRun_singleton hsecond
    refine ⟨_, _, out, _, hrun, hstep, ?_, hincrease⟩
    obtain ⟨hbounded, -, honce⟩ := (repeated_listings_bounded_iff 2 freshChannel ⟨rfl, rfl⟩).1
      [seededWalk] _ _ undisturbedWalk out _ hrun hstep
    exact hbounded (honce honce')
  · obtain ⟨_, hrun⟩ := datagramWalk_run
    obtain ⟨out, hstep, -⟩ := completedRun_singleton hsecond'
    refine ⟨_, _, out, _, hrun, hstep, ?_⟩
    obtain ⟨hbounded, -, honce⟩ := (repeated_listings_bounded_iff 2 freshChannel ⟨rfl, rfl⟩).2
      [datagramWalk 2000000000] _ _ (datagramWalk 3000000000) out _ hrun hstep
    exact hbounded (honce honce'')

/-- The flow did nothing between the dumps; its row reports all it ever received. -/
theorem evicted_cursor_repeats_flow :
    ∃ outs s out s', completedRun WalkedInterval.step [seededWalk] { collector := freshChannel } =
        some (outs, s) ∧ restartedWalk.step s = (.ok out, s') ∧
      reported out serviceKey .rxBytes = 500 ∧
      increase s.before s'.before serviceKey .rxBytes = 0 ∧ ¬ Bounded s.before s'.before out := by
  obtain ⟨hsecond, hreported, hincrease, hlisted, hlisted', hmore⟩ :
      (restartedWalk.step seededSystem).1.toBool = true ∧
      (restartedWalk.step seededSystem).1.toOption.map
        (fun out => reported out serviceKey .rxBytes) = some 500 ∧
      increase seededSystem.before (restartedWalk.step seededSystem).2.before serviceKey
        .rxBytes = 0 ∧
      listingsOf seededSystem.before serviceKey ≠ [] ∧
      listingsOf (restartedWalk.step seededSystem).2.before serviceKey ≠ [] ∧
      ¬ repeats (restartedWalk.step seededSystem).2.before serviceKey .rxBytes ≤
        repeats seededSystem.before serviceKey .rxBytes +
          taken seededSystem.before (restartedWalk.step seededSystem).2.before serviceKey
            .rxBytes := by
    decide +kernel
  obtain ⟨_, hrun⟩ := seededWalk_run
  obtain ⟨out, hstep, -⟩ := completedRun_singleton hsecond
  refine ⟨_, _, out, _, hrun, hstep, ?_, hincrease, ?_⟩
  · rw [hstep] at hreported
    exact Option.some.inj hreported
  · intro hbounded
    have hharmless := harmless_of_bounded
      (WalkedSystem.inv_run (WalkedSystem.inv_start ⟨rfl, rfl⟩) hrun) hstep rfl hbounded
    exact hmore (hharmless serviceKey .rxBytes hlisted hlisted')

end UdpAnalyzer

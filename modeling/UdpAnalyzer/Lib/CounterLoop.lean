import Mathlib.Algebra.BigOperators.Group.List.Basic
import Mathlib.Algebra.Order.Ring.Int
import Mathlib.Data.List.Forall2
import Mathlib.Data.List.Induction
import UdpAnalyzer.Lib.Dict

/-! Turning snapshots of cumulative counters into increments. A loop reads a
dump of entries, sums the entries of one identity, forgets the identities that
are gone, and compares every sum with the one of the dump before. An identity
seen for the first time only seeds the baseline.

The abstract side of the module is a snapshot, a partial map from identities to
vectors of counters, and the increments between two snapshots. The loop itself
may fail in the middle, because what is done with an increment may fail; the
baselines stored up to there stay stored. `readDump_spec` connects the two: a
loop that completes leaves exactly the snapshot of its dump as the baseline and
has met exactly the increments from the old snapshot. -/

namespace UdpAnalyzer

/-- The counters of an identity, or nothing when the dump does not list it. -/
abbrev Snapshot (I F : Type*) := I → Option (F → ℤ)

namespace Snapshot

variable {I F : Type*}

/-- The identity is in both snapshots and one of its counters went up. -/
def Moved (s s' : Snapshot I F) (i : I) : Prop :=
  ∃ a b, s i = some a ∧ s' i = some b ∧ ∃ f, a f < b f

/-- The increment of one counter, never negative; zero for an identity that is
missing on either side. -/
def gain (s s' : Snapshot I F) (i : I) (f : F) : ℤ :=
  match s i, s' i with
  | some a, some b => max (b f - a f) 0
  | _, _ => 0

theorem gain_of_some {s s' : Snapshot I F} {i : I} {a b : F → ℤ} (h : s i = some a)
    (h' : s' i = some b) (f : F) : gain s s' i f = max (b f - a f) 0 := by
  simp only [gain, h, h']

theorem gain_of_none {s s' : Snapshot I F} {i : I} (h : s i = none) (f : F) :
    gain s s' i f = 0 := by
  simp only [gain, h]

theorem gain_of_none' {s s' : Snapshot I F} {i : I} (h : s' i = none) (f : F) :
    gain s s' i f = 0 := by
  unfold gain
  rw [h]
  cases s i <;> rfl

theorem gain_nonneg (s s' : Snapshot I F) (i : I) (f : F) : 0 ≤ gain s s' i f := by
  unfold gain
  split
  · exact le_max_right _ _
  · exact le_refl 0

theorem gain_congr {J : Type*} {s s' : Snapshot I F} {t t' : Snapshot J F} {i : I} {j : J}
    (h : s i = t j) (h' : s' i = t' j) (f : F) : gain s s' i f = gain t t' j f := by
  unfold gain
  rw [h, h']

/-- An identity that did not move gained nothing. -/
theorem gain_eq_zero_of_not_moved {s s' : Snapshot I F} {i : I} (h : ¬ Moved s s' i) (f : F) :
    gain s s' i f = 0 := by
  unfold gain
  split
  next a b ha hb =>
    have hle : b f ≤ a f := by
      by_contra hlt
      exact h ⟨a, b, ha, hb, f, not_le.mp hlt⟩
    exact max_eq_right (by omega)
  next => rfl

/-- An identity moves when it gains something. -/
theorem moved_iff_gain {s s' : Snapshot I F} {i : I} : Moved s s' i ↔ ∃ f, 0 < gain s s' i f := by
  constructor
  · rintro ⟨a, b, ha, hb, f, hlt⟩
    refine ⟨f, ?_⟩
    rw [gain_of_some ha hb]
    exact lt_max_of_lt_left (by omega)
  · rintro ⟨f, hpos⟩
    by_contra hstill
    rw [gain_eq_zero_of_not_moved hstill] at hpos
    exact lt_irrefl 0 hpos

end Snapshot

/-- How a loop reads entries `E` of identities `I` with counters `C`. The fields
`F` name the counters that make up a value of `C`. -/
structure CounterLoop (E I C F : Type*) where
  identity : E → I
  counters : E → C
  zero : C
  add : C → C → C
  /-- The clamped difference of the new and the old value. -/
  delta : C → C → C
  /-- The test that lets an increment through. -/
  moved : C → C → Bool
  field : F → C → ℤ
  field_zero : ∀ f, field f zero = 0
  field_add : ∀ f a b, field f (add a b) = field f a + field f b
  field_delta : ∀ f c p, field f (delta c p) = max (field f c - field f p) 0
  moved_iff : ∀ c p, moved c p = true ↔ ∃ f, field f p < field f c

/-- The first entry of an identity and the sum over all of them. -/
structure Tally (E C : Type*) where
  first : E
  total : C

/-- What came of one increment: the sample built from it and the rows that
sample turned into. -/
structure Emission (I B R : Type*) where
  identity : I
  built : B
  rows : List R

namespace CounterLoop

variable {E I C F B R σ ε : Type*} [DecidableEq I] (L : CounterLoop E I C F)

/-! ### Summing a dump -/

def tallyEntry (totals : Dict I (Tally E C)) (e : E) : Dict I (Tally E C) :=
  totals.set (L.identity e) <|
    match totals.get? (L.identity e) with
    | none => ⟨e, L.add L.zero (L.counters e)⟩
    | some acc => ⟨acc.first, L.add acc.total (L.counters e)⟩

/-- The sums of a dump, in the order in which the identities first occur. -/
def tally (dump : List E) : Dict I (Tally E C) := dump.foldl L.tallyEntry ∅

/-- The entries of one identity. -/
def entriesOf (dump : List E) (i : I) : List E := dump.filter (fun e => L.identity e = i)

/-- The sum of one counter over the entries of one identity. -/
def total (dump : List E) (i : I) (f : F) : ℤ :=
  ((L.entriesOf dump i).map (fun e => L.field f (L.counters e))).sum

def snapshot (dump : List E) : Snapshot I F := fun i =>
  if L.entriesOf dump i = [] then none else some (L.total dump i)

/-- The counters a dictionary of baselines stands for. -/
def view (previous : Dict I C) : Snapshot I F := fun i =>
  (previous.get? i).map (fun c f => L.field f c)

theorem tally_concat (dump : List E) (e : E) :
    L.tally (dump ++ [e]) = L.tallyEntry (L.tally dump) e := by
  simp [tally, List.foldl_append]

theorem entriesOf_concat_self (dump : List E) (e : E) :
    L.entriesOf (dump ++ [e]) (L.identity e) = L.entriesOf dump (L.identity e) ++ [e] := by
  simp [entriesOf]

theorem entriesOf_concat_of_ne (dump : List E) {e : E} {i : I} (h : L.identity e ≠ i) :
    L.entriesOf (dump ++ [e]) i = L.entriesOf dump i := by
  simp [entriesOf, h]

/-- What a tally stores under an identity: nothing when the dump does not list
it, else its first entry and the fieldwise sum over its entries. -/
def TallyOf (dump : List E) (i : I) : Option (Tally E C) → Prop
  | none => L.entriesOf dump i = []
  | some t => (L.entriesOf dump i).head? = some t.first ∧
      ∀ f, L.field f t.total = L.total dump i f

theorem tally_spec (dump : List E) (i : I) : L.TallyOf dump i ((L.tally dump).get? i) := by
  induction dump using List.reverseRecOn with
  | nil => simp [tally, TallyOf, entriesOf]
  | append_singleton dump e ih =>
    rw [tally_concat, tallyEntry, Dict.get?_set]
    by_cases hi : i = L.identity e
    · subst hi
      rw [if_pos rfl]
      cases ht : (L.tally dump).get? (L.identity e) with
      | none =>
        rw [ht, TallyOf] at ih
        simp only [TallyOf, total, entriesOf_concat_self, ih, L.field_add, L.field_zero]
        exact ⟨rfl, fun f => by simp⟩
      | some t =>
        rw [ht, TallyOf] at ih
        simp only [TallyOf, total, entriesOf_concat_self, L.field_add, ih.2]
        refine ⟨?_, fun f => by simp⟩
        rw [List.head?_append, ih.1, Option.some_or]
    · rw [if_neg hi]
      have hne : L.identity e ≠ i := fun h => hi h.symm
      revert ih
      cases (L.tally dump).get? i <;>
        simp only [TallyOf, total, L.entriesOf_concat_of_ne dump hne, imp_self]

theorem mem_tally {dump : List E} {i : I} : i ∈ L.tally dump ↔ L.entriesOf dump i ≠ [] := by
  have h := L.tally_spec dump i
  rw [← Dict.get?_isSome]
  cases ht : (L.tally dump).get? i with
  | none =>
    rw [ht] at h
    exact ⟨fun hs => by simp at hs, fun hs => absurd h hs⟩
  | some t =>
    rw [ht] at h
    refine ⟨fun _ hn => ?_, fun _ => rfl⟩
    have h1 := h.1
    rw [hn] at h1
    cases h1

theorem snapshot_of_nil {dump : List E} {i : I} (h : L.entriesOf dump i = []) :
    L.snapshot dump i = none := if_pos h

theorem snapshot_of_ne_nil {dump : List E} {i : I} (h : L.entriesOf dump i ≠ []) :
    L.snapshot dump i = some (L.total dump i) := if_neg h

theorem snapshot_eq (dump : List E) (i : I) :
    L.snapshot dump i = ((L.tally dump).get? i).map (fun t f => L.field f t.total) := by
  have h := L.tally_spec dump i
  have hm : i ∈ L.tally dump ↔ L.entriesOf dump i ≠ [] := L.mem_tally
  rw [← Dict.get?_isSome] at hm
  cases ht : (L.tally dump).get? i with
  | none =>
    rw [ht] at h
    exact L.snapshot_of_nil h
  | some t =>
    rw [ht] at h hm
    rw [L.snapshot_of_ne_nil (hm.mp rfl)]
    exact congrArg some (funext fun f => (h.2 f).symm)

theorem first_mem {dump : List E} {i : I} {t : Tally E C}
    (h : (L.tally dump).get? i = some t) : t.first ∈ dump ∧ L.identity t.first = i := by
  have hs := L.tally_spec dump i
  rw [h] at hs
  have hmem := List.mem_of_head? hs.1
  simpa [entriesOf] using hmem

/-! ### Visiting the sums -/

/-- The second pass. `emit` is what is done with the first entry of an identity
and its increment; when it fails the loop stops where it is. -/
def visit (emit : E → C → σ → Except ε (B × List R) × σ) :
    List (I × Tally E C) → Dict I C → σ → Except ε (List (Emission I B R)) × Dict I C × σ
  | [], previous, s => (.ok [], previous, s)
  | (i, t) :: rest, previous, s =>
    match previous.get? i with
    | none => visit emit rest (previous.set i t.total) s
    | some p =>
      if L.moved t.total p then
        match emit t.first (L.delta t.total p) s with
        | (.error e, s) => (.error e, previous.set i t.total, s)
        | (.ok (b, rows), s) =>
          match visit emit rest (previous.set i t.total) s with
          | (.ok ems, st) => (.ok (⟨i, b, rows⟩ :: ems), st)
          | (.error e, st) => (.error e, st)
      else visit emit rest (previous.set i t.total) s

/-- Sum the dump, drop the baselines of identities it does not list, visit. -/
def readDump (emit : E → C → σ → Except ε (B × List R) × σ) (dump : List E)
    (previous : Dict I C) (s : σ) : Except ε (List (Emission I B R)) × Dict I C × σ :=
  L.visit emit (L.tally dump).items (previous.restrict (fun i => i ∈ L.tally dump)) s

/-- An identity, its first entry and its increment. -/
structure Increment (E I C : Type*) where
  identity : I
  first : E
  delta : C

/-- The increments a pass over `items` meets, in order. -/
def increments (previous : Dict I C) (items : List (I × Tally E C)) : List (Increment E I C) :=
  items.filterMap fun (i, t) => (previous.get? i).bind fun p =>
    if L.moved t.total p then some ⟨i, t.first, L.delta t.total p⟩ else none

/-- The increments of a dump against the baselines. -/
def dumpIncrements (previous : Dict I C) (dump : List E) : List (Increment E I C) :=
  L.increments (previous.restrict (fun i => i ∈ L.tally dump)) (L.tally dump).items

theorem increments_congr {previous previous' : Dict I C} {items : List (I × Tally E C)}
    (h : ∀ p ∈ items, previous.get? p.1 = previous'.get? p.1) :
    L.increments previous items = L.increments previous' items := by
  unfold increments
  exact List.filterMap_congr fun p hp => by simp only [h p hp]

/-- Storing a baseline does not disturb the increments of other identities. -/
theorem increments_set (previous : Dict I C) {i : I} (c : C) {items : List (I × Tally E C)}
    (h : i ∉ items.map Prod.fst) :
    L.increments (previous.set i c) items = L.increments previous items :=
  L.increments_congr fun p hp => Dict.get?_set_of_ne _ _ fun he =>
    h (List.mem_map.mpr ⟨p, hp, he⟩)

/-- What a completed `emit` tells about the sample it built and its rows, in a
state that meets an invariant, which it keeps. -/
def EmitSpec (emit : E → C → σ → Except ε (B × List R) × σ) (Inv : σ → Prop)
    (P : E → C → B → List R → Prop) : Prop :=
  ∀ e d s b rows s', Inv s → emit e d s = (.ok (b, rows), s') → P e d b rows ∧ Inv s'

/-- The emissions of increments one after another, the state threaded through. -/
inductive Emits (emit : E → C → σ → Except ε (B × List R) × σ) :
    List (Increment E I C) → σ → List (Emission I B R) → σ → Prop
  | nil (s : σ) : Emits emit [] s [] s
  | cons {inc : Increment E I C} {incs : List (Increment E I C)} {s s' s'' : σ} {b : B}
      {rows : List R} {ems : List (Emission I B R)}
      (head : emit inc.first inc.delta s = (.ok (b, rows), s'))
      (tail : Emits emit incs s' ems s'') :
      Emits emit (inc :: incs) s (⟨inc.identity, b, rows⟩ :: ems) s''

/-- A pass that completes has emitted for exactly the increments, in order. -/
theorem visit_emits {emit : E → C → σ → Except ε (B × List R) × σ} :
    ∀ (items : List (I × Tally E C)) (previous : Dict I C) (s : σ)
      (ems : List (Emission I B R)) (st : Dict I C × σ), (items.map Prod.fst).Nodup →
      L.visit emit items previous s = (.ok ems, st) →
      Emits emit (L.increments previous items) s ems st.2 := by
  intro items
  induction items with
  | nil =>
    intro previous s ems st _ h
    simp only [visit, Prod.mk.injEq, Except.ok.injEq] at h
    obtain ⟨rfl, rfl⟩ := h
    exact .nil s
  | cons p rest ih =>
    obtain ⟨i, t⟩ := p
    intro previous s ems st hn h
    rw [List.map_cons, List.nodup_cons] at hn
    have hskip := L.increments_set previous t.total hn.1
    simp only [visit] at h
    cases hp : previous.get? i with
    | none =>
      rw [hp] at h
      have hr := ih _ _ _ _ hn.2 h
      rw [hskip] at hr
      simpa only [increments, List.filterMap_cons, hp, Option.bind_none] using hr
    | some p =>
      rw [hp] at h
      dsimp only at h
      by_cases hm : L.moved t.total p = true
      · rw [if_pos hm] at h
        have hcons : L.increments previous ((i, t) :: rest) =
            ⟨i, t.first, L.delta t.total p⟩ :: L.increments previous rest := by
          simp only [increments, List.filterMap_cons, hp, Option.bind_some, hm, if_true]
        rcases hemit : emit t.first (L.delta t.total p) s with ⟨r, s'⟩
        rw [hemit] at h
        cases r with
        | error e => simp at h
        | ok br =>
          obtain ⟨b, rows⟩ := br
          rcases hvisit : L.visit emit rest (previous.set i t.total) s' with ⟨r, st'⟩
          dsimp only at h
          rw [hvisit] at h
          cases r with
          | error e => simp at h
          | ok ems' =>
            simp only [Prod.mk.injEq, Except.ok.injEq] at h
            obtain ⟨rfl, rfl⟩ := h
            have hr := ih _ _ _ _ hn.2 hvisit
            rw [hskip] at hr
            rw [hcons]
            exact .cons hemit hr
      · rw [if_neg hm] at h
        have hr := ih _ _ _ _ hn.2 h
        rw [hskip] at hr
        simpa only [increments, List.filterMap_cons, hp, Option.bind_some, if_neg hm] using hr

omit [DecidableEq I] in
/-- Emissions that keep the state keep it all the way. -/
theorem emits_state {emit : E → C → σ → Except ε (B × List R) × σ}
    (hkeep : ∀ e d s b rows s', emit e d s = (.ok (b, rows), s') → s' = s)
    {incs : List (Increment E I C)} {s s' : σ} {ems : List (Emission I B R)}
    (h : Emits emit incs s ems s') : s' = s := by
  induction h with
  | nil s => rfl
  | cons head _ ih => rw [ih, hkeep _ _ _ _ _ _ head]

omit [DecidableEq I] in
/-- What the emissions of increments tell when every emission meets its specification. -/
theorem emits_emissions {emit : E → C → σ → Except ε (B × List R) × σ} {Inv : σ → Prop}
    {P : E → C → B → List R → Prop} (hP : EmitSpec emit Inv P) {incs : List (Increment E I C)}
    {s s' : σ} {ems : List (Emission I B R)} (hs : Inv s) (h : Emits emit incs s ems s') :
    List.Forall₂ (fun inc em => em.identity = inc.identity ∧ P inc.first inc.delta em.built em.rows)
      incs ems := by
  induction h with
  | nil s => exact .nil
  | cons head _ ih =>
    obtain ⟨hbuilt, hs'⟩ := hP _ _ _ _ _ _ hs head
    exact .cons ⟨rfl, hbuilt⟩ (ih hs')

omit [DecidableEq I] in
/-- A measure of the state that no emission lowers. -/
theorem emits_mono {emit : E → C → σ → Except ε (B × List R) × σ} {μ : σ → ℕ}
    (hmono : ∀ e d s, μ s ≤ μ (emit e d s).2) {incs : List (Increment E I C)} {s s' : σ}
    {ems : List (Emission I B R)} (h : Emits emit incs s ems s') : μ s ≤ μ s' := by
  induction h with
  | nil s => exact le_refl _
  | @cons inc _ s _ _ _ _ _ head _ ih =>
    have hhead := hmono inc.first inc.delta s
    rw [head] at hhead
    exact hhead.trans ih

omit [DecidableEq I] in
/-- A measure of the state that every emission raises by one at most. -/
theorem emits_measure_le {emit : E → C → σ → Except ε (B × List R) × σ} {μ : σ → ℕ}
    (hstep : ∀ e d s, μ (emit e d s).2 ≤ μ s + 1) {incs : List (Increment E I C)} {s s' : σ}
    {ems : List (Emission I B R)} (h : Emits emit incs s ems s') : μ s' ≤ μ s + ems.length := by
  induction h with
  | nil s => exact le_refl _
  | @cons inc _ s _ _ _ _ _ head _ ih =>
    have hhead := hstep inc.first inc.delta s
    rw [head] at hhead
    dsimp only at hhead
    rw [List.length_cons]
    omega

/-- What a completed `emit` tells as long as a measure of the state stays within a bound. -/
def EmitSpecUpTo (μ : σ → ℕ) (N : ℕ) (emit : E → C → σ → Except ε (B × List R) × σ)
    (Inv : σ → Prop) (P : E → C → B → List R → Prop) : Prop :=
  ∀ e d s b rows s', Inv s → emit e d s = (.ok (b, rows), s') → μ s' ≤ N →
    P e d b rows ∧ Inv s'

omit [DecidableEq I] in
/-- Emissions that end within the bound have met their specification, since no emission lowers
the measure. -/
theorem emits_upTo {emit : E → C → σ → Except ε (B × List R) × σ} {Inv : σ → Prop}
    {P : E → C → B → List R → Prop} {μ : σ → ℕ} {N : ℕ}
    (hmono : ∀ e d s, μ s ≤ μ (emit e d s).2)
    (hP : EmitSpecUpTo μ N emit Inv P) {incs : List (Increment E I C)} {s s' : σ}
    {ems : List (Emission I B R)} (hs : Inv s) (h : Emits emit incs s ems s') (hN : μ s' ≤ N) :
    List.Forall₂ (fun inc em => em.identity = inc.identity ∧
      P inc.first inc.delta em.built em.rows) incs ems ∧ Inv s' := by
  induction h with
  | nil s => exact ⟨.nil, hs⟩
  | cons head tail ih =>
    obtain ⟨hbuilt, hs'⟩ := hP _ _ _ _ _ _ hs head ((emits_mono hmono tail).trans hN)
    obtain ⟨hrest, hlast⟩ := ih hs' hN
    exact ⟨.cons ⟨rfl, hbuilt⟩ hrest, hlast⟩

/-- Emissions that keep an invariant of the state, also when they fail, keep it in a pass that
stops where one of them fails. -/
theorem visit_inv {emit : E → C → σ → Except ε (B × List R) × σ} {Inv : σ → Prop}
    (hkeep : ∀ e d s, Inv s → Inv (emit e d s).2) (items : List (I × Tally E C))
    (previous : Dict I C) {s : σ} (hs : Inv s) : Inv (L.visit emit items previous s).2.2 := by
  induction items generalizing previous s with
  | nil => exact hs
  | cons p rest ih =>
    obtain ⟨i, t⟩ := p
    simp only [visit]
    cases previous.get? i with
    | none => exact ih _ hs
    | some before =>
      dsimp only
      split_ifs
      · have hnext := hkeep t.first (L.delta t.total before) s hs
        rcases hemit : emit t.first (L.delta t.total before) s with ⟨_ | ⟨b, rows⟩, s'⟩
        · rw [hemit] at hnext
          exact hnext
        · rw [hemit] at hnext
          have hrest := ih (previous.set i t.total) hnext
          rcases hvisit : L.visit emit rest (previous.set i t.total) s' with ⟨_ | ems, st⟩
          all_goals
            dsimp only at hrest ⊢
            rw [hvisit] at hrest ⊢
            exact hrest
      · exact ih _ hs

theorem readDump_inv {emit : E → C → σ → Except ε (B × List R) × σ} {Inv : σ → Prop}
    (hkeep : ∀ e d s, Inv s → Inv (emit e d s).2) (dump : List E) (previous : Dict I C) {s : σ}
    (hs : Inv s) : Inv (L.readDump emit dump previous s).2.2 :=
  L.visit_inv hkeep _ _ hs

/-- A pass that completes has stored the sum of every identity it visited. -/
theorem visit_previous {emit : E → C → σ → Except ε (B × List R) × σ} :
    ∀ (items : List (I × Tally E C)) (previous : Dict I C) (s : σ)
      (ems : List (Emission I B R)) (st : Dict I C × σ), (items.map Prod.fst).Nodup →
      L.visit emit items previous s = (.ok ems, st) →
      ∀ i, st.1.get? i = ((items.lookup i).map Tally.total).or (previous.get? i) := by
  intro items
  induction items with
  | nil =>
    intro previous s ems st _ h i
    simp only [visit, Prod.mk.injEq, Except.ok.injEq] at h
    obtain ⟨rfl, rfl⟩ := h
    rfl
  | cons p rest ih =>
    obtain ⟨j, t⟩ := p
    intro previous s ems st hn h i
    rw [List.map_cons, List.nodup_cons] at hn
    -- in every branch that completes, the rest starts from the stored sum
    obtain ⟨s', ems', h'⟩ : ∃ s' ems', L.visit emit rest (previous.set j t.total) s' =
        (.ok ems', st) := by
      simp only [visit] at h
      split at h
      · exact ⟨_, _, h⟩
      · split at h
        · split at h
          · simp at h
          · split at h
            next hv =>
              simp only [Prod.mk.injEq, Except.ok.injEq] at h
              obtain ⟨-, rfl⟩ := h
              exact ⟨_, _, hv⟩
            · simp at h
        · exact ⟨_, _, h⟩
    rw [ih _ _ _ _ hn.2 h' i, Dict.get?_set]
    by_cases hij : i = j
    · subst hij
      have hnone : rest.lookup i = none := by
        rw [List.lookup_eq_none_iff]
        intro p hp
        simp only [bne_iff_ne, ne_eq]
        exact fun he => hn.1 (List.mem_map.mpr ⟨p, hp, he.symm⟩)
      simp [hnone]
    · rw [if_neg hij, Dict.lookup_cons_of_ne hij]

/-- A pass that fails stops at an identity that moved, and has stored its sum by then. -/
theorem visit_error {emit : E → C → σ → Except ε (B × List R) × σ} {items : List (I × Tally E C)}
    {previous : Dict I C} {s : σ} {e : ε} {st : Dict I C × σ} (hn : (items.map Prod.fst).Nodup)
    (h : L.visit emit items previous s = (.error e, st)) :
    ∃ i t p, (i, t) ∈ items ∧ previous.get? i = some p ∧ L.moved t.total p = true ∧
      st.1.get? i = some t.total := by
  induction items generalizing previous s with
  | nil => simp [visit] at h
  | cons head rest ih =>
    obtain ⟨j, t⟩ := head
    rw [List.map_cons, List.nodup_cons] at hn
    -- a failure in the rest is one of an identity that differs from this one
    have hrest : ∀ {s' : σ}, L.visit emit rest (previous.set j t.total) s' = (.error e, st) →
        ∃ i t' p, (i, t') ∈ (j, t) :: rest ∧ previous.get? i = some p ∧
          L.moved t'.total p = true ∧ st.1.get? i = some t'.total := by
      intro s' hvisit
      obtain ⟨i, t', p, hmem, hp, hmoved, hstored⟩ := ih hn.2 hvisit
      have hne : i ≠ j := by
        rintro rfl
        exact hn.1 (List.mem_map.mpr ⟨_, hmem, rfl⟩)
      rw [Dict.get?_set_of_ne _ _ hne] at hp
      exact ⟨i, t', p, List.mem_cons_of_mem _ hmem, hp, hmoved, hstored⟩
    simp only [visit] at h
    cases hp : previous.get? j with
    | none =>
      rw [hp] at h
      exact hrest h
    | some p =>
      rw [hp] at h
      dsimp only at h
      by_cases hmoved : L.moved t.total p = true
      · rw [if_pos hmoved] at h
        rcases hemit : emit t.first (L.delta t.total p) s with ⟨_ | ⟨b, rows⟩, s'⟩
        · rw [hemit] at h
          obtain ⟨-, rfl⟩ := Prod.mk.inj h
          exact ⟨j, t, p, List.mem_cons_self, hp, hmoved, Dict.get?_set_self _ _ _⟩
        · rw [hemit] at h
          dsimp only at h
          rcases hvisit : L.visit emit rest (previous.set j t.total) s' with ⟨_ | ems, st'⟩
          · rw [hvisit] at h
            exact hrest (hvisit.trans h)
          · rw [hvisit] at h
            simp at h
      · rw [if_neg hmoved] at h
        exact hrest h

/-- The sums of a dump, by identity. -/
def totals (dump : List E) (i : I) : Option C := ((L.tally dump).get? i).map Tally.total

/-- A loop that completes leaves the sums as the baselines. -/
theorem readDump_totals {emit : E → C → σ → Except ε (B × List R) × σ} {dump : List E}
    {previous : Dict I C} {s : σ} {ems : List (Emission I B R)} {st : Dict I C × σ}
    (h : L.readDump emit dump previous s = (.ok ems, st)) : st.1.get? = L.totals dump := by
  funext i
  rw [L.visit_previous _ _ _ _ _ (L.tally dump).nodup h i]
  show ((L.tally dump).get? i |>.map Tally.total).or _ = ((L.tally dump).get? i).map Tally.total
  rw [Dict.get?_restrict]
  cases hi : (L.tally dump).get? i with
  | some t => rfl
  | none =>
    have hnot : i ∉ L.tally dump := Dict.get?_eq_none.mp hi
    simp [hnot]

/-- A loop that fails has replaced the baseline of an identity that moved. -/
theorem readDump_error {emit : E → C → σ → Except ε (B × List R) × σ} {dump : List E}
    {previous : Dict I C} {s : σ} {e : ε} {st : Dict I C × σ}
    (h : L.readDump emit dump previous s = (.error e, st)) :
    ∃ i c p, L.totals dump i = some c ∧ previous.get? i = some p ∧ L.moved c p = true ∧
      st.1.get? i = some c := by
  obtain ⟨i, t, p, hmem, hp, hmoved, hstored⟩ := L.visit_error (L.tally dump).nodup h
  have ht := Dict.get?_eq_some.mpr hmem
  rw [Dict.get?_restrict] at hp
  split_ifs at hp
  exact ⟨i, t.total, p, by rw [totals, ht]; rfl, hp, hmoved, hstored⟩

omit [DecidableEq I] in
theorem not_moved_self (c : C) : ¬ L.moved c c = true := by
  intro h
  obtain ⟨f, hf⟩ := (L.moved_iff c c).mp h
  exact lt_irrefl _ hf

/-- So the baselines after a loop that fails are not the ones before it. -/
theorem readDump_error_ne {emit : E → C → σ → Except ε (B × List R) × σ} {dump : List E}
    {previous : Dict I C} {s : σ} {e : ε} {st : Dict I C × σ}
    (h : L.readDump emit dump previous s = (.error e, st)) : st.1.get? ≠ previous.get? := by
  obtain ⟨i, c, p, -, hp, hmoved, hstored⟩ := L.readDump_error h
  intro heq
  rw [heq, hp, Option.some.injEq] at hstored
  exact L.not_moved_self c (hstored ▸ hmoved)

/-! ### One dump after another -/

/-- The increments of a dump are the moves between the two snapshots. -/
theorem mem_increments_iff (previous : Dict I C) (dump : List E) (i : I) :
    (∃ inc ∈ L.dumpIncrements previous dump, inc.identity = i) ↔
      Snapshot.Moved (L.view previous) (L.snapshot dump) i := by
  simp only [dumpIncrements, increments, List.mem_filterMap, Snapshot.Moved]
  constructor
  · rintro ⟨inc, ⟨⟨j, t⟩, hmem, hinc⟩, rfl⟩
    have ht := Dict.get?_eq_some.mpr hmem
    have hin : j ∈ L.tally dump := Dict.get?_isSome.mp (by rw [ht]; rfl)
    simp only [Dict.get?_restrict, hin, decide_true, if_true] at hinc
    obtain ⟨p, hp, hinc⟩ := Option.bind_eq_some_iff.mp hinc
    split_ifs at hinc with hm
    rw [Option.some.injEq] at hinc
    subst hinc
    refine ⟨_, _, by simp only [view, hp, Option.map_some], ?_, (L.moved_iff _ _).mp hm⟩
    rw [snapshot_eq, ht]
    rfl
  · rintro ⟨a, b, ha, hb, f, hlt⟩
    rw [snapshot_eq, Option.map_eq_some_iff] at hb
    obtain ⟨t, ht, rfl⟩ := hb
    simp only [view, Option.map_eq_some_iff] at ha
    obtain ⟨p, hp, rfl⟩ := ha
    have hin : i ∈ L.tally dump := Dict.get?_isSome.mp (by rw [ht]; rfl)
    have hm : L.moved t.total p = true := (L.moved_iff _ _).mpr ⟨f, hlt⟩
    refine ⟨⟨i, t.first, L.delta t.total p⟩, ⟨(i, t), Dict.get?_eq_some.mp ht, ?_⟩, rfl⟩
    simp [Dict.get?_restrict, hin, hp, hm]

theorem increments_identity_sublist (previous : Dict I C) (items : List (I × Tally E C)) :
    ((L.increments previous items).map Increment.identity).Sublist (items.map Prod.fst) := by
  induction items with
  | nil => exact .slnil
  | cons p rest ih =>
    obtain ⟨i, t⟩ := p
    simp only [increments, List.filterMap_cons, List.map_cons]
    split
    next => exact ih.cons i
    next inc hinc =>
      obtain ⟨p, hp, hinc⟩ := Option.bind_eq_some_iff.mp hinc
      split_ifs at hinc
      rw [Option.some.injEq] at hinc
      subst hinc
      exact ih.cons_cons i

/-- Every increment carries the gains between the two snapshots and comes from
an entry of the dump. -/
theorem increment_spec {previous : Dict I C} {dump : List E} {inc : Increment E I C}
    (h : inc ∈ L.dumpIncrements previous dump) :
    inc.first ∈ dump ∧ L.identity inc.first = inc.identity ∧
      ∀ f, L.field f inc.delta = Snapshot.gain (L.view previous) (L.snapshot dump) inc.identity f := by
  simp only [dumpIncrements, increments, List.mem_filterMap] at h
  obtain ⟨⟨j, t⟩, hmem, hinc⟩ := h
  have ht := Dict.get?_eq_some.mpr hmem
  have hin : j ∈ L.tally dump := Dict.get?_isSome.mp (by rw [ht]; rfl)
  simp only [Dict.get?_restrict, hin, decide_true, if_true] at hinc
  obtain ⟨p, hp, hinc⟩ := Option.bind_eq_some_iff.mp hinc
  split_ifs at hinc with hm
  rw [Option.some.injEq] at hinc
  subst hinc
  obtain ⟨hfirst, hid⟩ := L.first_mem ht
  refine ⟨hfirst, hid, fun f => ?_⟩
  have hold : L.view previous j = some (fun f => L.field f p) := by simp only [view, hp, Option.map_some]
  have hnew : L.snapshot dump j = some (fun f => L.field f t.total) := by rw [snapshot_eq, ht]; rfl
  rw [L.field_delta, Snapshot.gain_of_some hold hnew]

/-- An increment is of no counter negative, and of some counter positive. -/
theorem increment_pos {previous : Dict I C} {dump : List E} {inc : Increment E I C}
    (h : inc ∈ L.dumpIncrements previous dump) :
    (∀ f, 0 ≤ L.field f inc.delta) ∧ ∃ f, 0 < L.field f inc.delta := by
  simp only [dumpIncrements, increments, List.mem_filterMap] at h
  obtain ⟨⟨j, t⟩, -, hinc⟩ := h
  obtain ⟨p, -, hinc⟩ := Option.bind_eq_some_iff.mp hinc
  split_ifs at hinc with hm
  rw [Option.some.injEq] at hinc
  subst hinc
  obtain ⟨f, hlt⟩ := (L.moved_iff _ _).mp hm
  refine ⟨fun g => ?_, f, ?_⟩
  · rw [L.field_delta]
    exact le_max_right _ _
  · rw [L.field_delta]
    exact lt_max_of_lt_left (by omega)

theorem dumpIncrements_nodup (previous : Dict I C) (dump : List E) :
    ((L.dumpIncrements previous dump).map Increment.identity).Nodup :=
  (L.tally dump).nodup.sublist (L.increments_identity_sublist _ _)

/-- The law of one completed loop. Baselines are the snapshot of the dump; the
emissions are one for each identity that moved, each built from an entry of that
identity and from an increment whose counters are the gains. -/
structure Completed (P : E → C → B → List R → Prop) (before : Snapshot I F) (dump : List E)
    (previous : Dict I C) (ems : List (Emission I B R)) : Prop where
  baseline : L.view previous = L.snapshot dump
  distinct : (ems.map Emission.identity).Nodup
  mem_iff : ∀ i, (∃ em ∈ ems, em.identity = i) ↔ Snapshot.Moved before (L.snapshot dump) i
  built : ∀ em ∈ ems, ∃ e d, e ∈ dump ∧ L.identity e = em.identity ∧
    (∀ f, L.field f d = Snapshot.gain before (L.snapshot dump) em.identity f) ∧
    P e d em.built em.rows

omit [DecidableEq I] in
theorem emissions_identity {P : E → C → B → List R → Prop} {incs : List (Increment E I C)}
    {ems : List (Emission I B R)} (h : List.Forall₂ (fun inc em =>
      em.identity = inc.identity ∧ P inc.first inc.delta em.built em.rows) incs ems) :
    ems.map Emission.identity = incs.map Increment.identity := by
  induction h with
  | nil => rfl
  | cons hab _ ih => simp only [List.map_cons, hab.1, ih]

omit [DecidableEq I] in
theorem exists_increment {P : E → C → B → List R → Prop} {incs : List (Increment E I C)}
    {ems : List (Emission I B R)} (h : List.Forall₂ (fun inc em =>
      em.identity = inc.identity ∧ P inc.first inc.delta em.built em.rows) incs ems)
    {em : Emission I B R} (hem : em ∈ ems) : ∃ inc ∈ incs,
      em.identity = inc.identity ∧ P inc.first inc.delta em.built em.rows := by
  induction h with
  | nil => cases hem
  | cons hab _ ih =>
    rcases List.mem_cons.mp hem with rfl | hem
    · exact ⟨_, List.mem_cons_self, hab⟩
    · obtain ⟨inc, hinc, hr⟩ := ih hem
      exact ⟨inc, List.mem_cons_of_mem _ hinc, hr⟩

/-- The emissions of an identity: one or none. -/
theorem Completed.filter_identity {P : E → C → B → List R → Prop} {before : Snapshot I F}
    {dump : List E} {previous : Dict I C} {ems : List (Emission I B R)}
    (h : L.Completed P before dump previous ems) (i : I) :
    (∃ em ∈ ems, em.identity = i ∧ ems.filter (fun em => em.identity = i) = [em]) ∨
      (ems.filter (fun em => em.identity = i) = [] ∧
        ¬ Snapshot.Moved before (L.snapshot dump) i) := by
  by_cases hmoved : Snapshot.Moved before (L.snapshot dump) i
  · left
    obtain ⟨em, hem, hid⟩ := (h.mem_iff i).mpr hmoved
    refine ⟨em, hem, hid, ?_⟩
    obtain ⟨as, bs, rfl⟩ := List.append_of_mem hem
    have hdistinct := h.distinct
    rw [List.map_append, List.map_cons, List.nodup_append', List.nodup_cons,
      List.disjoint_cons_right] at hdistinct
    obtain ⟨-, ⟨hbs, -⟩, has, -⟩ := hdistinct
    have hfilter : ∀ l : List (Emission I B R), em.identity ∉ l.map Emission.identity →
        l.filter (fun e => e.identity = i) = [] := by
      intro l hl
      rw [List.filter_eq_nil_iff]
      intro e he heq
      exact hl (List.mem_map.mpr ⟨e, he, (of_decide_eq_true heq).trans hid.symm⟩)
    rw [List.filter_append, hfilter as has, List.filter_cons, if_pos (decide_eq_true hid),
      hfilter bs hbs, List.nil_append]
  · right
    refine ⟨?_, hmoved⟩
    rw [List.filter_eq_nil_iff]
    intro em hem heq
    exact hmoved ((h.mem_iff i).mp ⟨em, hem, of_decide_eq_true heq⟩)

theorem readDump_emits {emit : E → C → σ → Except ε (B × List R) × σ} {dump : List E}
    {previous : Dict I C} {s : σ} {ems : List (Emission I B R)} {st : Dict I C × σ}
    (h : L.readDump emit dump previous s = (.ok ems, st)) :
    Emits emit (L.dumpIncrements previous dump) s ems st.2 :=
  L.visit_emits _ _ _ _ _ (L.tally dump).nodup h

/-- What is told of every emission makes the law of the loop. -/
theorem completed_of_emissions {emit : E → C → σ → Except ε (B × List R) × σ}
    {P : E → C → B → List R → Prop} {dump : List E} {previous : Dict I C} {s : σ}
    {ems : List (Emission I B R)} {st : Dict I C × σ}
    (h : L.readDump emit dump previous s = (.ok ems, st))
    (hf : List.Forall₂ (fun inc em => em.identity = inc.identity ∧
      P inc.first inc.delta em.built em.rows) (L.dumpIncrements previous dump) ems) :
    L.Completed P (L.view previous) dump st.1 ems := by
  have hids := emissions_identity hf
  refine ⟨?_, ?_, fun i => ?_, fun em hem => ?_⟩
  · funext i
    have hv := L.visit_previous _ _ _ _ _ (L.tally dump).nodup h i
    rw [snapshot_eq]
    simp only [view, hv, Dict.get?_restrict, decide_eq_true_eq]
    change ((((L.tally dump).get? i).map Tally.total).or _).map _ = _
    cases ht : (L.tally dump).get? i with
    | some t => rfl
    | none => rw [if_neg (Dict.get?_eq_none.mp ht)]; rfl
  · rw [hids]
    exact L.dumpIncrements_nodup previous dump
  · rw [← L.mem_increments_iff, ← List.mem_map, ← List.mem_map, hids]
  · obtain ⟨inc, hinc, hid, hbuilt⟩ := exists_increment hf hem
    obtain ⟨hfirst, hident, hgain⟩ := L.increment_spec hinc
    exact ⟨inc.first, inc.delta, hfirst, by rw [hident, hid], by rw [hid]; exact hgain, hbuilt⟩

theorem readDump_spec {emit : E → C → σ → Except ε (B × List R) × σ} {Inv : σ → Prop}
    {P : E → C → B → List R → Prop} (hP : EmitSpec emit Inv P) {dump : List E}
    {previous : Dict I C} {s : σ} (hs : Inv s) {ems : List (Emission I B R)} {st : Dict I C × σ}
    (h : L.readDump emit dump previous s = (.ok ems, st)) :
    L.Completed P (L.view previous) dump st.1 ems :=
  L.completed_of_emissions h (emits_emissions hP hs (L.readDump_emits h))

/-- The same for a specification that counts on where the measure of the state ends. -/
theorem readDump_upTo {emit : E → C → σ → Except ε (B × List R) × σ} {Inv : σ → Prop}
    {P : E → C → B → List R → Prop} {μ : σ → ℕ}
    (hmono : ∀ e d s, μ s ≤ μ (emit e d s).2) {dump : List E} {previous : Dict I C} {s : σ}
    (hs : Inv s) {ems : List (Emission I B R)} {st : Dict I C × σ}
    (hP : EmitSpecUpTo μ (μ st.2) emit Inv P)
    (h : L.readDump emit dump previous s = (.ok ems, st)) :
    L.Completed P (L.view previous) dump st.1 ems ∧ Inv st.2 := by
  obtain ⟨hf, hlast⟩ := emits_upTo hmono hP hs (L.readDump_emits h) (le_refl _)
  exact ⟨L.completed_of_emissions h hf, hlast⟩

/-! ### The dump of a dictionary -/

section
variable {K W : Type*} [DecidableEq K] {ident : K → I} {counts : W → F → ℤ}

/-- The entry is of the key and has the counters of what is under it. -/
def Lists (ident : K → I) (counts : W → F → ℤ) (item : K × W) (e : E) : Prop :=
  L.identity e = ident item.1 ∧ ∀ f, L.field f (L.counters e) = counts item.2 f

theorem entriesOf_of_lists (hident : Function.Injective ident) {items : List (K × W)}
    {dump : List E} (h : List.Forall₂ (L.Lists ident counts) items dump) (key : K) :
    List.Forall₂ (L.Lists ident counts) (items.filter fun item => item.1 = key)
      (L.entriesOf dump (ident key)) := by
  unfold entriesOf
  induction h with
  | nil => exact .nil
  | @cons item e items dump head tail ih =>
    by_cases hkey : item.1 = key
    · have hid : L.identity e = ident key := head.1.trans (congrArg ident hkey)
      rw [List.filter_cons_of_pos (by simpa using hkey), List.filter_cons_of_pos (by simpa using hid)]
      exact .cons head ih
    · have hne : L.identity e ≠ ident key := fun h => hkey (hident (head.1.symm.trans h))
      rw [List.filter_cons_of_neg (by simpa using hkey), List.filter_cons_of_neg (by simpa using hne)]
      exact ih

/-- The snapshot of a dump that lists a dictionary in some order is its counters. -/
theorem snapshot_of_lists (hident : Function.Injective ident) {m : Dict K W}
    {items : List (K × W)} (hperm : items.Perm m.items) {dump : List E}
    (h : List.Forall₂ (L.Lists ident counts) items dump) (key : K) :
    L.snapshot dump (ident key) = (m.get? key).map counts := by
  have hentries := L.entriesOf_of_lists hident h key
  have hfilter := hperm.filter fun item => item.1 = key
  rw [Dict.filter_items] at hfilter
  cases hget : m.get? key with
  | none =>
    rw [hget] at hfilter
    rw [List.perm_nil.mp hfilter, List.forall₂_nil_left_iff] at hentries
    exact L.snapshot_of_nil hentries
  | some w =>
    rw [hget] at hfilter
    rw [List.perm_singleton.mp hfilter] at hentries
    obtain ⟨e, rest, hlists, hnil, heq⟩ := List.forall₂_cons_left_iff.mp hentries
    rw [List.forall₂_nil_left_iff] at hnil
    subst hnil
    rw [L.snapshot_of_ne_nil (by rw [heq]; exact List.cons_ne_nil _ _)]
    refine congrArg some (funext fun f => ?_)
    rw [total, heq, List.map_singleton, List.sum_singleton]
    exact hlists.2 f

end

end CounterLoop

end UdpAnalyzer

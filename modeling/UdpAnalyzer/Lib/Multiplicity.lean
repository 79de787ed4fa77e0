import UdpAnalyzer.Lib.CounterLoop
import UdpAnalyzer.Lib.Run

/-! Emissions that repeat their increment. When the rows of an emission carry the
increment once or several times, the rows of an identity add up to its increments
exactly when every emission of it carries its increment once. -/

namespace UdpAnalyzer

variable {E I C F B R σ ε : Type*} [DecidableEq I]

/-- A quantity summed over the rows of an identity. -/
def rowSum (ems : List (Emission I B R)) (i : I) (quantity : R → ℤ) : ℤ :=
  (((ems.filter fun em => em.identity = i).flatMap Emission.rows).map quantity).sum

theorem rowSum_cons (em : Emission I B R) (ems : List (Emission I B R)) (i : I)
    (quantity : R → ℤ) : rowSum (em :: ems) i quantity =
      (if em.identity = i then (em.rows.map quantity).sum else 0) + rowSum ems i quantity := by
  unfold rowSum
  by_cases h : em.identity = i <;> simp [h]

namespace CounterLoop

variable (L : CounterLoop E I C F)

/-- A counter summed over the increments of an identity. -/
def incrementSum (incs : List (Increment E I C)) (i : I) (f : F) : ℤ :=
  ((incs.filter fun inc => inc.identity = i).map fun inc => L.field f inc.delta).sum

theorem incrementSum_cons (inc : Increment E I C) (incs : List (Increment E I C)) (i : I) (f : F) :
    L.incrementSum (inc :: incs) i f =
      (if inc.identity = i then L.field f inc.delta else 0) + L.incrementSum incs i f := by
  unfold incrementSum
  by_cases h : inc.identity = i <;> simp [h]

theorem incrementSum_eq_zero {incs : List (Increment E I C)} {i : I}
    (h : i ∉ incs.map Increment.identity) (f : F) : L.incrementSum incs i f = 0 := by
  induction incs with
  | nil => rfl
  | cons inc rest ih =>
    rw [List.map_cons, List.mem_cons, not_or] at h
    rw [incrementSum_cons, if_neg fun he => h.1 he.symm, ih h.2, add_zero]

/-- The increments of a dump add up to the gain between the snapshots. -/
theorem incrementSum_dumpIncrements (previous : Dict I C) (dump : List E) (i : I) (f : F) :
    L.incrementSum (L.dumpIncrements previous dump) i f =
      Snapshot.gain (L.view previous) (L.snapshot dump) i f := by
  by_cases hmem : i ∈ (L.dumpIncrements previous dump).map Increment.identity
  · obtain ⟨inc, hinc, rfl⟩ := List.mem_map.mp hmem
    have hgain := (L.increment_spec hinc).2.2 f
    have hnodup := L.dumpIncrements_nodup previous dump
    obtain ⟨as, bs, hsplit⟩ := List.append_of_mem hinc
    rw [hsplit, List.map_append, List.map_cons, List.nodup_append', List.nodup_cons,
      List.disjoint_cons_right] at hnodup
    obtain ⟨-, ⟨hbs, -⟩, has, -⟩ := hnodup
    have happend : ∀ l : List (Increment E I C), inc.identity ∉ l.map Increment.identity →
        L.incrementSum (l ++ inc :: bs) inc.identity f = L.field f inc.delta := by
      intro l hl
      induction l with
      | nil =>
        rw [List.nil_append, incrementSum_cons, if_pos rfl, L.incrementSum_eq_zero hbs, add_zero]
      | cons a l ih =>
        rw [List.map_cons, List.mem_cons, not_or] at hl
        rw [List.cons_append, incrementSum_cons, if_neg fun he => hl.1 he.symm, ih hl.2, zero_add]
    rw [← hgain, hsplit, happend as has]
  · rw [L.incrementSum_eq_zero hmem, Snapshot.gain_eq_zero_of_not_moved]
    intro hmoved
    obtain ⟨inc, hinc, hid⟩ := (L.mem_increments_iff previous dump i).mpr hmoved
    exact hmem (List.mem_map.mpr ⟨inc, hinc, hid⟩)

/-- `copies` says how many matches an entry has in a state; an emission repeats the
increment for each of them, and carries it once when there is none. -/
def Repeats (emit : E → C → σ → Except ε (B × List R) × σ) (quantity : F → R → ℤ)
    (copies : σ → E → ℕ) : Prop :=
  ∀ e d s b rows s', emit e d s = (.ok (b, rows), s') →
    ∀ f, (rows.map (quantity f)).sum = (max 1 (copies s e) : ℕ) * L.field f d

/-- The rows of an identity add up to its increments exactly when each of its
entries has at most one match in the state it is emitted in. -/
theorem rowSum_eq_iff {emit : E → C → σ → Except ε (B × List R) × σ} {quantity : F → R → ℤ}
    {copies : σ → E → ℕ} (hrepeats : L.Repeats emit quantity copies)
    {incs : List (Increment E I C)} {s s' : σ} {ems : List (Emission I B R)}
    (hpos : ∀ inc ∈ incs, (∀ f, 0 ≤ L.field f inc.delta) ∧ ∃ f, 0 < L.field f inc.delta)
    (h : Emits emit incs s ems s') (i : I) :
    (∀ f, L.incrementSum incs i f ≤ rowSum ems i (quantity f)) ∧
      ((∀ f, rowSum ems i (quantity f) = L.incrementSum incs i f) ↔
        Along (fun s inc => (emit inc.first inc.delta s).2)
          (fun s inc => inc.identity = i → copies s inc.first ≤ 1) s incs) := by
  induction h with
  | nil s => exact ⟨fun f => le_rfl, iff_of_true (fun f => rfl) trivial⟩
  | @cons inc incs s s' s'' b rows ems head tail ih =>
    obtain ⟨hle, hiff⟩ := ih fun inc hinc => hpos inc (List.mem_cons_of_mem _ hinc)
    obtain ⟨hnonneg, g, hg⟩ := hpos inc List.mem_cons_self
    have hrows := hrepeats _ _ _ _ _ _ head
    have hnext : (emit inc.first inc.delta s).2 = s' := by rw [head]
    have halong : Along (fun s inc => (emit inc.first inc.delta s).2)
        (fun s inc => inc.identity = i → copies s inc.first ≤ 1) s (inc :: incs) ↔
          (inc.identity = i → copies s inc.first ≤ 1) ∧
            ∀ f, rowSum ems i (quantity f) = L.incrementSum incs i f := by
      rw [hiff, Along, hnext]
    rw [halong]
    simp only [rowSum_cons, incrementSum_cons, hrows]
    by_cases hid : inc.identity = i
    · simp only [hid, if_true, true_imp_iff]
      -- every copy beyond the first adds the increment once more
      have hcopy : ∀ f, L.field f inc.delta ≤
          (max 1 (copies s inc.first) : ℕ) * L.field f inc.delta := by
        intro f
        have hone : (1 : ℤ) ≤ (max 1 (copies s inc.first) : ℕ) := by exact_mod_cast le_max_left _ _
        exact le_mul_of_one_le_left (hnonneg f) hone
      refine ⟨fun f => add_le_add (hcopy f) (hle f), fun heq => ⟨?_, fun f => ?_⟩, ?_⟩
      · by_contra hmany
        have htwo : (2 : ℤ) ≤ (max 1 (copies s inc.first) : ℕ) := by
          have hnat : 2 ≤ max 1 (copies s inc.first) := by omega
          exact_mod_cast hnat
        have hdouble := mul_le_mul_of_nonneg_right htwo hg.le
        have hsum := heq g
        have hrest := hle g
        omega
      · have hsum := heq f
        have hfirst := hcopy f
        have hrest := hle f
        omega
      · rintro ⟨hfew, hrest⟩ f
        have hone : max 1 (copies s inc.first) = 1 := by omega
        rw [hone, hrest f, Nat.cast_one, one_mul]
    · simp only [hid, if_false, zero_add, false_imp_iff, true_and]
      exact ⟨hle, trivial⟩

end CounterLoop

end UdpAnalyzer

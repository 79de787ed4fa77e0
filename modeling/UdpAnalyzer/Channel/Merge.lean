import UdpAnalyzer.Channel.Accounting

/-! What the record of a flow says when the records of the CPUs are merged. Counters are added,
the last time is the latest, the first time is the earliest one that is set, and of the pid,
the interface and the state the first that is set counts. Only the latter depend on the
order in which the CPUs are listed. -/

namespace UdpAnalyzer

variable {n : ℕ}

/-- A component that is merged by an operation of its own. -/
theorem foldl_merge_component {g : FlowValue → ℤ} {op : ℤ → ℤ → ℤ}
    (h : ∀ acc v, g (acc.merge v) = op (g acc) (g v)) (values : List FlowValue) (acc : FlowValue) :
    g (values.foldl FlowValue.merge acc) = (values.map g).foldl op (g acc) := by
  induction values generalizing acc with
  | nil => rfl
  | cons v rest ih => rw [List.foldl_cons, ih, h, List.map_cons, List.foldl_cons]

theorem component_mergedIn {g : FlowValue → ℤ} {op : ℤ → ℤ → ℤ}
    (h : ∀ acc v, g (acc.merge v) = op (g acc) (g v)) (hzero : g FlowValue.zero = 0)
    (slots : Fin n → ChannelValue) (order : List (Fin n)) :
    g (mergedIn slots order) = (order.map fun cpu => g (slots cpu).decode).foldl op 0 := by
  rw [mergedIn, foldl_merge_component h, hzero, List.map_map]
  rfl

/-! ### The first that is set -/

/-- The first entry that is not zero. -/
def firstNonzero (l : List ℤ) : ℤ := (l.find? fun a => a ≠ 0).getD 0

theorem firstNonzero_cons (a : ℤ) (l : List ℤ) :
    firstNonzero (a :: l) = if a = 0 then firstNonzero l else a := by
  unfold firstNonzero
  by_cases h : a = 0 <;> simp [h]

theorem foldl_orNonzero (l : List ℤ) (acc : ℤ) :
    l.foldl orNonzero acc = firstNonzero (acc :: l) := by
  induction l generalizing acc with
  | nil =>
    rw [firstNonzero_cons]
    split_ifs with h
    · exact h
    · rfl
  | cons a rest ih =>
    rw [List.foldl_cons, ih, firstNonzero_cons, firstNonzero_cons acc, firstNonzero_cons a, orNonzero]
    by_cases h : acc = 0 <;> simp [h]

/-- An entry is the first one that is set when the others are zero or the same. -/
theorem firstNonzero_of_forall {l : List ℤ} {value : ℤ} (h : ∀ a ∈ l, a = 0 ∨ a = value)
    (hmem : value ∈ l) : firstNonzero l = value := by
  unfold firstNonzero
  cases hfind : l.find? fun a => a ≠ 0 with
  | none =>
    have hzero : value = 0 := by simpa using List.find?_eq_none.mp hfind value hmem
    exact hzero.symm
  | some b =>
    have hb : b ≠ 0 := by simpa using List.find?_some hfind
    exact (h b (List.mem_of_find?_eq_some hfind)).resolve_left hb

theorem firstNonzero_mem {l : List ℤ} (h : firstNonzero l ≠ 0) : firstNonzero l ∈ l := by
  unfold firstNonzero at h ⊢
  cases hfind : l.find? fun a => a ≠ 0 with
  | none =>
    rw [hfind] at h
    exact absurd rfl h
  | some b => exact List.mem_of_find?_eq_some hfind

/-- The pid of a flow is the first one its slots carry. -/
theorem pid_mergedValue (slots : Fin n → ChannelValue) : (mergedValue slots).pid =
    firstNonzero ((List.finRange n).map fun cpu => ((slots cpu).pid.toNat : ℤ)) := by
  have hmerged := @component_mergedIn n FlowValue.pid orNonzero (fun _ _ => rfl) rfl slots
    (List.finRange n)
  rw [foldl_orNonzero, firstNonzero_cons, if_pos rfl] at hmerged
  rw [mergedValue, List.ofFn_eq_map]
  exact hmerged

theorem state_mergedIn (slots : Fin n → ChannelValue) (order : List (Fin n)) :
    (mergedIn slots order).state =
      firstNonzero (order.map fun cpu => ((slots cpu).state.toNat : ℤ)) := by
  have hmerged := @component_mergedIn n FlowValue.state orNonzero (fun _ _ => rfl) rfl slots order
  rw [foldl_orNonzero, firstNonzero_cons, if_pos rfl] at hmerged
  exact hmerged

/-- The merged state is the same in every order of the CPUs exactly when no CPU has another
one. -/
theorem state_every_order {slots : Fin n → ChannelValue} {state : BitVec 32} :
    (∀ order : List (Fin n), order.Perm (List.finRange n) →
      (mergedIn slots order).state = state.toNat) ↔
    (∀ cpu, (slots cpu).state = 0 ∨ (slots cpu).state = state) ∧
      (state = 0 ∨ ∃ cpu, (slots cpu).state = state) := by
  constructor
  · intro hall
    constructor
    · intro cpu
      by_contra hother
      rw [not_or] at hother
      -- the order that starts with this CPU
      have hperm : (cpu :: (List.finRange n).erase cpu).Perm (List.finRange n) :=
        (List.perm_cons_erase (List.mem_finRange cpu)).symm
      have hstate := hall _ hperm
      have hne : ((slots cpu).state.toNat : ℤ) ≠ 0 := by
        intro hzero
        exact hother.1 (BitVec.eq_of_toNat_eq (Int.natCast_eq_zero.mp hzero))
      rw [state_mergedIn, List.map_cons, firstNonzero_cons, if_neg hne] at hstate
      exact hother.2 (BitVec.eq_of_toNat_eq (Int.natCast_inj.mp hstate))
    · have hstate := hall _ (List.Perm.refl _)
      rw [state_mergedIn] at hstate
      by_cases hzero : state = 0
      · exact .inl hzero
      · right
        have hne :
            firstNonzero ((List.finRange n).map fun cpu => ((slots cpu).state.toNat : ℤ)) ≠ 0 := by
          rw [hstate]
          intro h
          exact hzero (BitVec.eq_of_toNat_eq (Int.natCast_eq_zero.mp h))
        obtain ⟨cpu, -, hcpu⟩ := List.mem_map.mp (firstNonzero_mem hne)
        rw [hstate] at hcpu
        exact ⟨cpu, BitVec.eq_of_toNat_eq (Int.natCast_inj.mp hcpu)⟩
  · rintro ⟨hslots, hsome⟩ order hperm
    rw [state_mergedIn]
    have hentries : ∀ a ∈ order.map fun cpu => ((slots cpu).state.toNat : ℤ),
        a = 0 ∨ a = state.toNat := by
      intro a ha
      obtain ⟨cpu, -, rfl⟩ := List.mem_map.mp ha
      rcases hslots cpu with h | h
      · left
        rw [h]
        rfl
      · right
        rw [h]
    rcases hsome with hzero | ⟨cpu, hcpu⟩
    · by_contra hne
      have hzero' : (state.toNat : ℤ) = 0 := by
        rw [hzero]
        rfl
      rw [hzero'] at hne hentries
      exact hne ((hentries _ (firstNonzero_mem hne)).elim id id)
    · apply firstNonzero_of_forall hentries
      have hmem : cpu ∈ order := hperm.mem_iff.mpr (List.mem_finRange cpu)
      exact List.mem_map.mpr ⟨cpu, hmem, by rw [hcpu]⟩

/-! ### The earliest and the latest time -/

theorem foldl_minNonzero {t : ℤ} (ht : t ≠ 0) {l : List ℤ} {acc : ℤ} (hacc : acc = 0 ∨ t ≤ acc)
    (hl : ∀ a ∈ l, a = 0 ∨ t ≤ a) (hmem : acc = t ∨ t ∈ l) : l.foldl minNonzero acc = t := by
  induction l generalizing acc with
  | nil => exact hmem.resolve_right List.not_mem_nil
  | cons a rest ih =>
    rw [List.forall_mem_cons] at hl
    rw [List.foldl_cons]
    apply ih _ hl.2
    · rw [List.mem_cons] at hmem
      rcases hmem with hmem | hmem | hmem
      · left
        unfold minNonzero
        split_ifs <;> omega
      · left
        unfold minNonzero
        split_ifs <;> omega
      · exact .inr hmem
    · unfold minNonzero
      split_ifs <;> omega

theorem foldl_max {t : ℤ} {l : List ℤ} {acc : ℤ} (hacc : acc ≤ t) (hl : ∀ a ∈ l, a ≤ t)
    (hmem : acc = t ∨ t ∈ l) : l.foldl max acc = t := by
  induction l generalizing acc with
  | nil => exact hmem.resolve_right List.not_mem_nil
  | cons a rest ih =>
    rw [List.forall_mem_cons] at hl
    rw [List.foldl_cons]
    apply ih _ hl.2
    · rw [List.mem_cons] at hmem
      rcases hmem with hmem | hmem | hmem
      · left
        omega
      · left
        omega
      · exact .inr hmem
    · omega

section
variable {slots : Fin n → ChannelValue} {order : List (Fin n)}
  (horder : order.Perm (List.finRange n))
include horder

theorem startNs_mergedIn {t : BitVec 64} (ht : t ≠ 0) (hmem : ∃ cpu, (slots cpu).startNs = t)
    (hslots : ∀ cpu, (slots cpu).startNs = 0 ∨ t ≤ (slots cpu).startNs) :
    (mergedIn slots order).startNs = t.toNat := by
  rw [@component_mergedIn n FlowValue.startNs minNonzero (fun _ _ => rfl) rfl]
  apply foldl_minNonzero
  · intro hzero
    exact ht (BitVec.eq_of_toNat_eq (Int.natCast_eq_zero.mp hzero))
  · exact .inl rfl
  · intro a ha
    obtain ⟨cpu, -, rfl⟩ := List.mem_map.mp ha
    rcases hslots cpu with h | h
    · left
      show ((slots cpu).startNs.toNat : ℤ) = 0
      rw [h]
      rfl
    · right
      exact Int.ofNat_le.mpr h
  · obtain ⟨cpu, hcpu⟩ := hmem
    right
    have hin : cpu ∈ order := horder.mem_iff.mpr (List.mem_finRange cpu)
    exact List.mem_map.mpr ⟨cpu, hin, by rw [← hcpu]; rfl⟩

theorem lastNs_mergedIn {t : BitVec 64} (hmem : ∃ cpu, (slots cpu).lastNs = t)
    (hslots : ∀ cpu, (slots cpu).lastNs ≤ t) : (mergedIn slots order).lastNs = t.toNat := by
  rw [@component_mergedIn n FlowValue.lastNs max (fun _ _ => rfl) rfl]
  apply foldl_max
  · exact Int.natCast_nonneg _
  · intro a ha
    obtain ⟨cpu, -, rfl⟩ := List.mem_map.mp ha
    exact Int.ofNat_le.mpr (hslots cpu)
  · obtain ⟨cpu, hcpu⟩ := hmem
    right
    have hin : cpu ∈ order := horder.mem_iff.mpr (List.mem_finRange cpu)
    exact List.mem_map.mpr ⟨cpu, hin, by rw [← hcpu]; rfl⟩

theorem field_mergedIn (f : FlowField) :
    FlowCounters.field f (mergedIn slots order).counters = slotsLevel slots f := by
  have hzero : FlowCounters.field f FlowValue.zero.counters = 0 := by cases f <;> rfl
  have hslot : ∀ v : ChannelValue,
      FlowCounters.field f v.decode.counters = ((v.counter f).toNat : ℤ) :=
    fun v => by cases f <;> rfl
  rw [mergedIn, counters_foldl_merge, hzero, zero_add, List.map_map,
    (horder.map _).sum_eq, ← List.ofFn_eq_map, List.sum_ofFn]
  exact Finset.sum_congr rfl fun cpu _ => hslot _

end

end UdpAnalyzer

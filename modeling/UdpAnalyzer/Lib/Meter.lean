import Mathlib.Algebra.BigOperators.Fin
import Mathlib.Algebra.Order.BigOperators.Group.Finset
import UdpAnalyzer.Lib.Ledger
import UdpAnalyzer.Lib.PerCpu

/-! Meters: counters of 64 bits that a machine keeps under keys, one on every CPU, and never
takes out. What is read of a counter is the sum over the CPUs. A run raises it by what its steps
put on it, on whichever CPUs they ran, as long as the sum has not outgrown 64 bits.

The second part makes a meter of a machine that keeps its counters in a per-CPU map: a step looks
a key up, inserts it where it is missing and there is room, and adds to the slot of its CPU. -/

namespace UdpAnalyzer

/-- A machine with counters, and what a step puts on them. -/
structure Meter (σ α K F : Type*) (n : ℕ) where
  step : σ → α → σ
  /-- The counters under a key, if there are any. -/
  slots : σ → K → Option (Fin n → F → BitVec 64)
  amount : σ → α → K → Fin n → F → ℕ
  present_step : ∀ s a k, slots s k ≠ none → slots (step s a) k ≠ none
  slot_step : ∀ s a k cpu f, ((slots (step s a) k).elim 0 fun v => v cpu f) =
    ((slots s k).elim 0 fun v => v cpu f) + BitVec.ofNat 64 (amount s a k cpu f)

namespace Meter

variable {σ α K F : Type*} {n : ℕ} (M : Meter σ α K F n)

/-- A counter on one CPU, zero where the key is missing. -/
def slot (s : σ) (k : K) (cpu : Fin n) (f : F) : BitVec 64 := (M.slots s k).elim 0 fun v => v cpu f

/-- The sum of a counter over the CPUs. -/
def reading (s : σ) (k : K) (f : F) : ℕ := ∑ cpu, (M.slot s k cpu f).toNat

/-- All readings. -/
def counts (s : σ) : Snapshot K F := fun k =>
  (M.slots s k).map fun v f => ∑ cpu, ((v cpu f).toNat : ℤ)

/-- What a run puts on a counter. -/
def metered (k : K) (f : F) : σ → List α → ℕ
  | _, [] => 0
  | s, a :: rest => (∑ cpu, M.amount s a k cpu f) + metered k f (M.step s a) rest

theorem level_counts (s : σ) (k : K) (f : F) : (M.counts s).level k f = M.reading s k f := by
  unfold Snapshot.level counts reading slot
  cases M.slots s k with
  | none => simp
  | some v => simp

theorem counts_ne_none {s : σ} {k : K} : M.counts s k ≠ none ↔ M.slots s k ≠ none := by
  unfold counts
  rw [ne_eq, Option.map_eq_none_iff]

theorem present_foldl {s : σ} {k : K} (h : M.slots s k ≠ none) (as : List α) :
    M.slots (as.foldl M.step s) k ≠ none := by
  induction as generalizing s with
  | nil => exact h
  | cons a rest ih => exact ih (M.present_step s a k h)

/-- One step, while the sum fits. -/
theorem reading_step {s : σ} {a : α} {k : K} {f : F}
    (hfit : M.reading s k f + ∑ cpu, M.amount s a k cpu f < 2 ^ 64) :
    M.reading (M.step s a) k f = M.reading s k f + ∑ cpu, M.amount s a k cpu f := by
  unfold reading at hfit ⊢
  rw [← Finset.sum_add_distrib] at hfit ⊢
  refine Finset.sum_congr rfl fun cpu hcpu => ?_
  have hone : (M.slot s k cpu f).toNat + M.amount s a k cpu f < 2 ^ 64 :=
    lt_of_le_of_lt (Finset.single_le_sum
      (f := fun cpu => (M.slot s k cpu f).toNat + M.amount s a k cpu f)
      (fun _ _ => Nat.zero_le _) hcpu) hfit
  have hslot : M.slot (M.step s a) k cpu f =
      M.slot s k cpu f + BitVec.ofNat 64 (M.amount s a k cpu f) := M.slot_step s a k cpu f
  rw [hslot, BitVec.toNat_add, BitVec.toNat_ofNat, Nat.add_mod_mod, Nat.mod_eq_of_lt hone]

/-- A whole run, while the sum fits. -/
theorem reading_foldl {s : σ} {as : List α} {k : K} {f : F}
    (hfit : M.reading s k f + M.metered k f s as < 2 ^ 64) :
    M.reading (as.foldl M.step s) k f = M.reading s k f + M.metered k f s as := by
  induction as generalizing s with
  | nil => rfl
  | cons a rest ih =>
    rw [metered, ← Nat.add_assoc] at hfit ⊢
    have hstep := M.reading_step (s := s) (a := a) (k := k) (f := f) (by omega)
    rw [← hstep] at hfit ⊢
    exact ih hfit

/-- The gain between two readings of a key that was there at the first is what the run between
them put on it. -/
theorem gain_counts {s : σ} {as : List α} {k : K} {f : F} (hpresent : M.slots s k ≠ none)
    (hfit : M.reading s k f + M.metered k f s as < 2 ^ 64) :
    Snapshot.gain (M.counts s) (M.counts (as.foldl M.step s)) k f = M.metered k f s as := by
  rw [Snapshot.gain_eq_level (M.counts_ne_none.mpr hpresent)
    (M.counts_ne_none.mpr (M.present_foldl hpresent as)), level_counts, level_counts,
    M.reading_foldl hfit]
  omega

/-! ### Charges that do not depend on the state -/

section
variable {k : K} {f : F} {charged : α → ℕ}

/-- A run puts on a counter of a key that is there all its steps are charged. -/
theorem metered_eq_sum
    (h : ∀ s a, M.slots s k ≠ none → ∑ cpu, M.amount s a k cpu f = charged a) {s : σ}
    (hpresent : M.slots s k ≠ none) (as : List α) :
    M.metered k f s as = (as.map charged).sum := by
  induction as generalizing s with
  | nil => rfl
  | cons a rest ih =>
    rw [metered, h s a hpresent, ih (M.present_step s a k hpresent), List.map_cons, List.sum_cons]

theorem metered_le_sum (h : ∀ s a, ∑ cpu, M.amount s a k cpu f ≤ charged a) (s : σ) (as : List α) :
    M.metered k f s as ≤ (as.map charged).sum := by
  induction as generalizing s with
  | nil => exact le_rfl
  | cons a rest ih =>
    rw [metered, List.map_cons, List.sum_cons]
    exact add_le_add (h s a) (ih _)

/-- Between two readings of a run that started with nothing, a key that was there at the first
gains what the steps between them are charged. -/
theorem gain_eq_sum (hle : ∀ s a, ∑ cpu, M.amount s a k cpu f ≤ charged a)
    (heq : ∀ s a, M.slots s k ≠ none → ∑ cpu, M.amount s a k cpu f = charged a) {s : σ}
    (hstart : M.reading s k f = 0) {as bs : List α} (hpresent : M.slots (as.foldl M.step s) k ≠ none)
    (hfit : ((as ++ bs).map charged).sum < 2 ^ 64) :
    Snapshot.gain (M.counts (as.foldl M.step s)) (M.counts ((as ++ bs).foldl M.step s)) k f =
      ((bs.map charged).sum : ℕ) := by
  have has := M.metered_le_sum hle s as
  have hbs := M.metered_eq_sum heq hpresent bs
  rw [List.map_append, List.sum_append] at hfit
  have hread : M.reading (as.foldl M.step s) k f = M.reading s k f + M.metered k f s as :=
    M.reading_foldl (by omega)
  rw [List.foldl_append, M.gain_counts hpresent (by omega), hbs]

end

end Meter

/-! ### Counters in a per-CPU map -/

theorem ite_le_ite_of_imp {p q : Prop} [Decidable p] [Decidable q] (h : p → q) (x : ℕ) :
    (if p then x else 0) ≤ if q then x else 0 := by
  split_ifs with hp hq
  · exact le_rfl
  · exact absurd (h hp) hq
  · exact Nat.zero_le _
  · exact le_rfl

/-- What a step does to one record. -/
structure Account (n : ℕ) (K V : Type*) where
  cpu : Fin n
  room : Bool
  key : K
  /-- The record a missing key starts from on this CPU. -/
  fresh : V
  add : V → V

namespace PerCpuMap

variable {n : ℕ} {K V : Type*} [DecidableEq K]

/-- Look the key up, insert it where nothing is found, look again, and write through the pointer
that was found. A key there is no room for is left out. -/
def account (m : PerCpuMap n K V) (zero : V) (e : Account n K V) : PerCpuMap n K V :=
  let m := if (m.lookupElem e.cpu e.key).isNone then m.updateNoExist e.room e.cpu e.key e.fresh zero
    else m
  match m.lookupElem e.cpu e.key with
  | none => m
  | some value => m.writeSlot e.cpu e.key (e.add value)

/-- What is under a key after an account, if what is added to a fresh record is the same as what
is added to zero. -/
theorem get?_account (m : PerCpuMap n K V) {zero : V} {e : Account n K V}
    (hfresh : e.add e.fresh = e.add zero) (k : K) :
    (m.account zero e).get? k =
      if k = e.key ∧ (k ∈ m ∨ e.room = true) then
        some (Function.update (m.slot zero k) e.cpu (e.add (m.slot zero k e.cpu)))
      else m.get? k := by
  unfold account slot
  cases hget : m.get? e.key with
  | some slots =>
    have hmem : e.key ∈ m := Dict.get?_isSome.mp (by rw [hget]; rfl)
    simp only [lookupElem_of_get? hget, Option.isNone_some, Bool.false_eq_true, if_false]
    rw [get?_writeSlot hget]
    by_cases hk : k = e.key
    · subst hk
      rw [if_pos rfl, if_pos ⟨rfl, .inl hmem⟩, hget]
      rfl
    · rw [if_neg hk, if_neg fun h => hk h.1]
  | none =>
    have hmem : e.key ∉ m := Dict.get?_eq_none.mp hget
    simp only [lookupElem_of_missing hget, Option.isNone_none, if_true]
    cases hroom : e.room with
    | true =>
      have hinserted := get?_updateNoExist hget e.cpu e.fresh zero
      simp only [lookupElem_of_get? hinserted]
      rw [get?_writeSlot hinserted]
      by_cases hk : k = e.key
      · subst hk
        rw [if_pos rfl, if_pos ⟨rfl, .inr trivial⟩, hget, Function.update_self, hfresh,
          Function.update_idem]
        rfl
      · have hkept : (m.updateNoExist true e.cpu e.key e.fresh zero).get? k = m.get? k := by
          unfold updateNoExist
          rw [if_neg (by simpa using hmem)]
          exact Dict.get?_set_of_ne m _ hk
        rw [if_neg hk, if_neg fun h => hk h.1, hkept]
    | false =>
      simp only [updateNoExist_of_full, lookupElem_of_missing hget]
      rw [if_neg fun h => h.2.elim (fun h' => hmem (h.1 ▸ h')) Bool.false_ne_true]

end PerCpuMap

/-- A machine that keeps counters in a per-CPU map. -/
structure AccountedTable (σ α K V F : Type*) (n : ℕ) [DecidableEq K] where
  step : σ → α → σ
  table : σ → PerCpuMap n K V
  zero : V
  field : F → V → BitVec 64
  /-- What a step accounts, if anything. -/
  entry : α → Option (Account n K V)
  amount : α → F → ℕ
  field_zero : ∀ f, field f zero = 0
  table_step : ∀ s a, table (step s a) = (entry a).elim (table s) ((table s).account zero)
  fresh : ∀ a, ∀ e ∈ entry a, e.add e.fresh = e.add zero
  field_add : ∀ a, ∀ e ∈ entry a, ∀ f v, field f (e.add v) = field f v + BitVec.ofNat 64 (amount a f)

namespace AccountedTable

variable {σ α K V F : Type*} {n : ℕ} [DecidableEq K] (T : AccountedTable σ α K V F n)

/-- What a step puts on a counter: nothing where the key is missing and there is no room. -/
def put (s : σ) (a : α) (k : K) (cpu : Fin n) (f : F) : ℕ :=
  (T.entry a).elim 0 fun e =>
    if k = e.key ∧ cpu = e.cpu ∧ (k ∈ T.table s ∨ e.room = true) then T.amount a f else 0

/-- What a step is charged for a counter. -/
def charged (k : K) (f : F) (a : α) : ℕ :=
  (T.entry a).elim 0 fun e => if k = e.key then T.amount a f else 0

theorem get?_step (s : σ) (a : α) (k : K) : (T.table (T.step s a)).get? k =
    (T.entry a).elim ((T.table s).get? k) fun e =>
      if k = e.key ∧ (k ∈ T.table s ∨ e.room = true) then
        some (Function.update ((T.table s).slot T.zero k) e.cpu
          (e.add ((T.table s).slot T.zero k e.cpu)))
      else (T.table s).get? k := by
  rw [T.table_step]
  cases hentry : T.entry a with
  | none => rfl
  | some e => exact PerCpuMap.get?_account _ (T.fresh a e hentry) k

theorem field_slot (s : σ) (k : K) (cpu : Fin n) (f : F) :
    T.field f ((T.table s).slot T.zero k cpu) =
      (((T.table s).get? k).map fun v cpu f => T.field f (v cpu)).elim 0 fun v => v cpu f := by
  unfold PerCpuMap.slot
  cases (T.table s).get? k with
  | none => exact T.field_zero f
  | some slots => rfl

/-- The meter of the counters. -/
def meter : Meter σ α K F n where
  step := T.step
  slots s k := ((T.table s).get? k).map fun v cpu f => T.field f (v cpu)
  amount := T.put
  present_step s a k h := by
    rw [ne_eq, Option.map_eq_none_iff] at h ⊢
    rw [T.get?_step]
    cases T.entry a with
    | none => exact h
    | some e =>
      show ¬ ite _ _ _ = none
      split_ifs
      · exact not_false
      · exact h
  slot_step s a k cpu f := by
    rw [← T.field_slot, ← T.field_slot, PerCpuMap.slot, T.get?_step, put]
    cases hentry : T.entry a with
    | none => exact (BitVec.add_zero _).symm
    | some e =>
      show T.field f (((ite _ _ _ : Option (Fin n → V)).map _).getD _) = _ + BitVec.ofNat 64 (ite _ _ _)
      by_cases hkey : k = e.key ∧ (k ∈ T.table s ∨ e.room = true)
      · rw [if_pos hkey, Option.map_some, Option.getD_some]
        by_cases hcpu : cpu = e.cpu
        · rw [if_pos ⟨hkey.1, hcpu, hkey.2⟩, hcpu, Function.update_self, T.field_add a e hentry]
        · rw [if_neg fun h => hcpu h.2.1, Function.update_of_ne hcpu]
          exact (BitVec.add_zero _).symm
      · rw [if_neg hkey, if_neg fun h => hkey ⟨h.1, h.2.2⟩]
        exact (BitVec.add_zero _).symm

/-- A step runs on one CPU. -/
theorem sum_put (s : σ) (a : α) (k : K) (f : F) : ∑ cpu, T.put s a k cpu f =
    (T.entry a).elim 0 fun e =>
      if k = e.key ∧ (k ∈ T.table s ∨ e.room = true) then T.amount a f else 0 := by
  unfold put
  cases T.entry a with
  | none => exact Finset.sum_const_zero
  | some e =>
    show ∑ cpu, ite _ _ _ = ite _ _ _
    by_cases hkey : k = e.key ∧ (k ∈ T.table s ∨ e.room = true)
    · rw [if_pos hkey, Finset.sum_congr rfl fun cpu _ =>
        if_congr (show _ ↔ cpu = e.cpu from ⟨fun h => h.2.1, fun h => ⟨hkey.1, h, hkey.2⟩⟩) rfl rfl,
        Finset.sum_ite_eq' Finset.univ e.cpu fun _ => T.amount a f, if_pos (Finset.mem_univ _)]
    · rw [if_neg hkey]
      exact Finset.sum_eq_zero fun cpu _ => if_neg fun h => hkey ⟨h.1, h.2.2⟩

theorem sum_put_le (k : K) (f : F) (s : σ) (a : α) : ∑ cpu, T.put s a k cpu f ≤ T.charged k f a := by
  rw [T.sum_put, charged]
  cases T.entry a with
  | none => exact le_rfl
  | some e => exact ite_le_ite_of_imp And.left _

theorem sum_put_eq (k : K) (f : F) (s : σ) (a : α) (h : T.meter.slots s k ≠ none) :
    ∑ cpu, T.put s a k cpu f = T.charged k f a := by
  have hmem : k ∈ T.table s := Dict.get?_isSome.mp <| Option.isSome_iff_ne_none.mpr fun hnone =>
    h (Option.map_eq_none_iff.mpr hnone)
  rw [T.sum_put, charged]
  cases T.entry a with
  | none => rfl
  | some e => exact if_congr (and_iff_left (.inl hmem)) rfl rfl

/-- What a run is charged for a counter. -/
def chargedIn (k : K) (f : F) (as : List α) : ℕ := (as.map (T.charged k f)).sum

theorem chargedIn_append (k : K) (f : F) (as bs : List α) :
    T.chargedIn k f (as ++ bs) = T.chargedIn k f as + T.chargedIn k f bs := by
  unfold chargedIn
  rw [List.map_append, List.sum_append]

/-- All counters of the table. -/
def counts (s : σ) : Snapshot K F := fun k =>
  ((T.table s).get? k).map fun v f => ∑ cpu, ((T.field f (v cpu)).toNat : ℤ)

theorem counts_eq (s : σ) : T.counts s = T.meter.counts s := by
  funext k
  show _ = (((T.table s).get? k).map _).map _
  rw [Option.map_map]
  rfl

/-- Between two readings of a table that started empty, a key that was there at the first gains
what the steps between them are charged, as long as the whole run fits 64 bits. -/
theorem gain_eq_chargedIn {k : K} {f : F} {s : σ} (hempty : (T.table s).get? k = none)
    {as bs : List α} (hpresent : k ∈ T.table (as.foldl T.step s))
    (hfit : T.chargedIn k f (as ++ bs) < 2 ^ 64) :
    Snapshot.gain (T.counts (as.foldl T.step s)) (T.counts ((as ++ bs).foldl T.step s)) k f =
      T.chargedIn k f bs := by
  have hstart : T.meter.reading s k f = 0 := by
    refine Finset.sum_eq_zero fun cpu _ => ?_
    show ((((T.table s).get? k).map _).elim 0 _ : BitVec 64).toNat = 0
    rw [hempty]
    rfl
  have hslots : T.meter.slots (as.foldl T.meter.step s) k ≠ none := by
    show ((T.table (as.foldl T.step s)).get? k).map _ ≠ none
    rw [ne_eq, Option.map_eq_none_iff, Dict.get?_eq_none]
    exact not_not.mpr hpresent
  rw [T.counts_eq, T.counts_eq]
  exact T.meter.gain_eq_sum (T.sum_put_le k f) (T.sum_put_eq k f) hstart hslots hfit

/-- A key that is there after a step was there before it or is the one the step accounts. -/
theorem mem_step {s : σ} {a : α} {k : K} (h : k ∈ T.table (T.step s a)) :
    k ∈ T.table s ∨ ∃ e ∈ T.entry a, k = e.key := by
  rw [← Dict.get?_isSome, T.get?_step] at h
  cases hentry : T.entry a with
  | none =>
    rw [hentry] at h
    exact .inl (Dict.get?_isSome.mp h)
  | some e =>
    rw [hentry, Option.elim_some] at h
    split_ifs at h with hkey
    · exact .inr ⟨e, rfl, hkey.1⟩
    · exact .inl (Dict.get?_isSome.mp h)

/-- A key that is there after a run was there at the start or was accounted by a step. -/
theorem mem_start_or_entry {s : σ} {as : List α} {k : K} (h : k ∈ T.table (as.foldl T.step s)) :
    k ∈ T.table s ∨ ∃ a ∈ as, ∃ e ∈ T.entry a, k = e.key := by
  induction as using List.reverseRecOn with
  | nil => exact .inl h
  | append_singleton as a ih =>
    rw [List.foldl_append] at h
    rcases T.mem_step h with hbefore | he
    · rcases ih hbefore with hstart | ⟨b, hb, he⟩
      · exact .inl hstart
      · exact .inr ⟨b, List.mem_append_left _ hb, he⟩
    · exact .inr ⟨a, List.mem_append_right _ (List.mem_singleton_self a), he⟩

theorem mem_foldl {k : K} {s : σ} (h : k ∈ T.table s) (as : List α) :
    k ∈ T.table (as.foldl T.step s) := by
  have hslots : T.meter.slots s k ≠ none := by
    show ((T.table s).get? k).map _ ≠ none
    rw [ne_eq, Option.map_eq_none_iff, Dict.get?_eq_none]
    exact not_not.mpr h
  have hkept := T.meter.present_foldl hslots as
  change ((T.table (as.foldl T.step s)).get? k).map _ ≠ none at hkept
  rw [ne_eq, Option.map_eq_none_iff, Dict.get?_eq_none] at hkept
  exact not_not.mp hkept

end AccountedTable

end UdpAnalyzer

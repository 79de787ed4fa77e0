import Mathlib.Algebra.BigOperators.Fin
import Mathlib.Tactic.Abel
import UdpAnalyzer.Lib.Dict

/-! Hash maps with a slot for every CPU under each key, as a program sees them that runs on
one CPU: it finds and writes the slot of its own CPU, and a key it inserts is there for
all of them. -/

namespace UdpAnalyzer

instance neZeroOneCpu : NeZero 1 := inferInstance

instance neZeroTwoCpus : NeZero 2 := inferInstance

/-- A map with a slot for each of `n` CPUs under every key. -/
abbrev PerCpuMap (n : ℕ) (K V : Type*) := Dict K (Fin n → V)

namespace PerCpuMap

variable {n : ℕ} {K V M : Type*} [DecidableEq K]

/-- `bpf_map_lookup_elem`: the slot of the current CPU. -/
def lookupElem (m : PerCpuMap n K V) (cpu : Fin n) (key : K) : Option V :=
  (m.get? key).map fun slots => slots cpu

/-- `bpf_map_update_elem` with `BPF_NOEXIST`: the current CPU gets the value, the slots of
the others start at zero. Without room nothing is inserted. -/
def updateNoExist (m : PerCpuMap n K V) (room : Bool) (cpu : Fin n) (key : K) (value zero : V) :
    PerCpuMap n K V :=
  if key ∈ m ∨ room = false then m
  else m.set key (Function.update (fun _ => zero) cpu value)

/-- A write through the pointer of a lookup. -/
def writeSlot (m : PerCpuMap n K V) (cpu : Fin n) (key : K) (value : V) : PerCpuMap n K V :=
  match m.get? key with
  | none => m
  | some slots => m.set key (Function.update slots cpu value)

/-- The slot of a CPU, zero where the key is missing. -/
def slot (m : PerCpuMap n K V) (zero : V) (key : K) (cpu : Fin n) : V :=
  ((m.get? key).map fun slots => slots cpu).getD zero

/-- A quantity summed over all keys and CPUs. -/
def total [AddCommMonoid M] (f : V → M) (m : PerCpuMap n K V) : M :=
  (m.items.map fun entry => ∑ cpu, f (entry.2 cpu)).sum

omit [DecidableEq K] in
theorem sum_update [AddCommMonoid M] {ι : Type*} [Fintype ι] [DecidableEq ι] (f : V → M)
    (slots : ι → V) (i : ι) (value : V) :
    ∑ j, f (Function.update slots i value j) + f (slots i) = ∑ j, f (slots j) + f value := by
  have hcomp : (fun j => f (Function.update slots i value j)) =
      Function.update (fun j => f (slots j)) i (f value) := by
    funext j
    by_cases h : j = i
    · subst h
      rw [Function.update_self, Function.update_self]
    · rw [Function.update_of_ne h, Function.update_of_ne h]
  rw [hcomp, Finset.sum_update_of_mem (Finset.mem_univ i), Finset.sdiff_singleton_eq_erase,
    ← Finset.add_sum_erase _ _ (Finset.mem_univ i)]
  abel

/-- Setting the slots of a key replaces what its slots add to a total. -/
theorem total_set [AddCommMonoid M] (f : V → M) (m : PerCpuMap n K V) (key : K)
    (slots : Fin n → V) :
    total f (m.set key slots) + ((m.get? key).map fun old => ∑ cpu, f (old cpu)).getD 0 =
      total f m + ∑ cpu, f (slots cpu) := by
  obtain ⟨items, hnodup⟩ := m
  unfold total Dict.get? Dict.set
  dsimp only
  clear hnodup
  induction items with
  | nil => simp [Dict.setItems]
  | cons entry rest ih =>
    obtain ⟨key', old⟩ := entry
    by_cases h : key' = key
    · subst h
      simp only [Dict.setItems, if_true, List.lookup_cons_self, Option.map_some, Option.getD_some,
        List.map_cons, List.sum_cons]
      abel
    · have hne : key ≠ key' := fun hsame => h hsame.symm
      simp only [Dict.setItems, h, if_false, Dict.lookup_cons_of_ne hne, List.map_cons,
        List.sum_cons, add_assoc, ih]

/-! ### Looking a key up, inserting it where it is missing, looking again -/

theorem lookupElem_of_get? {m : PerCpuMap n K V} {key : K} {slots : Fin n → V}
    (h : m.get? key = some slots) (cpu : Fin n) : m.lookupElem cpu key = some (slots cpu) := by
  rw [lookupElem, h, Option.map_some]

theorem lookupElem_of_missing {m : PerCpuMap n K V} {key : K} (h : m.get? key = none)
    (cpu : Fin n) : m.lookupElem cpu key = none := by
  rw [lookupElem, h, Option.map_none]

theorem get?_writeSlot {m : PerCpuMap n K V} {key : K} {slots : Fin n → V}
    (h : m.get? key = some slots) (cpu : Fin n) (value : V) (k : K) :
    (m.writeSlot cpu key value).get? k =
      if k = key then some (Function.update slots cpu value) else m.get? k := by
  unfold writeSlot
  rw [h]
  exact Dict.get?_set m key _ k

theorem get?_updateNoExist {m : PerCpuMap n K V} {key : K} (h : m.get? key = none) (cpu : Fin n)
    (value zero : V) :
    (m.updateNoExist true cpu key value zero).get? key =
      some (Function.update (fun _ => zero) cpu value) := by
  have hnew : ¬ (key ∈ m ∨ true = false) := by
    rw [not_or]
    exact ⟨Dict.get?_eq_none.mp h, by decide⟩
  unfold updateNoExist
  rw [if_neg hnew]
  exact Dict.get?_set_self m key _

theorem updateNoExist_of_full (m : PerCpuMap n K V) (cpu : Fin n) (key : K) (value zero : V) :
    m.updateNoExist false cpu key value zero = m := by
  unfold updateNoExist
  rw [if_pos (.inr rfl)]

/-- A slot after a write through the pointer of a lookup. -/
theorem slot_writeSlot {m : PerCpuMap n K V} {cpu : Fin n} {key : K} {old : V}
    (h : m.lookupElem cpu key = some old) (value zero : V) (k : K) (c : Fin n) :
    slot (m.writeSlot cpu key value) zero k c =
      if k = key ∧ c = cpu then value else slot m zero k c := by
  obtain ⟨slots, hslots, -⟩ := Option.map_eq_some_iff.mp h
  unfold slot
  rw [get?_writeSlot hslots]
  by_cases hk : k = key
  · subst hk
    rw [if_pos rfl, hslots, Option.map_some, Option.map_some, Option.getD_some, Option.getD_some]
    by_cases hc : c = cpu
    · rw [if_pos ⟨rfl, hc⟩, hc, Function.update_self]
    · rw [if_neg fun hboth => hc hboth.2, Function.update_of_ne hc]
  · rw [if_neg hk, if_neg fun hboth => hk hboth.1]

/-- A key inserted with zeros reads as a missing one. -/
theorem slot_updateNoExist (m : PerCpuMap n K V) (room : Bool) (cpu : Fin n) (key : K) (zero : V)
    (k : K) (c : Fin n) :
    slot (m.updateNoExist room cpu key zero zero) zero k c = slot m zero k c := by
  unfold updateNoExist
  split_ifs with h
  · rfl
  · have hmissing : m.get? key = none := Dict.get?_eq_none.mpr fun hmem => h (.inl hmem)
    unfold slot
    rw [Dict.get?_set]
    by_cases hk : k = key
    · subst hk
      rw [if_pos rfl, hmissing, Function.update_eq_self]
      rfl
    · rw [if_neg hk]

/-- A write changes a total by what the slot changes. -/
theorem total_writeSlot [AddCancelCommMonoid M] (f : V → M) {m : PerCpuMap n K V} {cpu : Fin n}
    {key : K} {old : V} (h : m.lookupElem cpu key = some old) (value : V) :
    total f (m.writeSlot cpu key value) + f old = total f m + f value := by
  obtain ⟨slots, hslots, rfl⟩ := Option.map_eq_some_iff.mp h
  have hset := total_set f m key (Function.update slots cpu value)
  have hupdate := sum_update f slots cpu value
  rw [hslots, Option.map_some, Option.getD_some] at hset
  unfold writeSlot
  rw [hslots]
  dsimp only
  refine @add_right_cancel M _ _ _ (∑ c, f (slots c)) _ ?_
  calc total f (m.set key (Function.update slots cpu value)) + f (slots cpu) + ∑ c, f (slots c)
      = total f m + (∑ c, f (Function.update slots cpu value c) + f (slots cpu)) := by
        rw [add_right_comm, hset, add_assoc]
    _ = total f m + f value + ∑ c, f (slots c) := by
        rw [hupdate, add_comm (∑ c, f (slots c)), add_assoc]

/-- Inserting zeros adds nothing to a total. -/
theorem total_updateNoExist [AddCommMonoid M] (f : V → M) (m : PerCpuMap n K V) (room : Bool)
    (cpu : Fin n) (key : K) {zero : V} (hzero : f zero = 0) :
    total f (m.updateNoExist room cpu key zero zero) = total f m := by
  unfold updateNoExist
  split_ifs with h
  · rfl
  · have hmissing : m.get? key = none := Dict.get?_eq_none.mpr fun hmem => h (.inl hmem)
    have hset := total_set f m key (Function.update (fun _ => zero) cpu zero)
    rw [hmissing, Function.update_eq_self] at hset
    simpa [hzero] using hset

end PerCpuMap

end UdpAnalyzer

import Mathlib.Data.List.Basic

/-! A store after several runs that leave rows in it, one list of rows for each run: a store
every run appends to, and a store a run with rows writes anew. -/

namespace UdpAnalyzer

variable {α : Type}

def appendRun (store rows : List α) : List α := store ++ rows

/-- A run without rows leaves the store alone. -/
def replaceRun (store rows : List α) : List α := if rows = [] then store else rows

theorem replaceRun_nil (store : List α) : replaceRun store [] = store := if_pos rfl

theorem replaceRun_of_ne_nil {rows : List α} (h : rows ≠ []) (store : List α) :
    replaceRun store rows = rows := if_neg h

theorem replaceRun_replaceRun (store rows : List α) :
    replaceRun (replaceRun store rows) rows = replaceRun store rows := by
  by_cases h : rows = []
  · rw [h, replaceRun_nil]
  · rw [replaceRun_of_ne_nil h, replaceRun_of_ne_nil h]

theorem foldl_appendRun (runs : List (List α)) (store : List α) :
    runs.foldl appendRun store = store ++ runs.flatten := by
  induction runs generalizing store with
  | nil => exact (List.append_nil store).symm
  | cons rows rest ih => rw [List.foldl_cons, ih, appendRun, List.flatten_cons, List.append_assoc]

/-- What a store that is written anew holds in the end: the rows of the last run with any. -/
theorem foldl_replaceRun (runs : List (List α)) (store : List α) :
    runs.foldl replaceRun store = (runs.filter (· ≠ [])).getLastD store := by
  induction runs generalizing store with
  | nil => rfl
  | cons rows rest ih =>
    rw [List.foldl_cons, ih]
    by_cases h : rows = []
    · subst h
      rw [replaceRun_nil, List.filter_cons_of_neg (by simp)]
    · rw [replaceRun_of_ne_nil h, List.filter_cons_of_pos (by simpa using h),
        List.getLastD_cons]

/-- Lists with an element each are together no longer than the last of them only when there is
no other. -/
theorem length_flatten_eq_getLastD_iff {parts : List (List α)} (h : ∀ part ∈ parts, part ≠ []) :
    parts.flatten.length = (parts.getLastD []).length ↔ parts.length ≤ 1 := by
  obtain rfl | ⟨front, last, rfl⟩ := List.eq_nil_or_concat' parts
  · simp
  · have hfront : front.flatten = [] ↔ front = [] := by
      rw [List.flatten_eq_nil_iff]
      constructor
      · intro hall
        refine List.eq_nil_iff_forall_not_mem.mpr fun part hmem => ?_
        exact h part (List.mem_append_left _ hmem) (hall part hmem)
      · rintro rfl
        exact fun part hmem => absurd hmem List.not_mem_nil
    have hone : front.length + 1 ≤ 1 ↔ front = [] := by
      rw [← List.length_eq_zero_iff]
      omega
    rw [List.flatten_append, List.length_append, List.flatten_singleton, List.getLastD_concat,
      List.length_append, List.length_singleton, Nat.add_eq_right, List.length_eq_zero_iff, hfront,
      hone]

/-- A store that is written anew keeps everything exactly when at most one run has rows. -/
theorem flatten_eq_foldl_replaceRun_iff (runs : List (List α)) :
    runs.flatten = runs.foldl replaceRun [] ↔ (runs.filter (· ≠ [])).length ≤ 1 := by
  have hparts : ∀ part ∈ runs.filter (· ≠ []), part ≠ [] :=
    fun part hmem => by simpa using (List.mem_filter.mp hmem).2
  rw [foldl_replaceRun, ← List.flatten_filter_ne_nil]
  constructor
  · exact fun h => (length_flatten_eq_getLastD_iff hparts).mp (congrArg List.length h)
  · intro h
    obtain hnone | ⟨rows, hone⟩ : runs.filter (· ≠ []) = [] ∨
        ∃ rows, runs.filter (· ≠ []) = [rows] := by
      rw [← List.length_eq_zero_iff, ← List.length_eq_one_iff]
      omega
    · rw [hnone]
      rfl
    · rw [hone, List.flatten_singleton]
      rfl

end UdpAnalyzer

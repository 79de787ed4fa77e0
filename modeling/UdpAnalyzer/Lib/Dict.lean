import Mathlib.Data.List.Nodup

/-! Dictionaries that remember insertion order, as the dictionaries of the
modelled language do: assigning to a key that is present keeps its place,
assigning to a new key appends it. Distinctness of the keys is part of the
type, so a lookup is the same thing as membership of the pair. -/

namespace UdpAnalyzer

/-- An insertion-ordered dictionary. -/
structure Dict (K V : Type*) where
  items : List (K × V)
  nodup : (items.map Prod.fst).Nodup

namespace Dict

variable {K V W : Type*}

instance : EmptyCollection (Dict K V) := ⟨⟨[], List.nodup_nil⟩⟩

def keys (d : Dict K V) : List K := d.items.map Prod.fst

instance : Membership K (Dict K V) := ⟨fun d k => k ∈ d.keys⟩

theorem mem_def {d : Dict K V} {k : K} : k ∈ d ↔ k ∈ d.keys := Iff.rfl

variable [DecidableEq K]

instance (d : Dict K V) (k : K) : Decidable (k ∈ d) :=
  inferInstanceAs (Decidable (k ∈ d.keys))

def get? (d : Dict K V) (k : K) : Option V := d.items.lookup k

/-- Overwrite in place, or append. -/
def setItems (k : K) (v : V) : List (K × V) → List (K × V)
  | [] => [(k, v)]
  | (k', v') :: rest => if k' = k then (k, v) :: rest else (k', v') :: setItems k v rest

theorem setItems_keys (k : K) (v : V) (l : List (K × V)) :
    (setItems k v l).map Prod.fst =
      if k ∈ l.map Prod.fst then l.map Prod.fst else l.map Prod.fst ++ [k] := by
  induction l with
  | nil => simp [setItems]
  | cons p rest ih =>
    obtain ⟨k', v'⟩ := p
    by_cases hk : k' = k
    · subst hk; simp [setItems]
    · have hk' : k ≠ k' := fun h => hk h.symm
      simp only [setItems, hk, if_false, List.map_cons, ih, List.mem_cons, hk', false_or]
      split_ifs <;> simp

def set (d : Dict K V) (k : K) (v : V) : Dict K V where
  items := setItems k v d.items
  nodup := by
    rw [setItems_keys]
    split_ifs with h
    · exact d.nodup
    · exact List.nodup_append'.mpr ⟨d.nodup, List.nodup_singleton k,
        List.disjoint_singleton.mpr h⟩

/-- Delete every key that fails the test. -/
def restrict (d : Dict K V) (keep : K → Bool) : Dict K V where
  items := d.items.filter (fun p => keep p.1)
  nodup := d.nodup.sublist (List.filter_sublist.map _)

@[simp] theorem get?_empty (k : K) : (∅ : Dict K V).get? k = none := rfl

omit [DecidableEq K] in
@[simp] theorem items_empty : (∅ : Dict K V).items = [] := rfl

theorem lookup_cons_of_ne {k k' : K} (h : k ≠ k') (v : V) (l : List (K × V)) :
    ((k', v) :: l).lookup k = l.lookup k := by
  rw [List.lookup_cons, beq_eq_false_iff_ne.mpr h]

theorem get?_set (d : Dict K V) (k : K) (v : V) (j : K) :
    (d.set k v).get? j = if j = k then some v else d.get? j := by
  obtain ⟨items, hn⟩ := d
  simp only [get?, set]
  clear hn
  induction items with
  | nil =>
    by_cases hj : j = k
    · subst hj; simp [setItems]
    · simp [setItems, hj]
  | cons p rest ih =>
    obtain ⟨k', v'⟩ := p
    by_cases hk : k' = k
    · subst hk
      by_cases hj : j = k'
      · subst hj; simp [setItems]
      · simp [setItems, lookup_cons_of_ne hj, hj]
    · simp only [setItems, hk, if_false]
      by_cases hj : j = k'
      · subst hj; simp [hk]
      · rw [lookup_cons_of_ne hj, lookup_cons_of_ne hj, ih]

@[simp] theorem get?_set_self (d : Dict K V) (k : K) (v : V) : (d.set k v).get? k = some v := by
  rw [get?_set, if_pos rfl]

theorem get?_set_of_ne (d : Dict K V) {k j : K} (v : V) (h : j ≠ k) :
    (d.set k v).get? j = d.get? j := by
  rw [get?_set, if_neg h]

theorem get?_isSome {d : Dict K V} {k : K} : (d.get? k).isSome ↔ k ∈ d := by
  simp only [get?, List.lookup_isSome_iff, mem_def, keys, List.mem_map, beq_iff_eq]
  exact ⟨fun ⟨p, hp, he⟩ => ⟨p, hp, he.symm⟩, fun ⟨p, hp, he⟩ => ⟨p, hp, he.symm⟩⟩

theorem get?_eq_none {d : Dict K V} {k : K} : d.get? k = none ↔ k ∉ d := by
  rw [← get?_isSome, Bool.not_eq_true, Option.isSome_eq_false_iff, Option.isNone_iff_eq_none]

/-- With distinct keys a pair is found exactly where it is stored. -/
theorem get?_eq_some {d : Dict K V} {k : K} {v : V} : d.get? k = some v ↔ (k, v) ∈ d.items := by
  obtain ⟨items, hn⟩ := d
  simp only [get?]
  induction items with
  | nil => simp
  | cons p rest ih =>
    obtain ⟨k', v'⟩ := p
    rw [List.map_cons, List.nodup_cons] at hn
    by_cases hk : k = k'
    · subst hk
      have habs : (k, v) ∉ rest := fun h => hn.1 (List.mem_map.mpr ⟨_, h, rfl⟩)
      simp [habs, eq_comm]
    · rw [lookup_cons_of_ne hk, ih hn.2]
      simp [hk]

theorem get?_restrict (d : Dict K V) (keep : K → Bool) (k : K) :
    (d.restrict keep).get? k = if keep k then d.get? k else none := by
  by_cases hk : keep k = true
  · rw [if_pos hk]
    ext v
    simp [get?_eq_some, restrict, hk]
  · rw [if_neg hk, get?_eq_none, mem_def, keys, restrict, List.mem_map]
    rintro ⟨p, hp, rfl⟩
    exact hk (List.mem_filter.mp hp).2

theorem mem_restrict {d : Dict K V} {keep : K → Bool} {k : K} :
    k ∈ d.restrict keep ↔ keep k = true ∧ k ∈ d := by
  rw [← get?_isSome, get?_restrict, ← get?_isSome]
  by_cases h : keep k = true <;> simp [h]

/-- The pairs under a key: one or none. -/
theorem filter_items (d : Dict K V) (k : K) :
    d.items.filter (fun p => p.1 = k) = (d.get? k).toList.map fun v => (k, v) := by
  obtain ⟨items, hn⟩ := d
  simp only [get?]
  induction items with
  | nil => rfl
  | cons p rest ih =>
    obtain ⟨k', v'⟩ := p
    rw [List.map_cons, List.nodup_cons] at hn
    by_cases hk : k = k'
    · subst hk
      have hrest : rest.filter (fun p => p.1 = k) = [] := by
        rw [List.filter_eq_nil_iff]
        intro p hp hpk
        exact hn.1 (List.mem_map.mpr ⟨p, hp, of_decide_eq_true hpk⟩)
      simp [hrest]
    · have hk' : ¬ k' = k := fun h => hk h.symm
      rw [lookup_cons_of_ne hk, List.filter_cons, if_neg (by simpa using hk')]
      exact ih hn.2

end Dict

end UdpAnalyzer

import Mathlib.Data.List.Forall2

/-! Computations that may raise: inversion of a step, the ones that return, and the
computations of a list one after the other. -/

namespace UdpAnalyzer

variable {ε α β : Type}

/-- Inversion of one step of a computation that may raise. -/
theorem bind_eq_ok {x : Except ε α} {f : α → Except ε β} {b : β}
    (h : (x >>= f) = .ok b) : ∃ a, x = .ok a ∧ f a = .ok b := by
  cases x with
  | error e => cases h
  | ok a => exact ⟨a, rfl, h⟩

theorem ok_bind (a : α) (f : α → Except ε β) : (Except.ok a >>= f) = f a := rfl

/-- A computation returns. -/
def Returns (x : Except ε α) : Prop := ∃ a, x = .ok a

theorem not_returns_error {e : ε} : ¬ Returns (.error e : Except ε α) := by
  rintro ⟨_, h⟩
  cases h

theorem returns_of_toBool {x : Except ε α} (h : x.toBool = true) : Returns x := by
  cases x with
  | error e => cases h
  | ok a => exact ⟨a, rfl⟩

theorem returns_bind {x : Except ε α} {f : α → Except ε β} :
    Returns (x >>= f) ↔ ∃ a, x = .ok a ∧ Returns (f a) := by
  constructor
  · rintro ⟨b, hb⟩
    obtain ⟨a, ha, hf⟩ := bind_eq_ok hb
    exact ⟨a, ha, b, hf⟩
  · rintro ⟨a, rfl, b, hb⟩
    exact ⟨b, hb⟩

theorem returns_bind_pure {x : Except ε α} {f : α → β} :
    Returns (x >>= fun a => pure (f a)) ↔ Returns x := by
  rw [returns_bind]
  exact ⟨fun ⟨a, ha, _⟩ => ⟨a, ha⟩, fun ⟨a, ha⟩ => ⟨a, ha, f a, rfl⟩⟩

theorem mapM_cons_eq_ok {f : α → Except ε β} {a : α} {rest : List α} {bs : List β} :
    (a :: rest).mapM f = .ok bs ↔ ∃ b bs', f a = .ok b ∧ rest.mapM f = .ok bs' ∧ bs = b :: bs' := by
  rw [List.mapM_cons]
  constructor
  · intro h
    obtain ⟨b, hb, h⟩ := bind_eq_ok h
    obtain ⟨bs', hbs', h⟩ := bind_eq_ok h
    exact ⟨b, bs', hb, hbs', (Except.ok.inj h).symm⟩
  · rintro ⟨b, bs', hb, hbs', rfl⟩
    rw [hb, ok_bind, hbs', ok_bind]
    rfl

theorem mapM_eq_ok_iff {f : α → Except ε β} {l : List α} {bs : List β} :
    l.mapM f = .ok bs ↔ List.Forall₂ (fun a b => f a = .ok b) l bs := by
  induction l generalizing bs with
  | nil =>
    rw [List.mapM_nil, List.forall₂_nil_left_iff]
    exact ⟨fun h => (Except.ok.inj h).symm, fun h => h ▸ rfl⟩
  | cons a rest ih =>
    rw [mapM_cons_eq_ok, List.forall₂_cons_left_iff]
    constructor
    · rintro ⟨b, bs', hb, hrest, rfl⟩
      exact ⟨b, bs', hb, ih.mp hrest, rfl⟩
    · rintro ⟨b, bs', hb, hrest, rfl⟩
      exact ⟨b, bs', hb, ih.mpr hrest, rfl⟩

/-- The partner of a member of the first list. -/
theorem exists_of_forall₂ {α β : Type*} {R : α → β → Prop} {as : List α} {bs : List β}
    (h : List.Forall₂ R as bs) {a : α} (ha : a ∈ as) : ∃ b ∈ bs, R a b := by
  induction h with
  | nil => exact absurd ha List.not_mem_nil
  | @cons a' b' as bs hfirst _ ih =>
    rcases List.mem_cons.mp ha with rfl | hrest
    · exact ⟨b', List.mem_cons_self, hfirst⟩
    · obtain ⟨b, hb, hR⟩ := ih hrest
      exact ⟨b, List.mem_cons_of_mem _ hb, hR⟩

theorem returns_mapM {f : α → Except ε β} {l : List α} :
    Returns (l.mapM f) ↔ ∀ a ∈ l, Returns (f a) := by
  induction l with
  | nil => exact ⟨fun _ _ h => absurd h List.not_mem_nil, fun _ => ⟨[], rfl⟩⟩
  | cons a rest ih =>
    rw [List.forall_mem_cons, ← ih]
    constructor
    · rintro ⟨bs, h⟩
      obtain ⟨b, bs', hb, hrest, _⟩ := mapM_cons_eq_ok.mp h
      exact ⟨⟨b, hb⟩, bs', hrest⟩
    · rintro ⟨⟨b, hb⟩, bs', hrest⟩
      exact ⟨b :: bs', mapM_cons_eq_ok.mpr ⟨b, bs', hb, hrest, rfl⟩⟩

theorem mem_flatten_of_mapM {f : α → Except ε (List β)} {l : List α}
    {parts : List (List β)} (h : l.mapM f = .ok parts) {b : β} :
    b ∈ parts.flatten ↔ ∃ a ∈ l, ∃ part, f a = .ok part ∧ b ∈ part := by
  induction l generalizing parts with
  | nil =>
    cases h
    simp
  | cons a rest ih =>
    obtain ⟨part, parts', hpart, hrest, rfl⟩ := mapM_cons_eq_ok.mp h
    rw [List.flatten_cons, List.mem_append, ih hrest]
    simp [hpart]

/-- What is known of each part is known of all of them together. -/
theorem map_flatten_of_mapM {γ : Type} {f : α → Except ε (List β)} {l : List α}
    {parts : List (List β)} (h : l.mapM f = .ok parts) {g : β → γ} {k : α → List γ}
    (hpart : ∀ a part, f a = .ok part → part.map g = k a) : parts.flatten.map g = l.flatMap k := by
  induction l generalizing parts with
  | nil =>
    cases h
    rfl
  | cons a rest ih =>
    obtain ⟨part, parts', hfirst, hrest, rfl⟩ := mapM_cons_eq_ok.mp h
    rw [List.flatten_cons, List.map_append, List.flatMap_cons, hpart a part hfirst, ih hrest]

/-- A mapped list that is not empty has the parts of its members. -/
theorem returns_of_mem_mapM {f : α → Except ε β} {l : List α} {bs : List β}
    (h : l.mapM f = .ok bs) {a : α} (ha : a ∈ l) : ∃ b, f a = .ok b :=
  returns_mapM.mp ⟨bs, h⟩ a ha

/-- Computations that all return, over the images of a list. -/
theorem mapM_map_eq_ok {γ : Type} {f : β → Except ε γ} {g : α → β} {k : α → γ}
    (h : ∀ a, f (g a) = .ok (k a)) (l : List α) : (l.map g).mapM f = .ok (l.map k) := by
  rw [mapM_eq_ok_iff, List.forall₂_map_left_iff, List.forall₂_map_right_iff]
  exact List.forall₂_same.mpr fun a _ => h a

theorem filterM_map_eq_ok {f : β → Except ε Bool} {g : α → β} {p : α → Bool}
    (h : ∀ a, f (g a) = .ok (p a)) (l : List α) :
    (l.map g).filterM f = .ok ((l.filter p).map g) := by
  have haux : ∀ acc, List.filterAuxM f (l.map g) acc =
      .ok (((l.filter p).map g).reverse ++ acc) := by
    induction l with
    | nil => exact fun acc => rfl
    | cons a rest ih =>
      intro acc
      rw [List.map_cons, List.filterAuxM, h, ok_bind]
      cases hp : p a with
      | true =>
        rw [List.filter_cons_of_pos hp]
        show List.filterAuxM f (rest.map g) (g a :: acc) = _
        rw [ih]
        simp
      | false =>
        rw [List.filter_cons_of_neg (by simp [hp])]
        exact ih acc
  rw [List.filterM, haux, ok_bind, List.append_nil]
  show Except.ok _ = _
  rw [List.reverse_reverse]

/-- Two computations both raise, or both give lists, of the same elements. -/
def SameElements (x y : Except ε (List α)) : Prop :=
  (Returns x ↔ Returns y) ∧ ∀ as bs, x = .ok as → y = .ok bs → ∀ a, a ∈ as ↔ a ∈ bs

theorem sameElements_refl (x : Except ε (List α)) : SameElements x x := by
  refine ⟨Iff.rfl, fun as bs has hbs a => ?_⟩
  rw [Except.ok.inj (has.symm.trans hbs)]

/-- Only what is returned matters. -/
theorem SameElements.congr {x x' y y' : Except ε (List α)} (h : SameElements x' y')
    (hx : ∀ as, x = .ok as ↔ x' = .ok as) (hy : ∀ as, y = .ok as ↔ y' = .ok as) :
    SameElements x y := by
  constructor
  · unfold Returns
    simp only [hx, hy]
    exact h.1
  · intro as bs has hbs
    exact h.2 as bs ((hx as).mp has) ((hy bs).mp hbs)

/-- What is gathered from the same elements is the same. -/
theorem sameElements_gather {f g : α → Except ε (List β)} {l l' : List α}
    (hl : ∀ a, a ∈ l ↔ a ∈ l') (hfg : ∀ a ∈ l, SameElements (f a) (g a)) :
    SameElements (do let parts ← l.mapM f; return parts.flatten)
      (do let parts ← l'.mapM g; return parts.flatten) := by
  constructor
  · rw [returns_bind_pure, returns_bind_pure, returns_mapM, returns_mapM]
    constructor
    · exact fun h a ha => (hfg a ((hl a).mpr ha)).1.mp (h a ((hl a).mpr ha))
    · exact fun h a ha => (hfg a ha).1.mpr (h a ((hl a).mp ha))
  · intro as bs has hbs b
    obtain ⟨parts, hparts, has⟩ := bind_eq_ok has
    obtain ⟨parts', hparts', hbs⟩ := bind_eq_ok hbs
    cases has
    cases hbs
    rw [mem_flatten_of_mapM hparts, mem_flatten_of_mapM hparts']
    constructor
    · rintro ⟨a, ha, part, hpart, hb⟩
      obtain ⟨part', hpart'⟩ := (hfg a ha).1.mp ⟨part, hpart⟩
      exact ⟨a, (hl a).mp ha, part', hpart', ((hfg a ha).2 _ _ hpart hpart' b).mp hb⟩
    · rintro ⟨a, ha, part', hpart', hb⟩
      obtain ⟨part, hpart⟩ := (hfg a ((hl a).mpr ha)).1.mpr ⟨part', hpart'⟩
      exact ⟨a, (hl a).mpr ha, part, hpart, ((hfg a ((hl a).mpr ha)).2 _ _ hpart hpart' b).mpr hb⟩

end UdpAnalyzer

import Mathlib.Logic.Relator
import UdpAnalyzer.Lib.CounterLoop
import UdpAnalyzer.Lib.Except

/-! Two computations of one shape over different data. When the data they start from are
related, so are their results: for computations that may raise, for dictionaries whose keys a
one-to-one relation renames, and for the loops over counters. -/

namespace UdpAnalyzer

/-! ### Computations that may raise -/

section Returning
variable {ε α α' β β' γ : Type} {P : α → α' → Prop} {Q : β → β' → Prop}

/-- Both computations return, with related results, or both raise. -/
inductive BothReturn (P : α → α' → Prop) : Except ε α → Except ε α' → Prop
  | ok {a : α} {a' : α'} (h : P a a') : BothReturn P (.ok a) (.ok a')
  | error (e e' : ε) : BothReturn P (.error e) (.error e')

theorem BothReturn.same {R : α → α → Prop} (h : ∀ a, R a a) (x : Except ε α) : BothReturn R x x := by
  cases x with
  | error e => exact .error e e
  | ok a => exact .ok (h a)

theorem BothReturn.imp {P' : α → α' → Prop} {x : Except ε α} {y : Except ε α'}
    (h : BothReturn P x y) (himp : ∀ a a', P a a' → P' a a') : BothReturn P' x y := by
  cases h with
  | ok h => exact .ok (himp _ _ h)
  | error e e' => exact .error e e'

theorem BothReturn.bind {x : Except ε α} {y : Except ε α'} {f : α → Except ε β}
    {g : α' → Except ε β'} (h : BothReturn P x y)
    (hstep : ∀ a a', P a a' → BothReturn Q (f a) (g a')) : BothReturn Q (x >>= f) (y >>= g) := by
  cases h with
  | ok h => exact hstep _ _ h
  | error e e' => exact .error e e'

/-- Two continuations of one computation. -/
theorem BothReturn.bind_same {x : Except ε α} {f : α → Except ε β} {g : α → Except ε β'}
    (hstep : ∀ a, BothReturn Q (f a) (g a)) : BothReturn Q (x >>= f) (x >>= g) := by
  cases x with
  | error e => exact .error e e
  | ok a => exact hstep a

theorem BothReturn.mapM {f : α → Except ε β} {g : α' → Except ε β'}
    (hstep : ∀ a a', P a a' → BothReturn Q (f a) (g a')) {l : List α} {l' : List α'}
    (h : List.Forall₂ P l l') : BothReturn (List.Forall₂ Q) (l.mapM f) (l'.mapM g) := by
  induction h with
  | nil => exact .ok .nil
  | cons hhead _ ih =>
    rw [List.mapM_cons, List.mapM_cons]
    refine (hstep _ _ hhead).bind fun b b' hb => ih.bind fun bs bs' hbs => ?_
    exact .ok (.cons hb hbs)

/-- Two folds over one list. -/
theorem BothReturn.foldlM {f : α → γ → Except ε α} {g : α' → γ → Except ε α'}
    (hstep : ∀ a a' c, P a a' → BothReturn P (f a c) (g a' c)) (l : List γ) {a : α} {a' : α'}
    (h : P a a') : BothReturn P (l.foldlM f a) (l.foldlM g a') := by
  induction l generalizing a a' with
  | nil => exact .ok h
  | cons c rest ih =>
    rw [List.foldlM_cons, List.foldlM_cons]
    exact (hstep a a' c h).bind fun b b' hb => ih hb

end Returning

/-! ### Dictionaries -/

namespace Dict
variable {K K' V V' : Type*} {R : K → K' → Prop} {S : V → V' → Prop}

/-- The dictionaries have related pairs, in the same order. -/
def Related (R : K → K' → Prop) (S : V → V' → Prop) (d : Dict K V) (d' : Dict K' V') : Prop :=
  List.Forall₂ (fun p q => R p.1 q.1 ∧ S p.2 q.2) d.items d'.items

theorem related_empty : (∅ : Dict K V).Related R S (∅ : Dict K' V') := .nil

variable [DecidableEq K] [DecidableEq K']

theorem Related.get? (hR : Relator.BiUnique R) {d : Dict K V} {d' : Dict K' V'}
    (h : d.Related R S d') {k : K} {k' : K'} (hk : R k k') :
    Option.Rel S (d.get? k) (d'.get? k') := by
  obtain ⟨items, hn⟩ := d
  obtain ⟨items', hn'⟩ := d'
  simp only [Related, Dict.get?] at h ⊢
  clear hn hn'
  induction h with
  | nil => exact .none
  | @cons p q rest rest' hhead _ ih =>
    obtain ⟨j, v⟩ := p
    obtain ⟨j', v'⟩ := q
    have hiff : k = j ↔ k' = j' := Relator.rel_eq hR hk hhead.1
    by_cases hj : k = j
    · rw [List.lookup_cons, List.lookup_cons, beq_iff_eq.mpr hj, beq_iff_eq.mpr (hiff.mp hj)]
      exact .some hhead.2
    · rw [lookup_cons_of_ne hj, lookup_cons_of_ne fun h => hj (hiff.mpr h)]
      exact ih

theorem Related.set (hR : Relator.BiUnique R) {d : Dict K V} {d' : Dict K' V'}
    (h : d.Related R S d') {k : K} {k' : K'} (hk : R k k') {v : V} {v' : V'} (hv : S v v') :
    (d.set k v).Related R S (d'.set k' v') := by
  obtain ⟨items, hn⟩ := d
  obtain ⟨items', hn'⟩ := d'
  simp only [Related, Dict.set] at h ⊢
  clear hn hn'
  induction h with
  | nil => exact .cons ⟨hk, hv⟩ .nil
  | @cons p q rest rest' hhead htail ih =>
    have hiff : p.1 = k ↔ q.1 = k' := Relator.rel_eq hR hhead.1 hk
    by_cases hj : p.1 = k
    · rw [setItems, setItems, if_pos hj, if_pos (hiff.mp hj)]
      exact .cons ⟨hk, hv⟩ htail
    · rw [setItems, setItems, if_neg hj, if_neg fun h => hj (hiff.mpr h)]
      exact .cons hhead ih

theorem Related.mem_iff (hR : Relator.BiUnique R) {d : Dict K V} {d' : Dict K' V'}
    (h : d.Related R S d') {k : K} {k' : K'} (hk : R k k') : k ∈ d ↔ k' ∈ d' := by
  rw [← get?_isSome, ← get?_isSome]
  generalize hd : d.get? k = o, hd' : d'.get? k' = o'
  have hrel := h.get? hR hk
  rw [hd, hd'] at hrel
  cases hrel with
  | some h => exact Iff.rfl
  | none => exact Iff.rfl

omit [DecidableEq K] [DecidableEq K'] in
theorem Related.restrict {d : Dict K V} {d' : Dict K' V'} (h : d.Related R S d')
    {keep : K → Bool} {keep' : K' → Bool} (hkeep : ∀ k k', R k k' → keep k = keep' k') :
    (d.restrict keep).Related R S (d'.restrict keep') := by
  apply List.rel_filter _ h
  intro p q hpq
  show keep p.1 = true ↔ keep' q.1 = true
  rw [hkeep p.1 q.1 hpq.1]

end Dict

/-! ### Loops over counters -/

namespace CounterLoop
variable {E E' I I' C F F' B B' Row Row' σ σ' ε : Type} [DecidableEq I] [DecidableEq I']
  {L : CounterLoop E I C F} {L' : CounterLoop E' I' C F'}

/-- Two loops over the same counters: a relation between entries renames the identities one to
one and keeps the counters. -/
structure Relates (L : CounterLoop E I C F) (L' : CounterLoop E' I' C F') (R : I → I' → Prop)
    (RE : E → E' → Prop) : Prop where
  unique : Relator.BiUnique R
  identity : ∀ {e e'}, RE e e' → R (L.identity e) (L'.identity e')
  counters : ∀ {e e'}, RE e e' → L.counters e = L'.counters e'
  zero : L.zero = L'.zero
  add : L.add = L'.add
  delta : L.delta = L'.delta
  moved : L.moved = L'.moved

/-- Related first entries and the same sum. -/
def SameTally (RE : E → E' → Prop) (t : Tally E C) (t' : Tally E' C) : Prop :=
  RE t.first t'.first ∧ t.total = t'.total

variable {R : I → I' → Prop} {RE : E → E' → Prop}

theorem Relates.tallyEntry (h : Relates L L' R RE) {d : Dict I (Tally E C)}
    {d' : Dict I' (Tally E' C)} (hd : d.Related R (SameTally RE) d') {e : E} {e' : E'}
    (he : RE e e') : (L.tallyEntry d e).Related R (SameTally RE) (L'.tallyEntry d' e') := by
  have hid := h.identity he
  have hcounters := h.counters he
  apply hd.set h.unique hid
  generalize ho : d.get? (L.identity e) = o, ho' : d'.get? (L'.identity e') = o'
  have hget := hd.get? h.unique hid
  rw [ho, ho'] at hget
  cases hget with
  | none =>
    refine ⟨he, ?_⟩
    show L.add L.zero (L.counters e) = L'.add L'.zero (L'.counters e')
    rw [h.add, h.zero, hcounters]
  | @some t t' htally =>
    refine ⟨htally.1, ?_⟩
    show L.add t.total (L.counters e) = L'.add t'.total (L'.counters e')
    rw [h.add, htally.2, hcounters]

theorem Relates.tally (h : Relates L L' R RE) {dump : List E} {dump' : List E'}
    (hdump : List.Forall₂ RE dump dump') :
    (L.tally dump).Related R (SameTally RE) (L'.tally dump') := by
  have hfold : ∀ {d : Dict I (Tally E C)} {d' : Dict I' (Tally E' C)},
      d.Related R (SameTally RE) d' →
      (dump.foldl L.tallyEntry d).Related R (SameTally RE) (dump'.foldl L'.tallyEntry d') := by
    induction hdump with
    | nil => exact fun hd => hd
    | cons he _ ih => exact fun hd => ih (h.tallyEntry hd he)
  exact hfold Dict.related_empty

/-- Related emissions: of related identities, with related samples and related rows. -/
structure SameEmission (R : I → I' → Prop) (RB : B → B' → Prop) (RR : Row → Row' → Prop)
    (em : Emission I B Row) (em' : Emission I' B' Row') : Prop where
  identity : R em.identity em'.identity
  built : RB em.built em'.built
  rows : List.Forall₂ RR em.rows em'.rows

/-- From related entries and related states both ways of emitting come to related results. -/
def SameEmit (RE : E → E' → Prop) (RB : B → B' → Prop) (RR : Row → Row' → Prop)
    (RS : σ → σ' → Prop) (emit : E → C → σ → Except ε (B × List Row) × σ)
    (emit' : E' → C → σ' → Except ε (B' × List Row') × σ') : Prop :=
  ∀ e e' d s s', RE e e' → RS s s' →
    BothReturn (fun (p : B × List Row) (q : B' × List Row') =>
        RB p.1 q.1 ∧ List.Forall₂ RR p.2 q.2) (emit e d s).1 (emit' e' d s').1 ∧
      RS (emit e d s).2 (emit' e' d s').2

/-- What two passes that correspond leave: related emissions unless both raise, the same
baselines up to the names of the identities, and related states. -/
structure SamePass (R : I → I' → Prop) (RB : B → B' → Prop) (RR : Row → Row' → Prop)
    (RS : σ → σ' → Prop) (out : Except ε (List (Emission I B Row)) × Dict I C × σ)
    (out' : Except ε (List (Emission I' B' Row')) × Dict I' C × σ') : Prop where
  emissions : BothReturn (List.Forall₂ (SameEmission R RB RR)) out.1 out'.1
  previous : out.2.1.Related R Eq out'.2.1
  state : RS out.2.2 out'.2.2

variable {RB : B → B' → Prop} {RR : Row → Row' → Prop} {RS : σ → σ' → Prop}
  {emit : E → C → σ → Except ε (B × List Row) × σ}
  {emit' : E' → C → σ' → Except ε (B' × List Row') × σ'}

/-- The second pass step by step: what it finds of an identity, whether the identity moved, and
what becomes of its increment, is the same on both sides. -/
theorem Relates.visit (h : Relates L L' R RE) (hemit : SameEmit RE RB RR RS emit emit')
    {items : List (I × Tally E C)} {items' : List (I' × Tally E' C)}
    (hitems : List.Forall₂ (fun p q => R p.1 q.1 ∧ SameTally RE p.2 q.2) items items') :
    ∀ {d : Dict I C} {d' : Dict I' C} {s : σ} {s' : σ'}, d.Related R Eq d' → RS s s' →
      SamePass R RB RR RS (L.visit emit items d s) (L'.visit emit' items' d' s') := by
  induction hitems with
  | nil => exact fun hd hs => ⟨.ok .nil, hd, hs⟩
  | @cons p q rest rest' hhead _ ih =>
    obtain ⟨i, t⟩ := p
    obtain ⟨i', t'⟩ := q
    obtain ⟨hid, hfirst, htotal⟩ := hhead
    intro d d' s s' hd hs
    have hset : (d.set i t.total).Related R Eq (d'.set i' t'.total) := hd.set h.unique hid htotal
    generalize ho : d.get? i = o, ho' : d'.get? i' = o'
    have hget := hd.get? h.unique hid
    rw [ho, ho'] at hget
    cases hget with
    | none =>
      simp only [CounterLoop.visit, ho, ho']
      exact ih hset hs
    | @some c c' hc =>
      subst hc
      have hmoved : L.moved t.total c = L'.moved t'.total c := by rw [h.moved, htotal]
      have hdelta : L.delta t.total c = L'.delta t'.total c := by rw [h.delta, htotal]
      by_cases hm : L.moved t.total c = true
      · have hm' : L'.moved t'.total c = true := hmoved ▸ hm
        have hbranch := hemit t.first t'.first (L.delta t.total c) s s' hfirst hs
        simp only [CounterLoop.visit, ho, ho', if_pos hm, if_pos hm', ← hdelta]
        rcases hr : emit t.first (L.delta t.total c) s with ⟨r, s₁⟩
        rcases hr' : emit' t'.first (L.delta t.total c) s' with ⟨r', s₁'⟩
        rw [hr, hr'] at hbranch
        obtain ⟨hreturn, hs₁⟩ := hbranch
        cases hreturn with
        | error e e' => exact ⟨.error e e', hset, hs₁⟩
        | @ok b b' hb =>
          obtain ⟨b, rows⟩ := b
          obtain ⟨b', rows'⟩ := b'
          have hrest := ih hset hs₁
          dsimp only
          rcases hv : L.visit emit rest (d.set i t.total) s₁ with ⟨v, st⟩
          rcases hv' : L'.visit emit' rest' (d'.set i' t'.total) s₁' with ⟨v', st'⟩
          rw [hv, hv'] at hrest
          obtain ⟨hems, hprevious, hstate⟩ := hrest
          cases hems with
          | error e e' => exact ⟨.error e e', hprevious, hstate⟩
          | ok hems => exact ⟨.ok (.cons ⟨hid, hb.1, hb.2⟩ hems), hprevious, hstate⟩
      · have hm' : ¬ L'.moved t'.total c = true := hmoved ▸ hm
        simp only [CounterLoop.visit, ho, ho', if_neg hm, if_neg hm']
        exact ih hset hs

/-- Related dumps are read alike. -/
theorem Relates.readDump (h : Relates L L' R RE) (hemit : SameEmit RE RB RR RS emit emit')
    {dump : List E} {dump' : List E'} (hdump : List.Forall₂ RE dump dump') {d : Dict I C}
    {d' : Dict I' C} (hd : d.Related R Eq d') {s : σ} {s' : σ'} (hs : RS s s') :
    SamePass R RB RR RS (L.readDump emit dump d s) (L'.readDump emit' dump' d' s') := by
  have htally := h.tally hdump
  apply h.visit hemit htally _ hs
  apply hd.restrict
  intro i i' hi
  have hmem := htally.mem_iff h.unique hi
  simp only [hmem]

/-! ### Keeping some rows -/

/-- An emission with the rows that are kept. -/
def select (keep : Row → Bool) (em : Emission I B Row) : Emission I B Row :=
  { em with rows := em.rows.filter keep }

omit [DecidableEq I] in
theorem rows_select (keep : Row → Bool) (ems : List (Emission I B Row)) :
    (ems.map (select keep)).flatMap Emission.rows = (ems.flatMap Emission.rows).filter keep := by
  rw [List.flatMap_map, List.filter_flatMap]
  rfl

/-- What is emitted is what `emit₀` emits, less the rows that are not kept. -/
def Selects (keep : Row → Bool) (emit emit₀ : E → C → σ → Except ε (B × List Row) × σ) : Prop :=
  ∀ e d s, emit e d s = ((emit₀ e d s).1.map fun p => (p.1, p.2.filter keep), (emit₀ e d s).2)

/-- Rows that are not kept leave no trace in a pass. -/
theorem visit_select {keep : Row → Bool} {emit emit₀ : E → C → σ → Except ε (B × List Row) × σ}
    (h : Selects keep emit emit₀) (items : List (I × Tally E C)) (previous : Dict I C) (s : σ) :
    L.visit emit items previous s =
      ((L.visit emit₀ items previous s).1.map (List.map (select keep)),
        (L.visit emit₀ items previous s).2) := by
  induction items generalizing previous s with
  | nil => rfl
  | cons p rest ih =>
    obtain ⟨i, t⟩ := p
    simp only [CounterLoop.visit]
    cases previous.get? i with
    | none => exact ih _ _
    | some c =>
      dsimp only
      split_ifs
      · rw [h]
        rcases emit₀ t.first (L.delta t.total c) s with ⟨_ | ⟨b, rows⟩, s₁⟩
        · rfl
        · dsimp only [Except.map]
          rw [ih]
          rcases L.visit emit₀ rest (previous.set i t.total) s₁ with ⟨_ | ems, st⟩
          · rfl
          · rfl
      · exact ih _ _

theorem readDump_select {keep : Row → Bool}
    {emit emit₀ : E → C → σ → Except ε (B × List Row) × σ} (h : Selects keep emit emit₀)
    (dump : List E) (previous : Dict I C) (s : σ) :
    L.readDump emit dump previous s =
      ((L.readDump emit₀ dump previous s).1.map (List.map (select keep)),
        (L.readDump emit₀ dump previous s).2) :=
  visit_select h _ _ _

end CounterLoop

/-! ### Runs -/

section Runs
variable {σ σ' α α' β β' ε : Type}

/-- What the steps of a run come to, one after the other, each with the state it leaves. A run
goes on after a step that raises. -/
def outcomes (step : σ → α → Except ε β × σ) : List α → σ → List (Except ε β × σ)
  | [], _ => []
  | a :: rest, s => step s a :: outcomes step rest (step s a).2

/-- Steps that keep a relation between the states keep it along runs over related inputs. -/
theorem outcomes_related {step : σ → α → Except ε β × σ} {step' : σ' → α' → Except ε β' × σ'}
    {A : α → α' → Prop} {Sim : σ → σ' → Prop} {P : β → β' → Prop}
    (hstep : ∀ s s' a a', Sim s s' → A a a' → BothReturn P (step s a).1 (step' s' a').1 ∧
      Sim (step s a).2 (step' s' a').2) {as : List α} {as' : List α'} (h : List.Forall₂ A as as') :
    ∀ {s : σ} {s' : σ'}, Sim s s' → List.Forall₂ (fun out out' => BothReturn P out.1 out'.1 ∧
      Sim out.2 out'.2) (outcomes step as s) (outcomes step' as' s') := by
  induction h with
  | nil => exact fun _ => .nil
  | cons hhead _ ih =>
    intro s s' hs
    have hout := hstep s s' _ _ hs hhead
    exact .cons hout (ih hout.2)

end Runs

end UdpAnalyzer

import Mathlib.Data.List.Basic
import Mathlib.Data.List.Induction

/-! Runs of a state machine over a list of inputs: runs whose steps may fail, and
runs all of whose steps meet a condition. -/

namespace UdpAnalyzer

variable {σ α β ε : Type*}

/-- Feed the inputs one by one; nothing comes out when a step fails. -/
def completedRun (step : σ → α → Except ε β × σ) : List α → σ → Option (List β × σ)
  | [], s => some ([], s)
  | a :: rest, s =>
    match step s a with
    | (.error _, _) => none
    | (.ok b, s) => (completedRun step rest s).map fun (bs, s) => (b :: bs, s)

/-- A completed run of one input more is a completed run and a completed step. -/
theorem completedRun_concat {step : σ → α → Except ε β × σ} {as : List α} {a : α} {s s'' : σ}
    {bs : List β} (h : completedRun step (as ++ [a]) s = some (bs, s'')) :
    ∃ bs' s' b, completedRun step as s = some (bs', s') ∧ step s' a = (.ok b, s'') ∧
      bs = bs' ++ [b] := by
  induction as generalizing s bs with
  | nil =>
    rcases hs : step s a with ⟨r, s'⟩
    cases r with
    | error e => simp [completedRun, hs] at h
    | ok b =>
      simp only [List.nil_append, completedRun, hs, Option.map_some, Option.some.injEq,
        Prod.mk.injEq] at h
      obtain ⟨rfl, rfl⟩ := h
      exact ⟨[], s, b, rfl, hs, rfl⟩
  | cons a' rest ih =>
    rcases hs : step s a' with ⟨r, s'⟩
    cases r with
    | error e => simp [completedRun, hs] at h
    | ok b =>
      simp only [List.cons_append, completedRun, hs, Option.map_eq_some_iff, Prod.mk.injEq] at h
      obtain ⟨⟨bs₁, s₁⟩, hrun, rfl, rfl⟩ := h
      obtain ⟨bs', t, b', hrun', hstep, rfl⟩ := ih hrun
      exact ⟨b :: bs', t, b', by simp [completedRun, hs, hrun'], hstep, rfl⟩

/-- A completed run has an output for every input. -/
theorem completedRun_length {step : σ → α → Except ε β × σ} {as : List α} {s s' : σ} {bs : List β}
    (h : completedRun step as s = some (bs, s')) : as.length = bs.length := by
  induction as using List.reverseRecOn generalizing bs s' with
  | nil =>
    cases h
    rfl
  | append_singleton as a ih =>
    obtain ⟨bs', s'', b, hrun, -, rfl⟩ := completedRun_concat h
    rw [List.length_append, List.length_append, ih hrun]
    rfl

/-- A completed run of one step. -/
theorem completedRun_singleton {step : σ → α → Except ε β × σ} {s : σ} {a : α}
    (h : (step s a).1.toBool = true) : ∃ b, step s a = (.ok b, (step s a).2) ∧
      completedRun step [a] s = some ([b], (step s a).2) := by
  rcases hs : step s a with ⟨_ | b, s'⟩
  · rw [hs] at h
    cases h
  · exact ⟨b, rfl, by simp [completedRun, hs]⟩

/-- Every step of a run from `s` meets `ok` in the state it starts from. -/
def Along (step : σ → α → σ) (ok : σ → α → Prop) : σ → List α → Prop
  | _, [] => True
  | s, a :: rest => ok s a ∧ Along step ok (step s a) rest

instance Along.decidable {step : σ → α → σ} {ok : σ → α → Prop} [∀ s a, Decidable (ok s a)] :
    ∀ (s : σ) (as : List α), Decidable (Along step ok s as)
  | _, [] => .isTrue trivial
  | s, a :: rest =>
    have : Decidable (Along step ok (step s a) rest) := Along.decidable (step s a) rest
    inferInstanceAs (Decidable (ok s a ∧ Along step ok (step s a) rest))

/-- An invariant that the allowed steps keep holds after every allowed run. -/
theorem Along.invariant {step : σ → α → σ} {ok : σ → α → Prop} {inv : σ → Prop}
    (hstep : ∀ s a, inv s → ok s a → inv (step s a)) {s : σ} {as : List α} (hs : inv s)
    (h : Along step ok s as) : inv (as.foldl step s) := by
  induction as generalizing s with
  | nil => exact hs
  | cons a rest ih => exact ih (hstep s a hs h.1) h.2

theorem along_append {step : σ → α → σ} {ok : σ → α → Prop} {s : σ} {as bs : List α} :
    Along step ok s (as ++ bs) ↔ Along step ok s as ∧ Along step ok (as.foldl step s) bs := by
  induction as generalizing s with
  | nil => exact ⟨fun h => ⟨trivial, h⟩, fun h => h.2⟩
  | cons a rest ih => rw [List.cons_append, Along, Along, ih, List.foldl_cons, and_assoc]

theorem along_congr {step : σ → α → σ} {ok ok' : σ → α → Prop}
    (h : ∀ s a, ok s a ↔ ok' s a) {s : σ} {as : List α} : Along step ok s as ↔ Along step ok' s as := by
  induction as generalizing s with
  | nil => exact Iff.rfl
  | cons a rest ih => rw [Along, Along, h, ih]

/-! ### Steps that raise -/

variable {γ : Type*}

/-- The state a step leaves, whether or not it raises. -/
def leaves (step : σ → α → Except ε β × σ) (s : σ) (a : α) : σ := (step s a).2

def Raises (step : σ → α → Except ε β × σ) (s : σ) (a : α) : Prop :=
  ∃ e, (step s a).1 = .error e

/-- If the step raises, it leaves a part of the state as it was. -/
def Spares (part : σ → γ) (step : σ → α → Except ε β × σ) (s : σ) (a : α) : Prop :=
  Raises step s a → part (leaves step s a) = part s

/-- The input of the last step that completed, in a run that goes on after a step that raises. -/
def lastCompleted (step : σ → α → Except ε β × σ) : List α → σ → Option α
  | [], _ => none
  | a :: rest, s =>
    match step s a with
    | (.error _, s) => lastCompleted step rest s
    | (.ok _, s) => (lastCompleted step rest s).or (some a)

/-- What a completed step establishes about its input, and steps that raise keep, holds of the
last completed one at the end of the run. -/
theorem along_lastCompleted {step : σ → α → Except ε β × σ} {ok : σ → α → Prop}
    {Left : Option α → σ → Prop}
    (hok : ∀ o s a b s', Left o s → step s a = (.ok b, s') → Left (some a) s')
    (herror : ∀ o s a, Left o s → ok s a → Raises step s a → Left o (leaves step s a))
    {as : List α} : ∀ {o : Option α} {s : σ}, Along (leaves step) ok s as → Left o s →
      Left ((lastCompleted step as s).or o) (as.foldl (leaves step) s) := by
  induction as with
  | nil => exact fun _ hs => hs
  | cons a rest ih =>
    intro o s h hs
    obtain ⟨hhead, htail⟩ := h
    rw [lastCompleted, List.foldl_cons]
    unfold leaves at htail herror ⊢
    rcases hstep : step s a with ⟨e | b, s'⟩
    · have hs' := herror o s a hs hhead ⟨e, by rw [hstep]⟩
      rw [hstep] at htail hs'
      exact ih htail hs'
    · rw [hstep] at htail
      rw [Option.or_assoc]
      exact ih htail (hok o s a b s' hs hstep)

end UdpAnalyzer

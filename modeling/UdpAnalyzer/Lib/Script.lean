import UdpAnalyzer.Lib.Run

/-! Programs as trees of calls. A program asks the system it runs on for one thing
after the other and goes on with the answer, which may be an exception; an
interruption is an exception at the call it arrives at. The system answers from a
state of its own and from what the environment decides, one reply for each call. -/

namespace UdpAnalyzer

/-- A program whose calls `op` answer a value of type `Val op` or raise. -/
inductive Script (Op : Type) (Val : Op → Type) (ε α : Type) where
  | done (a : α)
  | call (op : Op) (next : Except ε (Val op) → Script Op Val ε α)
  /-- A loop that is not unrolled any further. -/
  | unrolled

namespace Script

variable {Op : Type} {Val : Op → Type} {ε α β γ ρ σ : Type}

def bind : Script Op Val ε α → (α → Script Op Val ε β) → Script Op Val ε β
  | done a, f => f a
  | call op next, f => call op fun answer => (next answer).bind f
  | unrolled, _ => unrolled

/-! ### Running -/

/-- How a system answers: from the call, the environment's reply and its state. -/
abbrev Server (Op : Type) (Val : Op → Type) (ε ρ σ : Type) :=
  (op : Op) → ρ → σ → Except ε (Val op) × σ

/-- One call of a program; a program that waits for nothing stays as it is. -/
def advance (serve : Server Op Val ε ρ σ) :
    Script Op Val ε α × σ → ρ → Script Op Val ε α × σ
  | (call op next, s), r => (next (serve op r s).1, (serve op r s).2)
  | (done a, s), _ => (done a, s)
  | (unrolled, s), _ => (unrolled, s)

def run (serve : Server Op Val ε ρ σ) (p : Script Op Val ε α) (s : σ) (replies : List ρ) :
    Script Op Val ε α × σ :=
  replies.foldl (advance serve) (p, s)

/-- The program has returned, and as `Q` says. -/
def Returned (Q : α → σ → Prop) : Script Op Val ε α × σ → Prop
  | (done a, s) => Q a s
  | (call .., _) => False
  | (unrolled, _) => False

instance (Q : α → σ → Prop) [∀ a s, Decidable (Q a s)] :
    ∀ p : Script Op Val ε α × σ, Decidable (Returned Q p)
  | (done a, s) => inferInstanceAs (Decidable (Q a s))
  | (call .., _) => .isFalse id
  | (unrolled, _) => .isFalse id

theorem Returned.eq_done {Q : α → σ → Prop} {p : Script Op Val ε α × σ} (h : Returned Q p) :
    ∃ a s, p = (done a, s) ∧ Q a s := by
  obtain ⟨p, s⟩ := p
  cases p with
  | done a => exact ⟨a, s, rfl, h⟩
  | call op next => exact h.elim
  | unrolled => exact h.elim

/-- The program waits for the answer of a call. -/
def Awaits (op : Op) : Script Op Val ε α × σ → Prop
  | (call op' _, _) => op' = op
  | (done _, _) => False
  | (unrolled, _) => False

instance [DecidableEq Op] (op : Op) : ∀ p : Script Op Val ε α × σ, Decidable (Awaits op p)
  | (call op' _, _) => inferInstanceAs (Decidable (op' = op))
  | (done _, _) => .isFalse id
  | (unrolled, _) => .isFalse id

/-- The call a program waits for is answered within `ok`. -/
def Permits (ok : Op → ρ → σ → Prop) : Script Op Val ε α × σ → ρ → Prop
  | (call op _, s), r => ok op r s
  | (done _, _), _ => True
  | (unrolled, _), _ => True

instance (ok : Op → ρ → σ → Prop) [∀ op r s, Decidable (ok op r s)] :
    ∀ (p : Script Op Val ε α × σ) (r : ρ), Decidable (Permits ok p r)
  | (call op _, s), r => inferInstanceAs (Decidable (ok op r s))
  | (done _, _), _ => .isTrue trivial
  | (unrolled, _), _ => .isTrue trivial

theorem permits_true (p : Script Op Val ε α) {s : σ} (r : ρ) :
    Permits (fun _ _ _ => True) (p, s) r := by
  cases p <;> trivial

theorem along_permits_true {serve : Server Op Val ε ρ σ} {p : Script Op Val ε α} {s : σ}
    {replies : List ρ} :
    Along (advance serve) (Permits fun _ _ _ => True) (p, s) replies := by
  induction replies generalizing p s with
  | nil => trivial
  | cons r rest ih => exact ⟨permits_true p r, ih⟩

/-- Replies that are within `ok` wherever they are given. -/
theorem along_permits {serve : Server Op Val ε ρ σ} {ok : Op → ρ → σ → Prop} {replies : List ρ}
    (h : ∀ r ∈ replies, ∀ op s, ok op r s) (p : Script Op Val ε α × σ) :
    Along (advance serve) (Permits ok) p replies := by
  induction replies generalizing p with
  | nil => trivial
  | cons r rest ih =>
    refine ⟨?_, ih (fun r hr => h r (List.mem_cons_of_mem _ hr)) _⟩
    obtain ⟨p, s⟩ := p
    cases p with
    | done a => trivial
    | call op next => exact h r List.mem_cons_self op s
    | unrolled => trivial

/-- Whatever its calls answer, a program returns after at most `n` of them. -/
def CallsAtMost : ℕ → Script Op Val ε α → Prop
  | _, done _ => True
  | n + 1, call _ next => ∀ answer, CallsAtMost n (next answer)
  | _, _ => False

theorem CallsAtMost.mono {m n : ℕ} (hmn : m ≤ n) {p : Script Op Val ε α} (h : p.CallsAtMost m) :
    p.CallsAtMost n := by
  induction p generalizing m n with
  | done a => cases n <;> trivial
  | unrolled => cases m <;> exact h.elim
  | call op next ih =>
    cases m with
    | zero => exact h.elim
    | succ m =>
      cases n with
      | zero => exact absurd hmn (Nat.not_succ_le_zero m)
      | succ n => exact fun answer => ih answer (Nat.le_of_succ_le_succ hmn) (h answer)

theorem CallsAtMost.bind {m n : ℕ} {p : Script Op Val ε α} {f : α → Script Op Val ε β}
    (hp : p.CallsAtMost m) (hf : ∀ a, (f a).CallsAtMost n) : (p.bind f).CallsAtMost (m + n) := by
  induction p generalizing m with
  | done a => exact (hf a).mono (Nat.le_add_left n m)
  | unrolled => cases m <;> exact hp.elim
  | call op next ih =>
    cases m with
    | zero => exact hp.elim
    | succ m =>
      rw [Nat.succ_add]
      exact fun answer => ih answer (hp answer)

theorem run_done (serve : Server Op Val ε ρ σ) (a : α) (s : σ) (replies : List ρ) :
    run serve (done a) s replies = (done a, s) := by
  induction replies with
  | nil => rfl
  | cons r rest ih => exact ih

theorem CallsAtMost.returns {serve : Server Op Val ε ρ σ} {n : ℕ} {p : Script Op Val ε α} {s : σ}
    {replies : List ρ} (h : p.CallsAtMost n) (hlength : n ≤ replies.length) :
    ∃ a t, run serve p s replies = (done a, t) := by
  induction replies generalizing n p s with
  | nil =>
    cases Nat.le_zero.mp hlength
    cases p with
    | done a => exact ⟨a, s, rfl⟩
    | call op next => exact h.elim
    | unrolled => exact h.elim
  | cons r rest ih =>
    cases p with
    | done a => exact ⟨a, s, run_done serve a s _⟩
    | unrolled => cases n <;> exact h.elim
    | call op next =>
      cases n with
      | zero => exact h.elim
      | succ n => exact ih (h _) (Nat.le_of_succ_le_succ hlength)

end Script

/-! ### What a program ensures -/

/-- The terms a program runs under: what it may assume of the replies and of what
others do to the state they share, and what it has to promise of its calls. -/
structure Contract (Op ρ σ : Type) where
  replies : Op → ρ → σ → Prop
  calls : Op → σ → Prop
  rely : σ → σ → Prop
  rely_refl : ∀ s, rely s s
  rely_trans : ∀ s t u, rely s t → rely t u → rely s u

namespace Contract

variable {Op ρ σ : Type}

/-- A program that has the state to itself and promises nothing of its calls. -/
def alone (replies : Op → ρ → σ → Prop) : Contract Op ρ σ where
  replies := replies
  calls _ _ := True
  rely := Eq
  rely_refl _ := rfl
  rely_trans _ _ _ := Eq.trans

/-- A program that has the state to itself and promises something of its calls. -/
def careful (replies : Op → ρ → σ → Prop) (calls : Op → σ → Prop) : Contract Op ρ σ where
  replies := replies
  calls := calls
  rely := Eq
  rely_refl _ := rfl
  rely_trans _ _ _ := Eq.trans

/-- A program that only promises something of its calls, whatever happens. -/
def anywhere (calls : Op → Prop) : Contract Op ρ σ where
  replies _ _ _ := True
  calls op _ := calls op
  rely _ _ := True
  rely_refl _ := trivial
  rely_trans _ _ _ _ _ := trivial

/-- `C` assumes less and promises more than `D`. -/
structure Refines (C D : Contract Op ρ σ) : Prop where
  replies : ∀ op r s, D.replies op r s → C.replies op r s
  calls : ∀ op s, C.calls op s → D.calls op s
  rely : ∀ s t, D.rely s t → C.rely s t

theorem anywhere_refines {calls : Op → Prop} {D : Contract Op ρ σ}
    (h : ∀ op s, calls op → D.calls op s) : (anywhere calls).Refines D where
  replies _ _ _ _ := trivial
  calls op s := h op s
  rely _ _ _ := trivial

end Contract

namespace Script

variable {Op : Type} {Val : Op → Type} {ε α β γ ρ σ : Type}

/-- Under the terms `K` a program keeps its promises about its calls and only returns
in states that satisfy `post`. -/
def Ensures (serve : Server Op Val ε ρ σ) (K : Contract Op ρ σ) (post : α → σ → Prop) :
    Script Op Val ε α → σ → Prop
  | done a, s => ∀ t, K.rely s t → post a t
  | call op next, s => ∀ t, K.rely s t → K.calls op t ∧ ∀ r, K.replies op r t →
      Ensures serve K post (next (serve op r t).1) (serve op r t).2
  | unrolled, _ => True

section Rules

variable {serve : Server Op Val ε ρ σ} {K : Contract Op ρ σ} {post post' : α → σ → Prop}

theorem Ensures.mono (hpost : ∀ a s, post a s → post' a s) {p : Script Op Val ε α} {s : σ}
    (h : Ensures serve K post p s) : Ensures serve K post' p s := by
  induction p generalizing s with
  | done a => exact fun t ht => hpost a t (h t ht)
  | call op next ih => exact fun t ht => ⟨(h t ht).1, fun r hr => ih _ ((h t ht).2 r hr)⟩
  | unrolled => trivial

/-- Nothing is promised when every call is allowed and every outcome accepted. -/
theorem ensures_anything (hcalls : ∀ op s, K.calls op s) (hpost : ∀ a s, post a s)
    (p : Script Op Val ε α) (s : σ) : Ensures serve K post p s := by
  induction p generalizing s with
  | done a => exact fun t _ => hpost a t
  | call op next ih => exact fun t _ => ⟨hcalls op t, fun r _ => ih _ _⟩
  | unrolled => trivial

/-- What holds on some terms holds on terms that assume more and ask for less. -/
theorem Ensures.on {D : Contract Op ρ σ} (hKD : K.Refines D) {p : Script Op Val ε α} {s : σ}
    (h : Ensures serve K post p s) : Ensures serve D post p s := by
  induction p generalizing s with
  | done a => exact fun t ht => h t (hKD.rely s t ht)
  | call op next ih =>
    intro t ht
    obtain ⟨hcalls, hnext⟩ := h t (hKD.rely s t ht)
    exact ⟨hKD.calls op t hcalls, fun r hr => ih _ (hnext r (hKD.replies op r t hr))⟩
  | unrolled => trivial

/-- What others do within the terms keeps a promise. -/
theorem Ensures.stable {p : Script Op Val ε α} {s t : σ} (h : Ensures serve K post p s)
    (hst : K.rely s t) : Ensures serve K post p t := by
  cases p with
  | done a => exact fun u hu => h u (K.rely_trans s t u hst hu)
  | call op next => exact fun u hu => h u (K.rely_trans s t u hst hu)
  | unrolled => trivial

/-- A postcondition outlasts what others do. -/
theorem Ensures.closed {p : Script Op Val ε α} {s : σ} (h : Ensures serve K post p s) :
    Ensures serve K (fun a t => ∀ u, K.rely t u → post a u) p s := by
  induction p generalizing s with
  | done a => exact fun t ht u hu => h u (K.rely_trans s t u ht hu)
  | call op next ih => exact fun t ht => ⟨(h t ht).1, fun r hr => ih _ ((h t ht).2 r hr)⟩
  | unrolled => trivial

/-- Two promises of a program; one of them is enough for its calls. -/
theorem Ensures.and {p : Script Op Val ε α} {s : σ} (h : Ensures serve K post p s)
    (h' : Ensures serve { K with calls := fun _ _ => True } post' p s) :
    Ensures serve K (fun a t => post a t ∧ post' a t) p s := by
  induction p generalizing s with
  | done a => exact fun t ht => ⟨h t ht, h' t ht⟩
  | call op next ih =>
    exact fun t ht => ⟨(h t ht).1, fun r hr => ih _ ((h t ht).2 r hr) ((h' t ht).2 r hr)⟩
  | unrolled => trivial

/-- What neither the calls of a program nor the others change holds at each of its calls
and still holds when it returns. -/
theorem Ensures.guard {inv : σ → Prop} (hrely : ∀ s t, K.rely s t → inv s → inv t)
    (hserve : ∀ op r s, K.calls op s → K.replies op r s → inv s → inv (serve op r s).2)
    {p : Script Op Val ε α} {s : σ} (h : Ensures serve K post p s) (hs : inv s) :
    Ensures serve { K with calls := fun op s => K.calls op s ∧ inv s }
      (fun a t => post a t ∧ inv t) p s := by
  induction p generalizing s with
  | done a => exact fun t ht => ⟨h t ht, hrely s t ht hs⟩
  | call op next ih =>
    intro t ht
    obtain ⟨hcalls, hnext⟩ := h t ht
    have hinv := hrely s t ht hs
    exact ⟨⟨hcalls, hinv⟩, fun r hr => ih _ (hnext r hr) (hserve op r t hcalls hr hinv)⟩
  | unrolled => trivial

/-- Sequencing: the second program starts where the first one returns. -/
theorem Ensures.bind {post : β → σ → Prop} {f : α → Script Op Val ε β}
    {p : Script Op Val ε α} {s : σ}
    (h : Ensures serve K (fun a t => Ensures serve K post (f a) t) p s) :
    Ensures serve K post (p.bind f) s := by
  induction p generalizing s with
  | done a => exact h s (K.rely_refl s)
  | call op next ih => exact fun t ht => ⟨(h t ht).1, fun r hr => ih _ ((h t ht).2 r hr)⟩
  | unrolled => trivial

/-- One permitted step of a program keeps its promise. -/
theorem Ensures.advance {q : Script Op Val ε α × σ} {r : ρ} (h : Ensures serve K post q.1 q.2)
    (hr : Permits K.replies q r) :
    Ensures serve K post (Script.advance serve q r).1 (Script.advance serve q r).2 := by
  obtain ⟨p, s⟩ := q
  cases p with
  | done a => exact h
  | call op next => exact (h s (K.rely_refl s)).2 r hr
  | unrolled => trivial

/-- A program that runs alone and returns, returns as promised. -/
theorem Ensures.run {p : Script Op Val ε α} {s : σ} {replies : List ρ} {a : α} {t : σ}
    (h : Ensures serve K post p s)
    (hreplies : Along (Script.advance serve) (Permits K.replies) (p, s) replies)
    (hrun : Script.run serve p s replies = (done a, t)) : post a t := by
  have hstep : ∀ (q : Script Op Val ε α × σ) (r : ρ), Ensures serve K post q.1 q.2 →
      Permits K.replies q r →
      Ensures serve K post (Script.advance serve q r).1 (Script.advance serve q r).2 :=
    fun _ _ hq hr => hq.advance hr
  have hend : Ensures serve K post (Script.run serve p s replies).1
      (Script.run serve p s replies).2 := Along.invariant hstep h hreplies
  rw [hrun] at hend
  exact hend t (K.rely_refl t)

/-- A program that waits for a call has kept its promise about it. -/
theorem Ensures.calls_of_awaits {p : Script Op Val ε α} {s : σ} {replies : List ρ} {op : Op}
    (h : Ensures serve K post p s)
    (hreplies : Along (Script.advance serve) (Permits K.replies) (p, s) replies)
    (hawaits : Awaits op (Script.run serve p s replies)) :
    K.calls op (Script.run serve p s replies).2 := by
  have hstep : ∀ (q : Script Op Val ε α × σ) (r : ρ), Ensures serve K post q.1 q.2 →
      Permits K.replies q r →
      Ensures serve K post (Script.advance serve q r).1 (Script.advance serve q r).2 :=
    fun _ _ hq hr => hq.advance hr
  have hend : Ensures serve K post (Script.run serve p s replies).1
      (Script.run serve p s replies).2 := Along.invariant hstep h hreplies
  generalize Script.run serve p s replies = q at hawaits hend
  obtain ⟨q, t⟩ := q
  cases q with
  | done a => exact hawaits.elim
  | unrolled => exact hawaits.elim
  | call op' next =>
    obtain rfl : op' = op := hawaits
    exact (hend t (K.rely_refl t)).1

end Rules

/-! ### Loops -/

/-- `while True`, of at most `n` rounds; a round that returns a value ends it. -/
def loop (round : γ → Script Op Val ε (γ ⊕ α)) : ℕ → γ → Script Op Val ε α
  | 0, _ => unrolled
  | n + 1, c => (round c).bind fun
    | .inl c => loop round n c
    | .inr a => done a

theorem Ensures.loop {serve : Server Op Val ε ρ σ} {K : Contract Op ρ σ} {post : α → σ → Prop}
    (inv : γ → σ → Prop) {round : γ → Script Op Val ε (γ ⊕ α)}
    (hround : ∀ c s, inv c s → Ensures serve K
      (fun
        | .inl c, t => inv c t
        | .inr a, t => post a t) (round c) s)
    (n : ℕ) {c : γ} {s : σ} (hs : inv c s) :
    Ensures serve K post (Script.loop round n c) s := by
  induction n generalizing c s with
  | zero => trivial
  | succ n ih =>
    apply Ensures.bind
    apply (hround c s hs).closed.mono
    intro next t ht
    cases next with
    | inl c => exact ih (ht t (K.rely_refl t))
    | inr a => exact ht

/-! ### Watching a run -/

/-- A system that also remembers whether every reply so far was within `good`. -/
def watch (serve : Server Op Val ε ρ σ) (good : Op → ρ → σ → Prop)
    [∀ op r s, Decidable (good op r s)] : Server Op Val ε ρ (σ × Bool)
  | op, r, (s, b) => ((serve op r s).1, (serve op r s).2, b && decide (good op r s))

section Watch

variable {serve : Server Op Val ε ρ σ} {ok good : Op → ρ → σ → Prop}
  [∀ op r s, Decidable (good op r s)]

/-- The watched system runs like the system, and ends with its flag up exactly when
every reply was good. -/
theorem run_watch (p : Script Op Val ε α) (s : σ) (b : Bool) (replies : List ρ) :
    ∃ b', run (watch serve good) p (s, b) replies =
        ((run serve p s replies).1, (run serve p s replies).2, b') ∧
      (b' = true ↔ b = true ∧ Along (Script.advance serve) (Permits good) (p, s) replies) := by
  induction replies generalizing p s b with
  | nil => exact ⟨b, rfl, (and_iff_left trivial).symm⟩
  | cons r rest ih =>
    cases p with
    | done a =>
      obtain ⟨b', hrun, hb⟩ := ih (done a) s b
      exact ⟨b', hrun, hb.trans (and_congr_right fun _ => (iff_of_eq (true_and _)).symm)⟩
    | call op next =>
      obtain ⟨b', hrun, hb⟩ := ih (next (serve op r s).1) (serve op r s).2
        (b && decide (good op r s))
      refine ⟨b', hrun, hb.trans ?_⟩
      rw [Bool.and_eq_true, decide_eq_true_iff, and_assoc]
      rfl
    | unrolled =>
      obtain ⟨b', hrun, hb⟩ := ih unrolled s b
      exact ⟨b', hrun, hb.trans (and_congr_right fun _ => (iff_of_eq (true_and _)).symm)⟩

/-- Permitted replies are permitted when the system is watched. -/
theorem along_watch {p : Script Op Val ε α} {s : σ} {b : Bool} {replies : List ρ}
    (h : Along (Script.advance serve) (Permits ok) (p, s) replies) :
    Along (Script.advance (watch serve good)) (Permits fun op r s => ok op r s.1)
      (p, s, b) replies := by
  induction replies generalizing p s b with
  | nil => trivial
  | cons r rest ih =>
    cases p with
    | done a => exact ⟨trivial, ih h.2⟩
    | call op next => exact ⟨h.1, ih h.2⟩
    | unrolled => exact ⟨trivial, ih h.2⟩

/-- The terms of a program on a watched system that it has to itself. -/
abbrev watched (ok : Op → ρ → σ → Prop) : Contract Op ρ (σ × Bool) :=
  .alone fun op r s => ok op r s.1

/-- What is ensured about the flag is a fact about the replies of the run. -/
theorem Ensures.run_iff {P Q : α → σ → Prop} {p : Script Op Val ε α} {s t : σ}
    {replies : List ρ} {a : α}
    (h : Ensures (watch serve good) (watched ok) (fun a s => P a s.1 → (Q a s.1 ↔ s.2 = true)) p
      (s, true))
    (hreplies : Along (Script.advance serve) (Permits ok) (p, s) replies)
    (hrun : Script.run serve p s replies = (done a, t)) (hP : P a t) :
    Q a t ↔ Along (Script.advance serve) (Permits good) (p, s) replies := by
  obtain ⟨b, hwatched, hb⟩ := @run_watch _ _ _ _ _ _ serve good _ p s true replies
  rw [hrun] at hwatched
  have hflag : Q a t ↔ b = true := h.run (along_watch hreplies) hwatched hP
  rw [hflag, hb]
  exact and_iff_right rfl

theorem Ensures.rewatch {post : α → σ → Prop} {p : Script Op Val ε α} {s : σ}
    (h : Ensures serve (.alone ok) post p s) (b : Bool) :
    Ensures (Script.watch serve good) (watched ok) (fun a t => post a t.1) p (s, b) := by
  induction p generalizing s b with
  | done a =>
    intro t ht
    have ht : (s, b) = t := ht
    subst ht
    exact h s rfl
  | call op next ih =>
    intro t ht
    have ht : (s, b) = t := ht
    subst ht
    exact ⟨trivial, fun r hr => ih _ ((h s rfl).2 r hr) _⟩
  | unrolled => trivial

/-- What a program promises whatever happens, it promises when it is watched. -/
theorem Ensures.watch_anywhere {calls : Op → Prop} {post : α → Prop} {p : Script Op Val ε α}
    {s : σ} (h : Ensures serve (.anywhere calls) (fun a _ => post a) p s) (b : Bool) :
    Ensures (Script.watch serve good) (.anywhere calls) (fun a _ => post a) p (s, b) := by
  induction p generalizing s b with
  | done a => exact fun t ht => h t.1 ht
  | call op next ih =>
    intro t ht
    obtain ⟨hcalls, hnext⟩ := h t.1 trivial
    exact ⟨hcalls, fun r hr => ih _ (hnext r hr) _⟩
  | unrolled => trivial

end Watch

/-! ### Keeping account of a run -/

/-- A system that also keeps an account of the answers. -/
def observe {τ : Type} (serve : Server Op Val ε ρ σ)
    (see : (op : Op) → Except ε (Val op) → τ → τ) : Server Op Val ε ρ (σ × τ)
  | op, r, (s, t) => ((serve op r s).1, (serve op r s).2, see op (serve op r s).1 t)

section Observe

variable {τ : Type} {serve : Server Op Val ε ρ σ} {see : (op : Op) → Except ε (Val op) → τ → τ}

/-- The account of a run. -/
def account (serve : Server Op Val ε ρ σ) (see : (op : Op) → Except ε (Val op) → τ → τ)
    (p : Script Op Val ε α) (s : σ) (t : τ) (replies : List ρ) : τ :=
  (run (observe serve see) p (s, t) replies).2.2

/-- Keeping an account changes nothing about a run. -/
theorem run_observe (p : Script Op Val ε α) (s : σ) (t : τ) (replies : List ρ) :
    run (observe serve see) p (s, t) replies =
      ((run serve p s replies).1, (run serve p s replies).2, account serve see p s t replies) := by
  unfold account
  induction replies generalizing p s t with
  | nil => rfl
  | cons r rest ih =>
    cases p with
    | done a => exact ih (done a) s t
    | call op next => exact ih _ _ _
    | unrolled => exact ih unrolled s t

/-- What a program promises whatever happens, it promises when it is observed. -/
theorem Ensures.observe_anywhere {calls : Op → Prop} {post : α → Prop} {p : Script Op Val ε α}
    {s : σ} (h : Ensures serve (.anywhere calls) (fun a _ => post a) p s) (t : τ) :
    Ensures (Script.observe serve see) (.anywhere calls) (fun a _ => post a) p (s, t) := by
  induction p generalizing s t with
  | done a => exact fun u hu => h u.1 hu
  | call op next ih =>
    intro u hu
    obtain ⟨hcalls, hnext⟩ := h u.1 trivial
    exact ⟨hcalls, fun r hr => ih _ (hnext r hr) _⟩
  | unrolled => trivial

end Observe

/-- What the calls a program promises to keep to do not change, holds after any number of
replies. -/
theorem Ensures.run_invariant {serve : Server Op Val ε ρ σ} {K : Contract Op ρ σ}
    {post : α → σ → Prop} {inv : σ → Prop}
    (hserve : ∀ op r s, K.calls op s → K.replies op r s → inv s → inv (serve op r s).2)
    {p : Script Op Val ε α} {s : σ} {replies : List ρ} (h : Ensures serve K post p s) (hs : inv s)
    (hreplies : Along (Script.advance serve) (Permits K.replies) (p, s) replies) :
    inv (Script.run serve p s replies).2 := by
  have hstep : ∀ (q : Script Op Val ε α × σ) (r : ρ),
      Ensures serve K post q.1 q.2 ∧ inv q.2 → Permits K.replies q r →
      Ensures serve K post (Script.advance serve q r).1 (Script.advance serve q r).2 ∧
        inv (Script.advance serve q r).2 := by
    rintro ⟨p, s⟩ r ⟨hp, hs⟩ hr
    refine ⟨hp.advance hr, ?_⟩
    cases p with
    | done a => exact hs
    | call op next => exact hserve op r s (hp s (K.rely_refl s)).1 hr hs
    | unrolled => exact hs
  have hend : Ensures serve K post (Script.run serve p s replies).1
      (Script.run serve p s replies).2 ∧ inv (Script.run serve p s replies).2 :=
    Along.invariant hstep ⟨h, hs⟩ hreplies
  exact hend.2

end Script

end UdpAnalyzer

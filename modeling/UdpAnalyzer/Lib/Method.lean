import UdpAnalyzer.Lib.Script

/-! Methods of objects. A method is a program that reads and updates the object it is
called on and returns or raises; what it did to the object stays when it raises. -/

namespace UdpAnalyzer

/-- A method of objects of type `S`. -/
def Method (Op : Type) (Val : Op → Type) (ε S α : Type) :=
  S → Script Op Val ε (Except ε α × S)

namespace Method

variable {Op : Type} {Val : Op → Type} {ε S T α β ρ σ : Type}

def pure (a : α) : Method Op Val ε S α := fun self => .done (.ok a, self)

def raise (e : ε) : Method Op Val ε S α := fun self => .done (.error e, self)

/-- What follows a method that returned or raised. -/
def andThen (f : α → Method Op Val ε S β) :
    Except ε α × S → Script Op Val ε (Except ε β × S)
  | (.ok a, self) => f a self
  | (.error e, self) => .done (.error e, self)

def bind (m : Method Op Val ε S α) (f : α → Method Op Val ε S β) : Method Op Val ε S β :=
  fun self => (m self).bind (andThen f)

instance : Monad (Method Op Val ε S) where
  pure := pure
  bind := bind

/-- One call. -/
def ask (op : Op) : Method Op Val ε S (Val op) := fun self =>
  .call op fun answer => .done (answer, self)

def self : Method Op Val ε S S := fun self => .done (.ok self, self)

def update (f : S → S) : Method Op Val ε S Unit := fun self => .done (.ok (), f self)

/-- The outcome of a method, for the handlers of `try`. -/
def attempt (m : Method Op Val ε S α) : Method Op Val ε S (Except ε α) := fun self =>
  (m self).bind fun (outcome, self) => .done (.ok outcome, self)

/-- The outcome of a method as the outcome of the caller. -/
def reraise : Except ε α → Method Op Val ε S α
  | .ok a => pure a
  | .error e => raise e

/-- `try: m finally: cleanup`. -/
def finallyDo (m : Method Op Val ε S α) (cleanup : Method Op Val ε S Unit) :
    Method Op Val ε S α := do
  let outcome ← attempt m
  cleanup
  reraise outcome

/-- A method of an object as a method of the object that holds it. -/
def within (get : S → T) (put : T → S → S) (m : Method Op Val ε T α) : Method Op Val ε S α :=
  fun self => (m (get self)).bind fun (outcome, part) => .done (outcome, put part self)

/-- A method of another object: its outcome, and the object it leaves. -/
def callOn (part : T) (m : Method Op Val ε T α) : Method Op Val ε S (Except ε α × T) :=
  fun self => (m part).bind fun p => .done (.ok p, self)

/-- `while True`, of at most `n` rounds; a round that returns a value ends it. -/
def repeatUntil (round : Method Op Val ε S (Option α)) (n : ℕ) : Method Op Val ε S α :=
  Script.loop (fun self => (round self).bind fun
    | (.ok none, self) => .done (.inl self)
    | (.ok (some a), self) => .done (.inr (.ok a, self))
    | (.error e, self) => .done (.inr (.error e, self))) n

/-! ### Rules -/

/-- Under the terms `K` a method leaves its outcome, its object and the state as `post`
says. -/
def Ensures (serve : Script.Server Op Val ε ρ σ) (K : Contract Op ρ σ)
    (post : Except ε α → S → σ → Prop) (m : Method Op Val ε S α) (self : S) (s : σ) : Prop :=
  Script.Ensures serve K (fun p t => post p.1 p.2 t) (m self) s

section Rules

variable {serve : Script.Server Op Val ε ρ σ} {K : Contract Op ρ σ}
  {post : Except ε α → S → σ → Prop} {self : S} {s : σ}

theorem Ensures.mono {post' : Except ε α → S → σ → Prop} {m : Method Op Val ε S α}
    (hpost : ∀ r self t, post r self t → post' r self t)
    (h : m.Ensures serve K post self s) : m.Ensures serve K post' self s := by
  apply Script.Ensures.mono _ h
  rintro ⟨r, self⟩ t ht
  exact hpost r self t ht

/-- Nothing is promised when every call is allowed. -/
theorem ensures_anything (hcalls : ∀ op s, K.calls op s) (m : Method Op Val ε S α) (self : S)
    (s : σ) : m.Ensures serve K (fun _ _ _ => True) self s :=
  Script.ensures_anything hcalls (fun _ _ => trivial) (m self) s

theorem ensures_raise {e : ε} (h : ∀ t, K.rely s t → post (.error e) self t) :
    (raise e : Method Op Val ε S α).Ensures serve K post self s := h

/-- Sequencing: the rest runs when the first part returned. -/
theorem ensures_bind {post : Except ε β → S → σ → Prop}
    {m : Method Op Val ε S α} {f : α → Method Op Val ε S β}
    (h : m.Ensures serve K
      (fun
        | .ok a, self, t => (f a).Ensures serve K post self t
        | .error e, self, t => post (.error e) self t) self s) :
    (m >>= f).Ensures serve K post self s := by
  apply Script.Ensures.bind
  apply Script.Ensures.mono _ (Script.Ensures.closed h)
  rintro ⟨r, self⟩ t ht
  cases r with
  | ok a => exact ht t (K.rely_refl t)
  | error e => exact ht

/-- Nothing is known of the first part. -/
theorem ensures_bind_anything {post : Except ε β → S → σ → Prop} {m : Method Op Val ε S α}
    {f : α → Method Op Val ε S β} (hcalls : ∀ op s, K.calls op s)
    (herror : ∀ e self t, post (.error e) self t)
    (h : ∀ a self t, (f a).Ensures serve K post self t) (self : S) (s : σ) :
    (m >>= f).Ensures serve K post self s := by
  apply ensures_bind
  apply (ensures_anything hcalls m self s).mono
  intro r self t _
  cases r with
  | error e => exact herror e self t
  | ok a => exact h a self t

theorem ensures_ask (op : Op) {post : Except ε (Val op) → S → σ → Prop}
    (h : ∀ t, K.rely s t → K.calls op t ∧ ∀ r, K.replies op r t →
      ∀ u, K.rely (serve op r t).2 u → post (serve op r t).1 self u) :
    (ask op : Method Op Val ε S (Val op)).Ensures serve K post self s := h

/-- A call and what follows when it does not raise. -/
theorem ensures_bind_ask (op : Op) {f : Val op → Method Op Val ε S α}
    (h : ∀ t, K.rely s t → K.calls op t ∧ ∀ r, K.replies op r t →
      ∀ u, K.rely (serve op r t).2 u →
        (∀ e, (serve op r t).1 = .error e → post (.error e) self u) ∧
        (∀ a, (serve op r t).1 = .ok a → (f a).Ensures serve K post self u)) :
    (ask op >>= f).Ensures serve K post self s := by
  apply ensures_bind
  apply ensures_ask op
  intro t ht
  obtain ⟨hcalls, hnext⟩ := h t ht
  refine ⟨hcalls, fun r hr u hu => ?_⟩
  obtain ⟨herror, hok⟩ := hnext r hr u hu
  cases hanswer : (serve op r t).1 with
  | error e => exact herror e hanswer
  | ok a => exact hok a hanswer

theorem ensures_self {post : Except ε S → S → σ → Prop}
    (h : ∀ t, K.rely s t → post (.ok self) self t) :
    (Method.self : Method Op Val ε S S).Ensures serve K post self s := h

theorem ensures_update {post : Except ε Unit → S → σ → Prop} {f : S → S}
    (h : ∀ t, K.rely s t → post (.ok ()) (f self) t) :
    (update f : Method Op Val ε S Unit).Ensures serve K post self s := h

theorem ensures_attempt {m : Method Op Val ε S α} {post : Except ε (Except ε α) → S → σ → Prop}
    (h : m.Ensures serve K (fun r self t => post (.ok r) self t) self s) :
    (attempt m).Ensures serve K post self s :=
  Script.Ensures.bind (Script.Ensures.closed h)

theorem ensures_within {get : S → T} {put : T → S → S} {m : Method Op Val ε T α}
    (h : m.Ensures serve K (fun r part t => post r (put part self) t) (get self) s) :
    (within get put m).Ensures serve K post self s :=
  Script.Ensures.bind (Script.Ensures.closed h)

theorem ensures_callOn {part : T} {m : Method Op Val ε T α}
    {post : Except ε (Except ε α × T) → S → σ → Prop}
    (h : m.Ensures serve K (fun r part t => post (.ok (r, part)) self t) part s) :
    (callOn part m).Ensures serve K post self s :=
  Script.Ensures.bind (Script.Ensures.closed h)

/-- The clean-up runs whatever came before, and its own exception wins. -/
theorem ensures_finallyDo {m : Method Op Val ε S α} {cleanup : Method Op Val ε S Unit}
    (h : m.Ensures serve K
      (fun outcome self t => cleanup.Ensures serve K
        (fun
          | .ok _, self, u => post outcome self u
          | .error e, self, u => post (.error e) self u) self t) self s) :
    (finallyDo m cleanup).Ensures serve K post self s := by
  apply ensures_bind
  apply ensures_attempt
  apply h.mono
  intro outcome self t ht
  apply ensures_bind
  apply Script.Ensures.mono _ (Script.Ensures.closed ht)
  rintro ⟨r, self⟩ u hu
  cases r with
  | error e => exact hu u (K.rely_refl u)
  | ok _ =>
    cases outcome with
    | ok a => exact hu
    | error e => exact hu

/-- The loop rule: every round starts in the invariant. -/
theorem ensures_repeatUntil (inv : S → σ → Prop) {round : Method Op Val ε S (Option α)}
    (hround : ∀ self s, inv self s → round.Ensures serve K
      (fun
        | .ok none, self, t => inv self t
        | .ok (some a), self, t => post (.ok a) self t
        | .error e, self, t => post (.error e) self t)
      self s)
    (n : ℕ) (hs : inv self s) :
    (repeatUntil round n).Ensures serve K post self s := by
  apply Script.Ensures.loop inv _ n hs
  intro self s hs
  apply Script.Ensures.bind
  apply Script.Ensures.mono _ (Script.Ensures.closed (hround self s hs))
  rintro ⟨r, self⟩ t ht
  cases r with
  | error e => exact ht
  | ok a =>
    cases a with
    | none => exact ht
    | some a => exact ht

/-! A program that has the state to itself. -/

section Alone

variable {ok : Op → ρ → σ → Prop}

theorem alone_pure {a : α} (h : post (.ok a) self s) :
    (Pure.pure a : Method Op Val ε S α).Ensures serve (.alone ok) post self s := by
  intro t ht
  have ht : s = t := ht
  subst ht
  exact h

theorem alone_raise {e : ε} (h : post (.error e) self s) :
    (raise e : Method Op Val ε S α).Ensures serve (.alone ok) post self s := by
  intro t ht
  have ht : s = t := ht
  subst ht
  exact h

theorem alone_self {post : Except ε S → S → σ → Prop} (h : post (.ok self) self s) :
    (Method.self : Method Op Val ε S S).Ensures serve (.alone ok) post self s := by
  intro t ht
  have ht : s = t := ht
  subst ht
  exact h

theorem alone_update {post : Except ε Unit → S → σ → Prop} {f : S → S}
    (h : post (.ok ()) (f self) s) :
    (update f : Method Op Val ε S Unit).Ensures serve (.alone ok) post self s := by
  intro t ht
  have ht : s = t := ht
  subst ht
  exact h

theorem alone_ask (op : Op) {post : Except ε (Val op) → S → σ → Prop}
    (h : ∀ r, ok op r s → post (serve op r s).1 self (serve op r s).2) :
    (ask op : Method Op Val ε S (Val op)).Ensures serve (.alone ok) post self s := by
  apply ensures_ask op
  intro t ht
  have ht : s = t := ht
  subst ht
  refine ⟨trivial, fun r hr u hu => ?_⟩
  have hu : _ = u := hu
  subst hu
  exact h r hr

theorem alone_bind_ask (op : Op) {f : Val op → Method Op Val ε S α}
    (h : ∀ r, ok op r s →
      (∀ e, (serve op r s).1 = .error e → post (.error e) self (serve op r s).2) ∧
      (∀ a, (serve op r s).1 = .ok a →
        (f a).Ensures serve (.alone ok) post self (serve op r s).2)) :
    (ask op >>= f).Ensures serve (.alone ok) post self s := by
  apply ensures_bind_ask op
  intro t ht
  have ht : s = t := ht
  subst ht
  refine ⟨trivial, fun r hr u hu => ?_⟩
  have hu : _ = u := hu
  subst hu
  exact h r hr

theorem alone_reraise {r : Except ε α} (h : post r self s) :
    (reraise r : Method Op Val ε S α).Ensures serve (.alone ok) post self s := by
  cases r with
  | ok a => exact alone_pure h
  | error e => exact alone_raise h

/-- What a method ensures of the state it ensures when its replies are watched. -/
theorem Ensures.rewatch {good : Op → ρ → σ → Prop} [∀ op r s, Decidable (good op r s)]
    {m : Method Op Val ε S α} (h : m.Ensures serve (.alone ok) post self s) (b : Bool) :
    m.Ensures (Script.watch serve good) (Script.watched ok) (fun r self t => post r self t.1) self
      (s, b) :=
  Script.Ensures.rewatch h b

end Alone

/-! A program that has the state to itself and watches its calls. -/

section Careful

variable {ok : Op → ρ → σ → Prop} {calls : Op → σ → Prop}

theorem careful_pure {a : α} (h : post (.ok a) self s) :
    (Pure.pure a : Method Op Val ε S α).Ensures serve (.careful ok calls) post self s := by
  intro t ht
  have ht : s = t := ht
  subst ht
  exact h

theorem careful_raise {e : ε} (h : post (.error e) self s) :
    (raise e : Method Op Val ε S α).Ensures serve (.careful ok calls) post self s := by
  intro t ht
  have ht : s = t := ht
  subst ht
  exact h

theorem careful_self {post : Except ε S → S → σ → Prop} (h : post (.ok self) self s) :
    (Method.self : Method Op Val ε S S).Ensures serve (.careful ok calls) post self s := by
  intro t ht
  have ht : s = t := ht
  subst ht
  exact h

theorem careful_update {post : Except ε Unit → S → σ → Prop} {f : S → S}
    (h : post (.ok ()) (f self) s) :
    (update f : Method Op Val ε S Unit).Ensures serve (.careful ok calls) post self s := by
  intro t ht
  have ht : s = t := ht
  subst ht
  exact h

theorem careful_ask (op : Op) {post : Except ε (Val op) → S → σ → Prop} (hcall : calls op s)
    (h : ∀ r, ok op r s → post (serve op r s).1 self (serve op r s).2) :
    (ask op : Method Op Val ε S (Val op)).Ensures serve (.careful ok calls) post self s := by
  apply ensures_ask op
  intro t ht
  have ht : s = t := ht
  subst ht
  refine ⟨hcall, fun r hr u hu => ?_⟩
  have hu : _ = u := hu
  subst hu
  exact h r hr

end Careful

end Rules

/-! ### Methods that make a number of calls at most -/

def CallsAtMost (n : ℕ) (m : Method Op Val ε S α) : Prop := ∀ self, (m self).CallsAtMost n

section CallsAtMost

variable {m n : ℕ}

theorem callsAtMost_pure {a : α} : (Pure.pure a : Method Op Val ε S α).CallsAtMost n := by
  intro self
  cases n <;> trivial

theorem callsAtMost_raise {e : ε} : (raise e : Method Op Val ε S α).CallsAtMost n := by
  intro self
  cases n <;> trivial

theorem callsAtMost_reraise_bind {r : Except ε α} {f : α → Method Op Val ε S β}
    (hf : ∀ a, (f a).CallsAtMost n) : (reraise r >>= f).CallsAtMost n := by
  cases r with
  | ok a => exact hf a
  | error e => exact callsAtMost_raise

theorem CallsAtMost.mono {p : Method Op Val ε S α} (h : p.CallsAtMost m) (hmn : m ≤ n) :
    p.CallsAtMost n :=
  fun self => (h self).mono hmn

theorem callsAtMost_bind {p : Method Op Val ε S α} {f : α → Method Op Val ε S β}
    (hp : p.CallsAtMost m) (hf : ∀ a, (f a).CallsAtMost n) : (p >>= f).CallsAtMost (n + m) := by
  intro self
  rw [Nat.add_comm]
  apply (hp self).bind
  rintro ⟨_ | a, self⟩
  · cases n <;> trivial
  · exact hf a self

/-- Reading and updating the object calls nothing. -/
theorem callsAtMost_self_bind {f : S → Method Op Val ε S β} (hf : ∀ a, (f a).CallsAtMost n) :
    (Method.self >>= f).CallsAtMost n :=
  fun self => hf self self

theorem callsAtMost_update_bind {g : S → S} {f : Unit → Method Op Val ε S β}
    (hf : (f ()).CallsAtMost n) : (update g >>= f).CallsAtMost n :=
  fun self => hf (g self)

theorem callsAtMost_update {g : S → S} :
    (update g : Method Op Val ε S Unit).CallsAtMost n := by
  intro self
  cases n <;> trivial

theorem callsAtMost_ask (op : Op) : (ask op : Method Op Val ε S (Val op)).CallsAtMost 1 :=
  fun _ _ => trivial

theorem callsAtMost_ask_bind (op : Op) {f : Val op → Method Op Val ε S β}
    (hf : ∀ a, (f a).CallsAtMost n) : (ask op >>= f).CallsAtMost (n + 1) :=
  callsAtMost_bind (callsAtMost_ask op) hf

theorem callsAtMost_attempt {p : Method Op Val ε S α} (hp : p.CallsAtMost n) :
    (attempt p).CallsAtMost n := by
  intro self
  show Script.CallsAtMost (n + 0) _
  apply (hp self).bind
  intro _
  trivial

theorem callsAtMost_attempt_bind {p : Method Op Val ε S α}
    {f : Except ε α → Method Op Val ε S β} (hp : p.CallsAtMost m)
    (hf : ∀ a, (f a).CallsAtMost n) : (attempt p >>= f).CallsAtMost (n + m) :=
  callsAtMost_bind (callsAtMost_attempt hp) hf

end CallsAtMost

/-! ### Methods that keep a part of their object -/

/-- Whatever happens, a method only makes calls in `calls` and leaves the part of its
object that `view` shows as it was. -/
def Keeps (serve : Script.Server Op Val ε ρ σ) (calls : Op → Prop) {V : Type} (view : S → V)
    (m : Method Op Val ε S α) : Prop :=
  ∀ self s, m.Ensures serve (.anywhere calls) (fun _ self' _ => view self' = view self) self s

section Keeps

variable {serve : Script.Server Op Val ε ρ σ} {calls : Op → Prop} {V W : Type} {view : S → V}

/-- A method that keeps a part of its object does so on any terms that allow its calls. -/
theorem Keeps.ensures {K : Contract Op ρ σ} {m : Method Op Val ε S α}
    (h : m.Keeps serve calls view) (hcalls : ∀ op s, calls op → K.calls op s) (self : S) (s : σ) :
    m.Ensures serve K (fun _ self' _ => view self' = view self) self s :=
  Script.Ensures.on (Contract.anywhere_refines hcalls) (h self s)

/-- It also keeps what none of those calls changes. -/
theorem Keeps.frame {K : Contract Op ρ σ} {m : Method Op Val ε S α} {inv : σ → Prop}
    (h : m.Keeps serve calls view) (hcalls : ∀ op s, calls op → K.calls op s)
    (hrely : ∀ s t, K.rely s t → inv s → inv t)
    (hserve : ∀ op r s, calls op → K.replies op r s → inv s → inv (serve op r s).2) (self : S)
    {s : σ} (hs : inv s) :
    m.Ensures serve K (fun _ self' t => view self' = view self ∧ inv t) self s := by
  let K' : Contract Op ρ σ := { K with calls := fun op _ => calls op }
  have hK' : Contract.Refines { K' with calls := fun op s => K'.calls op s ∧ inv s } K :=
    ⟨fun _ _ _ hr => hr, fun op s hop => hcalls op s hop.1, fun _ _ ht => ht⟩
  have hrely' : ∀ s t, K'.rely s t → inv s → inv t := hrely
  have hserve' : ∀ op r s, K'.calls op s → K'.replies op r s → inv s → inv (serve op r s).2 :=
    hserve
  have hkeeps : m.Ensures serve K' (fun _ self' _ => view self' = view self) self s :=
    h.ensures (fun _ _ hop => hop) self s
  exact Script.Ensures.on hK' (Script.Ensures.guard hrely' hserve' hkeeps hs)

theorem keeps_pure {a : α} : (Pure.pure a : Method Op Val ε S α).Keeps serve calls view :=
  fun _ _ _ _ => rfl

theorem keeps_raise {e : ε} : (raise e : Method Op Val ε S α).Keeps serve calls view :=
  fun _ _ _ _ => rfl

theorem keeps_self : (Method.self : Method Op Val ε S S).Keeps serve calls view :=
  fun _ _ _ _ => rfl

theorem keeps_ask (op : Op) (h : calls op) :
    (ask op : Method Op Val ε S (Val op)).Keeps serve calls view :=
  fun _ _ _ _ => ⟨h, fun _ _ _ _ => rfl⟩

theorem keeps_update {f : S → S} (h : ∀ self, view (f self) = view self) :
    (update f : Method Op Val ε S Unit).Keeps serve calls view :=
  fun self _ _ _ => h self

theorem keeps_reraise {r : Except ε α} :
    (reraise r : Method Op Val ε S α).Keeps serve calls view := by
  cases r with
  | ok a => exact keeps_pure
  | error e => exact keeps_raise

theorem keeps_bind {m : Method Op Val ε S α} {f : α → Method Op Val ε S β}
    (hm : m.Keeps serve calls view) (hf : ∀ a, (f a).Keeps serve calls view) :
    (m >>= f).Keeps serve calls view := by
  intro self s
  apply ensures_bind
  apply (hm self s).mono
  intro r self' t hview
  cases r with
  | error e => exact hview
  | ok a =>
    apply (hf a self' t).mono
    intro _ _ _ hview'
    exact hview'.trans hview

theorem keeps_attempt {m : Method Op Val ε S α} (hm : m.Keeps serve calls view) :
    (attempt m).Keeps serve calls view :=
  fun self s => ensures_attempt (hm self s)

theorem keeps_callOn {part : T} {m : Method Op Val ε T α} {viewPart : T → W}
    (hm : m.Keeps serve calls viewPart) :
    (callOn part m : Method Op Val ε S (Except ε α × T)).Keeps serve calls view :=
  fun _ s => ensures_callOn ((hm part s).mono fun _ _ _ _ => rfl)

theorem keeps_within {get : S → T} {put : T → S → S} {m : Method Op Val ε T α} {viewPart : T → W}
    (hm : m.Keeps serve calls viewPart) (hput : ∀ part self, view (put part self) = view self) :
    (within get put m).Keeps serve calls view :=
  fun self s => ensures_within ((hm (get self) s).mono fun _ part _ _ => hput part self)

/-- Watching the replies changes nothing about the calls and the object. -/
theorem Keeps.watch {m : Method Op Val ε S α} (h : m.Keeps serve calls view)
    (good : Op → ρ → σ → Prop) [∀ op r s, Decidable (good op r s)] :
    m.Keeps (Script.watch serve good) calls view :=
  fun self s => Script.Ensures.watch_anywhere (h self s.1) s.2

/-- Keeping an account changes nothing about the calls and the object. -/
theorem Keeps.observe {τ : Type} {m : Method Op Val ε S α} (h : m.Keeps serve calls view)
    (see : (op : Op) → Except ε (Val op) → τ → τ) :
    m.Keeps (Script.observe serve see) calls view :=
  fun self s => Script.Ensures.observe_anywhere (h self s.1) s.2

theorem keeps_repeatUntil {round : Method Op Val ε S (Option α)}
    (hround : round.Keeps serve calls view) (n : ℕ) :
    (repeatUntil round n).Keeps serve calls view := by
  intro self s
  apply ensures_repeatUntil (fun self' _ => view self' = view self) _ n rfl
  intro self' t hview
  apply (hround self' t).mono
  intro r self'' _ hview'
  cases r with
  | error e => exact hview'.trans hview
  | ok a =>
    cases a with
    | none => exact hview'.trans hview
    | some a => exact hview'.trans hview

end Keeps

end Method

end UdpAnalyzer

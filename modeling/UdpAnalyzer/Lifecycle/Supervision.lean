import UdpAnalyzer.Lifecycle.Acquisition

/-! From the installation of the handlers to the end of a run. Whatever happens in the
loop, closing the collector begins, unless a signal arrives before the `try` block; what
follows it begins unless closing was interrupted. -/

namespace UdpAnalyzer

open Method

/-- The circumstances of a run from its first call on: up to the `try` block the clock is
read and a handler is installed or cannot be; a signal on the way into the block is not
good. -/
structure RunCircumstances (ok : SystemCall → Reply → Machine → Prop)
    (good : SystemCall → Reply → Machine → Bool) : Prop extends Circumstances ok good where
  clock : ∀ r m, m.armed = false → ok .monotonic r m → ∃ now : ℤ, r .monotonic = .ok now
  handlers : ∀ signum r m, m.armed = false → ok (.installHandler signum) r m →
    good (.installHandler signum) r m = true ∧
      (r (.installHandler signum) = .ok () ∨ r (.installHandler signum) = .error .valueError ∨
        ∃ kind, r (.installHandler signum) = .error (.osError kind))
  enter : ∀ r m, ok .enterTry r m → r .enterTry = .ok () ∧ good .enterTry r m = true ∨
    m.armed = true ∧ r .enterTry = .error .keyboardInterrupt ∧ good .enterTry r m = false

/-- The machine but for its handlers. -/
def Machine.rest (m : Machine) : List (Str × ℤ × ℕ) × (ℕ → Bool) × WriterCalls :=
  (m.filters, m.loader, m.writer)

section Supervision

variable {me : ℕ} {ok : SystemCall → Reply → Machine → Prop}
  {good : SystemCall → Reply → Machine → Bool} {l : Locals} {m : Machine} {b : Bool}

/-- One call with the handlers installed. -/
theorem signalled_ensures (op : SystemCall) {post : Answer op → Locals → Machine × Bool → Prop}
    (h : ∀ r l', ok op r m → l'.held = l.held →
      post (serve me op r m).1 l' ((serve me op r m).2, b && good op r m)) :
    (signalled op).Ensures (watching me good) (Script.watched ok) post l (m, b) := by
  apply ensures_bind
  apply ensures_attempt
  apply alone_ask op
  intro r hr
  have hstate : (watching me good op r (m, b)).2 = ((serve me op r m).2, b && good op r m) := by
    show ((serve me op r m).2, b && decide (good op r m = true)) = _
    rw [Bool.decide_eq_true]
  have hanswer : (watching me good op r (m, b)).1 = (serve me op r m).1 := rfl
  have hpost : ∀ l', l'.held = l.held →
      post (serve me op r m).1 l' ((serve me op r m).2, b && good op r m) := fun l' => h r l' hr
  rw [hstate, hanswer]
  cases hreply : (serve me op r m).1 with
  | ok a =>
    rw [hreply] at hpost
    exact alone_reraise (hpost l rfl)
  | error e =>
    rw [hreply] at hpost
    cases e with
    | keyboardInterrupt =>
      apply ensures_bind
      apply alone_update
      exact alone_raise (hpost _ rfl)
    | _ => exact alone_reraise (hpost l rfl)

variable (env : RunCircumstances ok good)

include env

theorem deadlineOf_ensures (duration : Option ℤ) (harmed : m.armed = false) :
    (deadlineOf duration).Ensures (watching me good) (Script.watched ok)
      (fun r l' s => (∃ deadline, r = .ok deadline) ∧ l' = l ∧ s = (m, b)) l (m, b) := by
  cases duration with
  | none => exact alone_pure ⟨⟨none, rfl⟩, rfl, rfl⟩
  | some d =>
    apply alone_bind_ask SystemCall.monotonic
    intro r hr
    obtain ⟨now, hnow⟩ := env.clock r m harmed hr
    have hstate : (watching me good .monotonic r (m, b)).2 = (m, b) := by
      show (m, b && decide (good .monotonic r m = true)) = (m, b)
      rw [decide_eq_true (env.loop .monotonic r m rfl), Bool.and_true]
    have hanswer : (watching me good .monotonic r (m, b)).1 = .ok now := hnow
    rw [hstate, hanswer]
    exact ⟨nofun, fun a _ => alone_pure ⟨⟨_, rfl⟩, rfl, rfl⟩⟩

/-- Installing a handler changes nothing but whether the handlers are installed. -/
theorem installHandler_ensures (signum : Signal) (harmed : m.armed = false) :
    (installHandler signum).Ensures (watching me good) (Script.watched ok)
      (fun r l' s => r = .ok () ∧ l'.held = l.held ∧ s.1.rest = m.rest ∧
        (signum = .sigterm → s.1.armed = false) ∧ s.2 = b) l (m, b) := by
  apply ensures_bind
  apply ensures_attempt
  apply signalled_ensures (.installHandler signum)
  intro r l' hr hheld
  obtain ⟨hgood, hreply⟩ := env.handlers signum r m harmed hr
  have hflag : (b && good (.installHandler signum) r m) = b := by rw [hgood, Bool.and_true]
  have hserve : serve me (.installHandler signum) r m = (r (.installHandler signum),
      Machine.effect me (.installHandler signum) (r (.installHandler signum)) m) := rfl
  rw [hflag, hserve]
  rcases hreply with hreply | hreply | ⟨kind, hreply⟩
  · rw [hreply]
    cases signum with
    | sigterm => exact alone_pure ⟨rfl, hheld, rfl, fun _ => harmed, rfl⟩
    | sigint => exact alone_pure ⟨rfl, hheld, rfl, nofun, rfl⟩
  · rw [hreply]
    cases signum <;> exact alone_pure ⟨rfl, hheld, rfl, fun _ => harmed, rfl⟩
  · rw [hreply]
    cases signum <;> exact alone_pure ⟨rfl, hheld, rfl, fun _ => harmed, rfl⟩

omit env in
/-- Closing the collector is no call of the writer's. -/
theorem closeCollector_keeps :
    closeCollector.Keeps (serve me) (fun op => op.kind ≠ .analyzer) (fun _ => ()) := by
  have hplain : ∀ op : SystemCall, op.kind = .plain → op.kind ≠ .analyzer :=
    fun op h => by rw [h]; decide
  have hloader : ∀ op : SystemCall, op.kind = .loader → op.kind ≠ .analyzer :=
    fun op h => by rw [h]; decide
  have hfilters : ∀ op : SystemCall, op.kind = .filters → op.kind ≠ .analyzer :=
    fun op h => by rw [h]; decide
  have hebpf : EbpfCollector.close.Keeps (serve me) (fun op => op.kind ≠ .analyzer)
      EbpfCollector.closingPart := by
    apply keeps_bind keeps_self
    intro c
    split
    · apply keeps_bind (EbpfCollector.detachReceive_keeps hloader)
      intro _ c s
      apply ensures_within
      apply (TcBpfAttachment.detach_keeps hfilters true c.attachment s).mono
      exact fun _ a _ hplace => congrArg (Prod.mk c.detachOnClose) hplace
    · exact keeps_pure
  have hchannel : ChannelResources.close.Keeps (serve me) (fun op => op.kind ≠ .analyzer)
      (fun _ => ()) := by
    apply keeps_bind keeps_self
    intro c
    split
    · exact keeps_pure
    · apply keeps_bind (keeps_callOn (ChannelBpfAttachment.detach_keeps hplain hloader))
      intro outcome
      apply keeps_bind
      · exact keeps_update fun _ => rfl
      · exact fun _ => keeps_reraise
  have hresources : closeResources.Keeps (serve me) (fun op => op.kind ≠ .analyzer)
      (fun _ => ()) := by
    apply keeps_bind keeps_self
    intro l
    split
    · apply keeps_bind (keeps_callOn hebpf)
      intro outcome
      apply keeps_bind
      · exact keeps_update fun _ => rfl
      · exact fun _ => keeps_reraise
    · apply keeps_bind (keeps_callOn hchannel)
      intro outcome
      apply keeps_bind
      · exact keeps_update fun _ => rfl
      · exact fun _ => keeps_reraise
    · exact keeps_pure
  apply keeps_bind hresources
  intro _
  exact keeps_update fun _ => rfl

/-- `collector.close()` completes, or it is interrupted; the writer is left alone. -/
theorem closeCollector_ensures (hclosed : l.closed = false)
    (hholds : ∀ c, l.collector = some c → c.Holds me m) :
    closeCollector.Ensures (watching me good) (Script.watched ok)
      (fun r l' s => s.1.writer = m.writer ∧ s.1.armed = m.armed ∧ match r with
        | .ok _ => l'.closed = true ∧ l'.Released me s.1 ∧ s.2 = b
        | .error _ => l'.closed = false ∧ s.2 = false) l (m, b) := by
  let inv : Machine × Bool → Prop := fun s => s.1.armed = m.armed ∧ s.1.writer = m.writer
  have hrely : ∀ s t, (Script.watched ok).rely s t → inv s → inv t := fun _ _ hst hs => hst ▸ hs
  have hserve : ∀ op r s, op.kind ≠ .analyzer → (Script.watched ok).replies op r s → inv s →
      inv (watching me good op r s).2 := by
    intro op r s hop _ hs
    obtain ⟨harmed, hwriter⟩ :=
      @Machine.effect_analyzer me op hop (Machine.answer me op (r op) s.1) s.1
    exact ⟨harmed.trans hs.1, hwriter.trans hs.2⟩
  have hkeeps : closeCollector.Keeps (watching me good) (fun op => op.kind ≠ .analyzer)
      (fun _ => ()) := closeCollector_keeps.watch _
  have hframe : closeCollector.Ensures (watching me good) (Script.watched ok)
      (fun _ _ s => () = () ∧ inv s) l (m, b) :=
    hkeeps.frame (fun _ _ _ => trivial) hrely hserve l ⟨rfl, rfl⟩
  have hclean := closeCollector_cleansUp env.toCircumstances l m b hclosed hholds
  apply (Script.Ensures.and hclean hframe).mono
  rintro ⟨r, l'⟩ s ⟨⟨hclosed', hclean⟩, _, harmed, hwriter⟩
  refine ⟨hwriter, harmed, ?_⟩
  cases r with
  | ok _ => exact ⟨hclosed', hclean.1.2, hclean.2⟩
  | error e => exact ⟨hclosed', hclean.2⟩

/-- The `try` block and its clean-up, in a run that holds its collector. -/
theorem guardedLoop_ensures {watch : Bool} {deadline : Option ℤ}
    {checkpoint cleanup : Meth Locals Unit} {n : ℕ} {post : Locals → Machine × Bool → Prop}
    (hcheckpoint : checkpoint.Keeps (serve me) (fun op => op.inLoop = true) Locals.held)
    (hclosed : l.closed = false) (hholds : ∀ c, l.collector = some c → c.Holds me m)
    (hstopped : ∀ l' m', l'.closed = false → m'.writer = m.writer → post l' (m', false))
    (hcleanup : ∀ l' m', l'.closed = true → m'.writer = m.writer → l'.Released me m' →
      cleanup.Ensures (watching me good) (Script.watched ok) (fun _ => post) l' (m', b)) :
    (finallyDo (watchLoop watch deadline checkpoint n) do
      closeCollector
      cleanup).Ensures (watching me good) (Script.watched ok) (fun _ => post) l (m, b) := by
  apply ensures_finallyDo
  apply (watchLoop_ensures env.toCircumstances hcheckpoint n l m b).mono
  rintro outcome l₁ s ⟨hl₁, rfl⟩
  have hclosed₁ : l₁.closed = false := (congrArg Prod.snd hl₁).trans hclosed
  have hholds₁ : ∀ c, l₁.collector = some c → c.Holds me m := by
    intro c hc
    rw [show l₁.collector = l.collector from congrArg Prod.fst hl₁] at hc
    exact hholds c hc
  apply ensures_bind
  apply (closeCollector_ensures env hclosed₁ hholds₁).mono
  rintro r l₂ ⟨m₂, b₂⟩ ⟨hwriter₂, _, hclose⟩
  cases r with
  | error e =>
    obtain ⟨hclosed₂, rfl⟩ := hclose
    exact hstopped l₂ m₂ hclosed₂ hwriter₂
  | ok _ =>
    obtain ⟨hclosed₂, hreleased, rfl⟩ := hclose
    apply (hcleanup l₂ m₂ hclosed₂ hwriter₂ hreleased).mono
    intro r _ _ h
    cases r with
    | ok _ => exact h
    | error e => exact h

/-- What a run leaves behind, from the state in which it holds its collector: `post` has to
hold when closing was skipped or interrupted, and after the rest of the clean-up when it
completed. -/
theorem supervise_ensures {watch : Bool} {duration : Option ℤ}
    {checkpoint cleanup : Meth Locals Unit} {n : ℕ} {post : Locals → Machine × Bool → Prop}
    (hcheckpoint : checkpoint.Keeps (serve me) (fun op => op.inLoop = true) Locals.held)
    (harmed : m.armed = false) (hclosed : l.closed = false)
    (hholds : ∀ c, l.collector = some c → c.Holds me m)
    (hstopped : ∀ l' m', l'.closed = false → m'.writer = m.writer → post l' (m', false))
    (hcleanup : ∀ l' m', l'.closed = true → m'.writer = m.writer → l'.Released me m' →
      cleanup.Ensures (watching me good) (Script.watched ok) (fun _ => post) l' (m', b)) :
    (supervise watch duration checkpoint cleanup n).Ensures (watching me good) (Script.watched ok)
      (fun _ => post) l (m, b) := by
  apply ensures_bind
  apply (deadlineOf_ensures env duration harmed).mono
  rintro r l₀ s ⟨⟨deadline, rfl⟩, rfl, rfl⟩
  apply ensures_bind
  apply (installHandler_ensures env .sigterm harmed).mono
  rintro r l₁ ⟨m₁, b₁⟩ ⟨rfl, hl₁, hm₁, harmed₁, rfl⟩
  apply ensures_bind
  apply (installHandler_ensures env .sigint (harmed₁ rfl)).mono
  rintro r l₂ ⟨m₂, b₂⟩ ⟨rfl, hl₂, hm₂, _, rfl⟩
  apply ensures_bind
  apply signalled_ensures SystemCall.enterTry
  intro r l₃ hr hl₃
  have hheld : l₃.held = l₀.held := hl₃.trans (hl₂.trans hl₁)
  have hrest : m₂.rest = m.rest := hm₂.trans hm₁
  have hcollector : l₃.collector = l₀.collector := congrArg Prod.fst hheld
  have hclosed : l₃.closed = false := (congrArg Prod.snd hheld).trans hclosed
  have hloader : m₂.loader = m.loader := congrArg (fun rest => rest.2.1) hrest
  have hwriter : m₂.writer = m.writer := congrArg (fun rest => rest.2.2) hrest
  have hserve : serve me .enterTry r m₂ = (r .enterTry, m₂) := rfl
  rw [hserve]
  rcases env.enter r m₂ hr with ⟨hreply, hgood⟩ | ⟨_, hreply, hgood⟩
  · rw [hreply, hgood, Bool.and_true]
    apply guardedLoop_ensures env hcheckpoint hclosed
    · intro c hc
      rw [hcollector] at hc
      have hm : c.Holds me m := hholds c hc
      unfold AnyCollector.Holds at hm ⊢
      rw [hloader]
      exact hm
    · rw [hwriter]
      exact hstopped
    · rw [hwriter]
      exact hcleanup
  · rw [hreply, hgood, Bool.and_false]
    exact hstopped l₃ m₂ hclosed hwriter

end Supervision

end UdpAnalyzer

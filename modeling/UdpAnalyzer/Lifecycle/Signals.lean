import UdpAnalyzer.Lifecycle.ErrorExit

/-! Signals. Once the handlers are installed, any number of signals may arrive, each at any
call of the run. The clean-up completes exactly when none of them arrives outside the loop:
one in the loop ends it, one before the `try` block skips the clean-up, and one in the
clean-up cuts it short. -/

namespace UdpAnalyzer

open Method

/-! ### The circumstances -/

def interrupted {α : Type} : Except PyExc α → Bool
  | .error .keyboardInterrupt => true
  | _ => false

/-- The replies of a run in which no step fails on its own: a call succeeds, or, with the
handlers installed, a signal arrives at it. -/
def signalsOnly (op : SystemCall) (r : Reply) (m : Machine) : Bool :=
  Succeeds op (r op) || (m.armed && interrupted (r op))

/-- Replies within `signalsOnly`. -/
abbrev SignalsOnly (op : SystemCall) (r : Reply) (m : Machine) : Prop :=
  signalsOnly op r m = true

/-- A signal, if there is one, arrives in the loop. -/
def signalInLoop (op : SystemCall) (r : Reply) (_ : Machine) : Bool :=
  op.inLoop || !interrupted (r op)

/-- A call that succeeds was not interrupted. -/
theorem succeeds_not_interrupted {op : SystemCall} {answer : Answer op}
    (h : Succeeds op answer = true) : interrupted answer = false := by
  cases answer with
  | ok _ => rfl
  | error e =>
    cases e with
    | keyboardInterrupt =>
      unfold Succeeds at h
      split at h
      · next heq => cases heq
      · next heq => cases heq
      · next heq => cases heq
      · cases h
    | _ => rfl

theorem interrupted_eq {α : Type} {answer : Except PyExc α} (h : interrupted answer = true) :
    answer = .error .keyboardInterrupt := by
  unfold interrupted at h
  split at h
  · rfl
  · cases h

/-- A call was answered, or a signal arrived. -/
theorem signalsOnly_cases {op : SystemCall} {r : Reply} {m : Machine} (h : SignalsOnly op r m) :
    Succeeds op (r op) = true ∧ interrupted (r op) = false ∨
      m.armed = true ∧ r op = .error .keyboardInterrupt := by
  unfold SignalsOnly signalsOnly at h
  rw [Bool.or_eq_true, Bool.and_eq_true] at h
  rcases h with h | ⟨harmed, hsignal⟩
  · exact .inl ⟨h, succeeds_not_interrupted h⟩
  · exact .inr ⟨harmed, interrupted_eq hsignal⟩

theorem signalInLoop_ofCompleted {op : SystemCall} {r : Reply} {m : Machine}
    (h : interrupted (r op) = false) : signalInLoop op r m = true := by
  unfold signalInLoop
  rw [h]
  exact Bool.or_true _

theorem signalInLoop_ofSignal {op : SystemCall} {r : Reply} {m : Machine}
    (hop : op.inLoop = false) (h : r op = .error .keyboardInterrupt) :
    signalInLoop op r m = false := by
  unfold signalInLoop
  rw [hop, h]
  rfl

theorem isCleanup_inLoop {op : SystemCall} (h : op.isCleanup = true) : op.inLoop = false := by
  unfold SystemCall.isCleanup at h
  split at h <;> first | rfl | cases h

/-- Without the handlers every call completes. -/
theorem signalsOnly_unarmed {op : SystemCall} {r : Reply} {m : Machine} (h : SignalsOnly op r m)
    (harmed : m.armed = false) : Succeeds op (r op) = true ∧ interrupted (r op) = false := by
  rcases signalsOnly_cases h with h | ⟨harmed', _⟩
  · exact h
  · rw [harmed] at harmed'
    cases harmed'

theorem signalsOnly_circumstances : RunCircumstances SignalsOnly signalInLoop where
  cleanup op r m hop hr := by
    rcases signalsOnly_cases hr with ⟨hsucceeds, hcompleted⟩ | ⟨harmed, hsignal⟩
    · exact .inl ⟨hsucceeds, signalInLoop_ofCompleted hcompleted⟩
    · exact .inr ⟨harmed, hsignal, signalInLoop_ofSignal (isCleanup_inLoop hop) hsignal⟩
  loader op r m _ _ hr message hreply := by
    rcases signalsOnly_cases hr with ⟨hsucceeds, _⟩ | ⟨_, hsignal⟩
    · rw [hreply] at hsucceeds
      unfold Succeeds at hsucceeds
      split at hsucceeds
      · next heq => cases heq
      · next heq => cases heq
      · next heq => cases heq
      · cases hsucceeds
    · rw [hreply] at hsignal
      cases hsignal
  unarmed op r m _ harmed hr := signalInLoop_ofCompleted (signalsOnly_unarmed hr harmed).2
  loop op r m hop := by
    unfold signalInLoop
    rw [hop]
    rfl
  clock r m harmed hr := by
    have hsucceeds := (signalsOnly_unarmed hr harmed).1
    cases hreply : r .monotonic with
    | ok now => exact ⟨now, rfl⟩
    | error e =>
      rw [hreply] at hsucceeds
      cases hsucceeds
  handlers signum r m harmed hr := by
    obtain ⟨hsucceeds, hcompleted⟩ := signalsOnly_unarmed hr harmed
    refine ⟨signalInLoop_ofCompleted hcompleted, .inl ?_⟩
    cases hreply : r (.installHandler signum) with
    | ok _ => rfl
    | error e =>
      rw [hreply] at hsucceeds
      cases hsucceeds
  enter r m hr := by
    rcases signalsOnly_cases hr with ⟨hsucceeds, hcompleted⟩ | ⟨harmed, hsignal⟩
    · refine .inl ⟨?_, signalInLoop_ofCompleted hcompleted⟩
      cases hreply : r .enterTry with
      | ok _ => rfl
      | error e =>
        rw [hreply] at hsucceeds
        cases hsucceeds
    · exact .inr ⟨harmed, hsignal, signalInLoop_ofSignal rfl hsignal⟩

/-! ### The two commands -/

/-- The arguments of the command line, with the function they select. -/
inductive Args where
  | run (args : RunArgs)
  | runChannels (args : RunChannelsArgs)

/-- `args.func`, whose loop makes at most `n` rounds. -/
def Args.func : Args → ℕ → Meth Locals Unit
  | .run args => runAnalyzer args
  | .runChannels args => runChannelAnalyzer args

/-- A run that stopped cleanly: `collector.close()` completed with nothing left of the
collector, and so did `flush` and `close` of the writer, if there is one. -/
def StopsCleanly (me : ℕ) (l : Locals) (m : Machine) : Prop :=
  l.closed = true ∧ l.Released me m ∧
    (m.writer.created = true → m.writer.flushed = true ∧ m.writer.closed = true)

instance (me : ℕ) (l : Locals) (m : Machine) : Decidable (StopsCleanly me l m) :=
  inferInstanceAs (Decidable (_ ∧ _))

section Signals

variable {me : ℕ}

theorem not_stopsCleanly {l : Locals} {m : Machine} (h : l.closed = false) :
    ¬ StopsCleanly me l m := by
  intro hclean
  have hclosed := hclean.1
  rw [h] at hclosed
  cases hclosed

/-- A call of the writer: it completes and is good, or a signal arrives and is not. -/
theorem writerCall_cases {op : SystemCall} {r : Reply} {m : Machine} (hr : SignalsOnly op r m)
    (hop : op.inLoop = false) (hkind : op = .flush ∨ op = .closeWriter) :
    (∃ a, r op = .ok a) ∧ signalInLoop op r m = true ∨
      r op = .error .keyboardInterrupt ∧ signalInLoop op r m = false := by
  rcases signalsOnly_cases hr with ⟨hsucceeds, hcompleted⟩ | ⟨_, hsignal⟩
  · refine .inl ⟨?_, signalInLoop_ofCompleted hcompleted⟩
    cases hreply : r op with
    | ok a => exact ⟨a, rfl⟩
    | error e =>
      rw [hreply] at hsucceeds
      rcases hkind with rfl | rfl <;> cases hsucceeds
  · exact .inr ⟨hsignal, signalInLoop_ofSignal hop hsignal⟩

/-- Flushing and closing the writer, when the collector is closed. -/
theorem writer_cleanup_stopsCleanly {l : Locals} {m : Machine} (hclosed : l.closed = true)
    (hwriter : m.writer = { created := true }) (hreleased : l.Released me m) :
    (do
      signalled .flush
      signalled .closeWriter : Meth Locals Unit).Ensures (watching me signalInLoop)
        (Script.watched SignalsOnly)
        (fun _ l' s => StopsCleanly me l' s.1 ↔ s.2 = true) l (m, true) := by
  apply ensures_bind
  apply signalled_ensures SystemCall.flush
  intro r l₁ hr hl₁
  have hserve : serve me .flush r m = (r .flush, Machine.effect me .flush (r .flush) m) := rfl
  rw [hserve]
  rcases writerCall_cases hr rfl (.inl rfl) with ⟨⟨a, hreply⟩, hgood⟩ | ⟨hreply, hgood⟩
  · rw [hreply, hgood, Bool.true_and]
    apply signalled_ensures SystemCall.closeWriter
    intro r l₂ hr hl₂
    have hheld : l₂.held = l.held := hl₂.trans hl₁
    have hserve : ∀ m, serve me .closeWriter r m =
        (r .closeWriter, Machine.effect me .closeWriter (r .closeWriter) m) := fun _ => rfl
    rw [hserve]
    rcases writerCall_cases hr rfl (.inr rfl) with ⟨⟨a', hreply'⟩, hgood'⟩ | ⟨hreply', hgood'⟩
    · rw [hreply', hgood', Bool.true_and]
      refine ⟨fun _ => rfl, fun _ => ⟨(congrArg Prod.snd hheld).trans hclosed, ?_, fun _ => ?_⟩⟩
      · exact (released_congr (congrArg Prod.fst hheld) rfl rfl).mpr hreleased
      · exact ⟨Bool.or_true _, Bool.or_true _⟩
    · rw [hreply', hgood', Bool.and_false]
      refine ⟨fun h => ?_, nofun⟩
      have hwritten : (m.writer.created = true → _ ∧ (m.writer.closed || false) = true) := h.2.2
      rw [hwriter] at hwritten
      exact (hwritten rfl).2
  · rw [hreply, hgood, Bool.and_false]
    refine ⟨fun h => ?_, nofun⟩
    have hwritten : (m.writer.created = true → (m.writer.flushed || false) = true ∧ _) := h.2.2
    rw [hwriter] at hwritten
    exact (hwritten rfl).1

theorem runChannels_checkpoint_keeps :
    (do
      let samples ← signalled .readCheckpoint
      signalled (.emitSamples samples) : Meth Locals Unit).Keeps (serve me) (fun op => op.inLoop = true)
        Locals.held := by
  apply keeps_bind (signalled_keeps SystemCall.readCheckpoint rfl)
  exact fun samples => signalled_keeps (SystemCall.emitSamples samples) rfl

/-- From the moment a run holds its collector, its replies tell whether it stops cleanly. -/
theorem supervise_stopsCleanly {watch : Bool} {duration : Option ℤ}
    {checkpoint cleanup : Meth Locals Unit} {n : ℕ} {m : Machine} {collector : AnyCollector}
    (hcheckpoint : checkpoint.Keeps (serve me) (fun op => op.inLoop = true) Locals.held)
    (harmed : m.armed = false) (hholds : collector.Holds me m)
    (hcleanup : ∀ l' m', l'.closed = true → m'.writer = m.writer → l'.Released me m' →
      cleanup.Ensures (watching me signalInLoop) (Script.watched SignalsOnly)
        (fun _ l s => StopsCleanly me l s.1 ↔ s.2 = true) l' (m', true)) :
    (supervise watch duration checkpoint cleanup n).Ensures (watching me signalInLoop)
      (Script.watched SignalsOnly)
      (fun _ l s => s.1.armed = true → (StopsCleanly me l s.1 ↔ s.2 = true))
      { collector := some collector } (m, true) := by
  have hsupervise : (supervise watch duration checkpoint cleanup n).Ensures
      (watching me signalInLoop) (Script.watched SignalsOnly)
      (fun _ l s => StopsCleanly me l s.1 ↔ s.2 = true) { collector := some collector }
      (m, true) := by
    apply supervise_ensures signalsOnly_circumstances hcheckpoint harmed rfl
    · intro c hc
      cases hc
      exact hholds
    · exact fun l' m' hclosed _ => ⟨fun h => absurd h (not_stopsCleanly hclosed), nofun⟩
    · exact hcleanup
  exact hsupervise.mono fun _ _ _ h _ => h

theorem runAnalyzer_stopsCleanly (args : RunArgs) (n : ℕ) {m : Machine} (harmed : m.armed = false)
    (hloader : m.loader me = false) (hwriter : m.writer = {}) :
    (runAnalyzer args n).Ensures (watching me signalInLoop) (Script.watched SignalsOnly)
      (fun _ l s => s.1.armed = true → (StopsCleanly me l s.1 ↔ s.2 = true)) {} (m, true) := by
  have hunarmed : Unarmed {} true (m, true) := ⟨harmed, hwriter, rfl⟩
  apply ensures_bind
  apply (createCollector_constructs signalsOnly_circumstances.toCircumstances args ({} : Locals)
    hunarmed hloader).mono
  rintro r l ⟨m₁, b₁⟩ ⟨hl, ⟨harmed, hwriter, hflag⟩, hholds⟩
  dsimp only at hl harmed hwriter hflag
  subst hl hflag
  cases r with
  | error e =>
    intro h
    rw [harmed] at h
    cases h
  | ok collector =>
    apply ensures_bind
    apply alone_update
    apply alone_bind_ask SystemCall.createWriter
    intro r hr
    obtain ⟨hsucceeds, hcompleted⟩ := signalsOnly_unarmed hr harmed
    have hstate : (watching me signalInLoop .createWriter r (m₁, true)).2 =
        (Machine.effect me .createWriter (r .createWriter) m₁, true) := by
      show (_, true && decide (signalInLoop .createWriter r m₁ = true)) = _
      rw [signalInLoop_ofCompleted hcompleted]
      rfl
    have hanswer : (watching me signalInLoop .createWriter r (m₁, true)).1 = r .createWriter := rfl
    rw [hstate, hanswer]
    cases hreply : r .createWriter with
    | error e =>
      rw [hreply] at hsucceeds
      cases hsucceeds
    | ok a =>
      refine ⟨nofun, fun _ _ => ?_⟩
      have hcreated : (Machine.effect me .createWriter (.ok a) m₁).writer = { created := true } := by
        show ({ m₁.writer with created := true } : WriterCalls) = _
        rw [hwriter]
      apply supervise_stopsCleanly run_checkpoint_keeps
      · exact harmed
      · exact hholds collector rfl
      · intro l' m' hclosed hwriter' hreleased
        exact writer_cleanup_stopsCleanly hclosed (hwriter'.trans hcreated) hreleased

theorem runChannelAnalyzer_stopsCleanly (args : RunChannelsArgs) (n : ℕ) {m : Machine}
    (harmed : m.armed = false) (hloader : m.loader me = false) (hwriter : m.writer = {}) :
    (runChannelAnalyzer args n).Ensures (watching me signalInLoop) (Script.watched SignalsOnly)
      (fun _ l s => s.1.armed = true → (StopsCleanly me l s.1 ↔ s.2 = true)) {} (m, true) := by
  have hunarmed : Unarmed {} true (m, true) := ⟨harmed, hwriter, rfl⟩
  apply ensures_bind
  apply (createChannelCollector_constructs signalsOnly_circumstances.toCircumstances args
    ({} : Locals) hunarmed hloader).mono
  rintro r l ⟨m₁, b₁⟩ ⟨hl, ⟨harmed, hwriter, hflag⟩, hholds⟩
  dsimp only at hl harmed hwriter hflag
  subst hl hflag
  cases r with
  | error e =>
    intro h
    rw [harmed] at h
    cases h
  | ok collector =>
    apply ensures_bind
    apply alone_update
    apply supervise_stopsCleanly runChannels_checkpoint_keeps harmed (hholds collector rfl)
    intro l' m' hclosed hwriter' hreleased
    refine alone_pure ⟨fun _ => rfl, fun _ => ⟨hclosed, hreleased, fun hcreated => ?_⟩⟩
    rw [hwriter', hwriter] at hcreated
    cases hcreated

end Signals

open Script in
/-- Every run of either command in which no step fails on its own, with any number of signals
at any steps after the handlers are installed: it exits with the clean-up completed exactly
when every signal arrived in the loop. -/
theorem signals_spare_cleanup_iff (me n : ℕ) (args : Args) (m : Machine) (harmed : m.armed = false)
    (hloader : m.loader me = false) (hwriter : m.writer = {}) (replies : List Reply)
    (hreplies : Along (advance (serve me)) (Permits SignalsOnly) (args.func n {}, m) replies)
    (r : Except PyExc Unit) (l : Locals) (m' : Machine)
    (hrun : run (serve me) (args.func n {}) m replies = (.done (r, l), m'))
    (hinstalled : m'.armed = true) :
    StopsCleanly me l m' ↔
      Along (advance (serve me)) (Permits fun op r m => signalInLoop op r m = true)
        (args.func n {}, m) replies := by
  let P : Except PyExc Unit × Locals → Machine → Prop := fun _ m => m.armed = true
  let Q : Except PyExc Unit × Locals → Machine → Prop := fun a m => StopsCleanly me a.2 m
  have hensures : Script.Ensures (watching me signalInLoop) (watched SignalsOnly)
      (fun a s => P a s.1 → (Q a s.1 ↔ s.2 = true)) (args.func n {}) (m, true) := by
    cases args with
    | run args => exact runAnalyzer_stopsCleanly args n harmed hloader hwriter
    | runChannels args => exact runChannelAnalyzer_stopsCleanly args n harmed hloader hwriter
  exact hensures.run_iff hreplies hrun hinstalled

/-! Watching `eth0`; the first signal arrives while the program sleeps. -/

def watchEth0 : Args :=
  .run { collector := .ebpf, interface := some "eth0".toList, watch := true }

def signalAsleep : List Reply := List.replicate 13 .works ++ [.signal]

/-- A second signal, during `collector.close()`, leaves the tc filter behind. -/
theorem second_signal_leaves_filter :
    Along (Script.advance (serve 0)) (Script.Permits SignalsOnly) (watchEth0.func 1 {}, {})
        (signalAsleep ++ [.works, .signal]) ∧
      Script.Returned (fun a m => m.armed = true ∧ ¬ StopsCleanly 0 a.2 m)
        (Script.run (serve 0) (watchEth0.func 1 {}) {} (signalAsleep ++ [.works, .signal])) := by
  decide +kernel

theorem signals_spare_cleanup_iff_asleep :
    Script.Returned
      (fun a m => StopsCleanly 0 a.2 m ↔
        Along (Script.advance (serve 0)) (Script.Permits fun op r m => signalInLoop op r m = true)
          (watchEth0.func 1 {}, {}) (signalAsleep ++ List.replicate 4 .works))
      (Script.run (serve 0) (watchEth0.func 1 {}) {} (signalAsleep ++ List.replicate 4 .works)) := by
  have hreturned : Script.Returned (fun _ m => m.armed = true)
      (Script.run (serve 0) (watchEth0.func 1 {}) {} (signalAsleep ++ List.replicate 4 .works)) := by
    decide +kernel
  obtain ⟨⟨r, l⟩, m, hrun, hinstalled⟩ := hreturned.eq_done
  rw [hrun]
  exact signals_spare_cleanup_iff 0 1 watchEth0 {} rfl rfl rfl _ (by decide +kernel) r l m hrun
    hinstalled

end UdpAnalyzer

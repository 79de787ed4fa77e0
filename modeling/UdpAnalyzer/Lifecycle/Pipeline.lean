import UdpAnalyzer.Lifecycle.Supervision

/-! From the checkpoints of a run to what it prints and stores. Whatever raises or interrupts
a run, each checkpoint is printed and stored once at most, in the order they were read, and only
the last one may be missing. -/

namespace UdpAnalyzer

open Method

/-- The checkpoints of a run so far: those that were read, those that were printed and stored,
and whether a step of a checkpoint raised. -/
structure Progress where
  read : List Samples := []
  printed : List Samples := []
  stored : List Samples := []
  raised : Bool := false

/-- The steps of a checkpoint. -/
def SystemCall.isStep : SystemCall → Bool
  | .readCheckpoint | .emitSamples _ | .writeSamples _ => true
  | _ => false

namespace Progress

/-- A step that returns counts for the samples it returned or was given. -/
def see : (op : SystemCall) → Answer op → Progress → Progress
  | .readCheckpoint, .ok (samples : Samples), p => { p with read := p.read ++ [samples] }
  | .emitSamples samples, .ok _, p => { p with printed := p.printed ++ [samples] }
  | .writeSamples samples, .ok _, p => { p with stored := p.stored ++ [samples] }
  | .readCheckpoint, .error _, p => { p with raised := true }
  | .emitSamples _, .error _, p => { p with raised := true }
  | .writeSamples _, .error _, p => { p with raised := true }
  | _, _, p => p

/-- Everything read was printed, and stored by a run that stores. -/
structure Done (stores : Bool) (p : Progress) : Prop where
  printed : p.printed = p.read
  stored : p.stored = if stores then p.read else []

/-- Printed and stored in order, the last checkpoint perhaps not yet. -/
structure InOrder (stores : Bool) (p : Progress) : Prop where
  printed : p.printed <+: p.read
  stored : p.stored <+: if stores then p.printed else []
  unprinted : p.read.length ≤ p.printed.length + 1
  unstored : stores = true → p.read.length ≤ p.stored.length + 1

/-- What a step finds: a checkpoint is read when everything is done, printed once it is
read, stored once it is printed. -/
def Allowed (stores : Bool) : SystemCall → Progress → Prop
  | .readCheckpoint, p => p.Done stores
  | .emitSamples samples, p => p.read = p.printed ++ [samples] ∧
      p.stored = if stores then p.printed else []
  | .writeSamples samples, p => stores = true ∧ p.printed = p.read ∧
      p.read = p.stored ++ [samples]
  | _, _ => True

variable {stores : Bool} {p : Progress}

theorem see_of_not_step {op : SystemCall} (h : op.isStep = false) (answer : Answer op) :
    see op answer p = p := by
  cases op <;> first | rfl | cases h

theorem allowed_of_not_step {op : SystemCall} (h : op.isStep = false) : Allowed stores op p := by
  cases op <;> first | cases h; done | trivial

theorem Done.inOrder (h : p.Done stores) : p.InOrder stores where
  printed := by rw [h.printed]
  stored := by rw [h.stored, h.printed]
  unprinted := by
    rw [h.printed]
    exact Nat.le_succ _
  unstored := by
    intro hstores
    rw [h.stored, if_pos hstores]
    exact Nat.le_succ _

/-- A read when everything is done. -/
theorem Done.inOrder_read (h : p.Done stores) (samples : Samples) :
    { p with read := p.read ++ [samples] }.InOrder stores where
  printed := by
    show p.printed <+: p.read ++ [samples]
    rw [h.printed]
    exact List.prefix_append p.read [samples]
  stored := h.inOrder.stored
  unprinted := by
    show (p.read ++ [samples]).length ≤ p.printed.length + 1
    rw [h.printed, List.length_append, List.length_singleton]
  unstored := by
    intro hstores
    show (p.read ++ [samples]).length ≤ p.stored.length + 1
    rw [h.stored, if_pos hstores, List.length_append, List.length_singleton]

/-- The last checkpoint, printed. -/
theorem inOrder_emit {samples : Samples} (h : Allowed stores (.emitSamples samples) p) :
    { p with printed := p.printed ++ [samples] }.InOrder stores := by
  obtain ⟨hread, hstored⟩ := h
  constructor
  · show p.printed ++ [samples] <+: p.read
    rw [hread]
  · show p.stored <+: if stores then p.printed ++ [samples] else []
    rw [hstored]
    split
    · exact List.prefix_append p.printed [samples]
    · exact List.prefix_rfl
  · show p.read.length ≤ (p.printed ++ [samples]).length + 1
    rw [hread]
    exact Nat.le_succ _
  · intro hstores
    show p.read.length ≤ p.stored.length + 1
    rw [hread, hstored, if_pos hstores, List.length_append, List.length_singleton]

/-- The last checkpoint, stored. -/
theorem inOrder_write {samples : Samples} (h : Allowed stores (.writeSamples samples) p) :
    { p with stored := p.stored ++ [samples] }.InOrder stores := by
  obtain ⟨hstores, hprinted, hread⟩ := h
  constructor
  · show p.printed <+: p.read
    rw [hprinted]
  · show p.stored ++ [samples] <+: if stores then p.printed else []
    rw [if_pos hstores, hprinted, hread]
  · show p.read.length ≤ p.printed.length + 1
    rw [hprinted]
    exact Nat.le_succ _
  · intro _
    show p.read.length ≤ (p.stored ++ [samples]).length + 1
    rw [hread]
    exact Nat.le_succ _

/-- An allowed step keeps the order. -/
theorem inOrder_see {op : SystemCall} (answer : Answer op) (hallowed : Allowed stores op p)
    (h : p.InOrder stores) : (see op answer p).InOrder stores := by
  by_cases hop : op.isStep = false
  · rw [see_of_not_step hop]
    exact h
  cases answer with
  | error e =>
    have hraised : { p with raised := true }.InOrder stores :=
      ⟨h.printed, h.stored, h.unprinted, h.unstored⟩
    cases op <;> first | exact hraised | exact h
  | ok a =>
    cases op with
    | readCheckpoint => exact Done.inOrder_read hallowed a
    | emitSamples samples => exact inOrder_emit hallowed
    | writeSamples samples => exact inOrder_write hallowed
    | _ => exact absurd rfl hop

end Progress

section Runs

open Progress

variable {me : ℕ} {stores : Bool} {l : Locals} {s : Machine × Progress}

/-- The machine with the account of the checkpoints. -/
abbrev accounting (me : ℕ) : Script.Server SystemCall Value PyExc Reply (Machine × Progress) :=
  Script.observe (serve me) Progress.see

/-- The steps of a checkpoint happen in order. -/
abbrev stepwise (stores : Bool) : Contract SystemCall Reply (Machine × Progress) :=
  .careful (fun _ _ _ => True) fun op s => Progress.Allowed stores op s.2

/-- A method without a step leaves the account as it is. -/
theorem keeps_progress {S V α : Type} {m : Meth S α} {view : S → V}
    (h : m.Keeps (serve me) (fun op => op.isStep = false) view) (self : S) :
    m.Ensures (accounting me) (stepwise stores)
      (fun _ self' t => view self' = view self ∧ t.2 = s.2) self s := by
  apply (h.observe Progress.see).frame
  · exact fun op s hop => allowed_of_not_step hop
  · rintro s t rfl ht
    exact ht
  · intro op r t hop _ ht
    show see op _ t.2 = _
    rw [see_of_not_step hop]
    exact ht
  · rfl

/-- A call with the handlers installed, as a call. -/
theorem signalled_step (op : SystemCall) {post : Answer op → Locals → Machine × Progress → Prop}
    (hallowed : Progress.Allowed stores op s.2)
    (h : ∀ answer l' m', post answer l' (m', see op answer s.2)) :
    (signalled op).Ensures (accounting me) (stepwise stores) post l s := by
  apply ensures_bind
  apply ensures_attempt
  apply careful_ask op
  · exact hallowed
  intro r _
  have hpost : ∀ l', post (serve me op r s.1).1 l' (accounting me op r s).2 := fun l' =>
    h (serve me op r s.1).1 l' (serve me op r s.1).2
  have hanswer : (accounting me op r s).1 = (serve me op r s.1).1 := rfl
  rw [hanswer]
  cases hreply : (serve me op r s.1).1 with
  | ok a =>
    rw [hreply] at hpost
    exact careful_pure (hpost l)
  | error e =>
    rw [hreply] at hpost
    cases e with
    | keyboardInterrupt =>
      apply ensures_bind
      apply careful_update
      exact careful_raise (hpost _)
    | _ => exact careful_raise (hpost l)

theorem signalled_keeps_unit (op : SystemCall) (h : op.isStep = false) :
    (signalled op).Keeps (serve me) (fun op => op.isStep = false) fun _ => () := by
  apply keeps_bind (keeps_attempt (keeps_ask op h))
  intro answer
  split
  · apply keeps_bind
    · exact keeps_update fun _ => rfl
    · exact fun _ => keeps_raise
  · exact keeps_reraise

theorem closeCollector_progress : closeCollector.Keeps (serve me) (fun op => op.isStep = false)
    fun _ => () := by
  intro l s
  apply Script.Ensures.on _ (closeCollector_keeps l s)
  apply Contract.anywhere_refines
  intro op _ hop
  show op.isStep = false
  cases op <;> first | rfl | exact absurd rfl hop

/-- A run has done what it read, or a step raised. -/
def Settled (stores : Bool) (p : Progress) : Prop := p.Done stores ∨ p.raised = true

theorem quiet_settled {α : Type} {m : Meth Locals α}
    (h : m.Keeps (serve me) (fun op => op.isStep = false) fun _ => ()) (hs : Settled stores s.2) :
    m.Ensures (accounting me) (stepwise stores) (fun _ _ t => Settled stores t.2) l s := by
  apply (keeps_progress h l).mono
  rintro _ _ t ⟨_, ht⟩
  rw [ht]
  exact hs

theorem quiet_bind {α : Type} {m : Meth Locals α} {f : α → Meth Locals Unit}
    (h : m.Keeps (serve me) (fun op => op.isStep = false) fun _ => ()) (hs : s.2.Done stores)
    (hf : ∀ a l t, t.2.Done stores → (f a).Ensures (accounting me) (stepwise stores)
      (fun _ _ u => Settled stores u.2) l t) :
    (m >>= f).Ensures (accounting me) (stepwise stores) (fun _ _ u => Settled stores u.2) l s := by
  apply ensures_bind
  apply (keeps_progress h l).mono
  rintro r l' t ⟨_, ht⟩
  have hdone : t.2.Done stores := by
    rw [ht]
    exact hs
  cases r with
  | error e => exact .inl hdone
  | ok a => exact hf a l' t hdone

/-- A whole checkpoint, or a step of it that raises. -/
abbrev Completes (stores : Bool) : Except PyExc Unit → Locals → Machine × Progress → Prop
  | .ok _, _, t => t.2.Done stores
  | .error _, _, t => t.2.raised = true

section Loop

variable {watch : Bool} {deadline : Option ℤ} {checkpoint : Meth Locals Unit}

theorem round_progress
    (hcheckpoint : checkpoint.Ensures (accounting me) (stepwise stores) (Completes stores) l s) :
    (round watch deadline checkpoint).Ensures (accounting me) (stepwise stores)
      (fun
        | .ok none, _, t => t.2.Done stores
        | .ok (some _), _, t => Settled stores t.2
        | .error _, _, t => Settled stores t.2) l s := by
  apply ensures_bind
  apply hcheckpoint.mono
  intro r l' t ht
  cases r with
  | error e => exact .inr ht
  | ok _ =>
    have hdone : t.2.Done stores := ht
    apply Method.Ensures.mono
    rotate_left
    · apply @keeps_progress me stores t Locals Unit _ _ fun _ => ()
      apply keeps_bind keeps_self
      intro l
      split
      · exact keeps_pure
      apply keeps_bind
      · split
        · exact keeps_pure
        · apply keeps_bind (signalled_keeps_unit SystemCall.monotonic rfl)
          exact fun _ => keeps_pure
      intro late
      split
      · exact keeps_pure
      · apply keeps_bind (signalled_keeps_unit SystemCall.sleep rfl)
        exact fun _ => keeps_pure
    · rintro r l'' u ⟨_, hu⟩
      have hdone' : u.2.Done stores := by
        rw [hu]
        exact hdone
      rcases r with e | (_ | _)
      · exact .inl hdone'
      · exact hdone'
      · exact .inl hdone'

theorem watchLoop_progress
    (hcheckpoint : ∀ l s, s.2.Done stores →
      checkpoint.Ensures (accounting me) (stepwise stores) (Completes stores) l s)
    (n : ℕ) (hs : s.2.Done stores) :
    (watchLoop watch deadline checkpoint n).Ensures (accounting me) (stepwise stores)
      (fun _ _ t => Settled stores t.2) l s := by
  apply ensures_bind
  apply ensures_attempt
  apply ensures_repeatUntil (fun _ t => t.2.Done stores) _ n hs
  intro l s hs
  apply (round_progress (hcheckpoint l s hs)).mono
  intro r l' t ht
  rcases r with e | (_ | _)
  · cases e with
    | keyboardInterrupt => exact quiet_settled (signalled_keeps_unit SystemCall.exceptClause rfl) ht
    | _ => exact quiet_settled keeps_raise ht
  · exact ht
  · exact quiet_settled keeps_pure ht

/-- From the deadline to the end of the clean-up. -/
theorem supervise_progress {duration : Option ℤ} {cleanup : Meth Locals Unit}
    (hcheckpoint : ∀ l s, s.2.Done stores →
      checkpoint.Ensures (accounting me) (stepwise stores) (Completes stores) l s)
    (hcleanup : cleanup.Keeps (serve me) (fun op => op.isStep = false) fun _ => ())
    (n : ℕ) (hs : s.2.Done stores) :
    (supervise watch duration checkpoint cleanup n).Ensures (accounting me) (stepwise stores)
      (fun _ _ t => Settled stores t.2) l s := by
  have hdeadline : (deadlineOf duration).Keeps (serve me) (fun op => op.isStep = false)
      fun _ => () := by
    cases duration with
    | none => exact keeps_pure
    | some d =>
      apply keeps_bind
      · exact keeps_ask SystemCall.monotonic rfl
      · exact fun _ => keeps_pure
  have hhandler : ∀ signum, (installHandler signum).Keeps (serve me)
      (fun op => op.isStep = false) fun _ => () := by
    intro signum
    apply keeps_bind (keeps_attempt (signalled_keeps_unit (.installHandler signum) rfl))
    intro answer
    split
    · exact keeps_pure
    · exact keeps_pure
    · exact keeps_reraise
  have hclose : (closeCollector >>= fun _ => cleanup).Keeps (serve me)
      (fun op => op.isStep = false) fun _ => () :=
    keeps_bind closeCollector_progress fun _ => hcleanup
  apply quiet_bind hdeadline hs
  intro deadline l s hs
  apply quiet_bind (hhandler .sigterm) hs
  intro _ l s hs
  apply quiet_bind (hhandler .sigint) hs
  intro _ l s hs
  apply quiet_bind (signalled_keeps_unit SystemCall.enterTry rfl) hs
  intro _ l s hs
  apply ensures_finallyDo
  apply (watchLoop_progress hcheckpoint n hs).mono
  intro outcome l t ht
  apply (quiet_settled hclose ht).mono
  intro r _ u hu
  cases r with
  | ok _ => exact hu
  | error e => exact hu

end Loop

/-- A checkpoint is read when everything is done. -/
theorem read_step {post : Except PyExc Samples → Locals → Machine × Progress → Prop}
    (hs : s.2.Done stores) (herror : ∀ e l m, post (.error e) l (m, { s.2 with raised := true }))
    (hok : ∀ samples l m,
      post (.ok samples) l (m, { s.2 with read := s.2.read ++ [samples] })) :
    (signalled .readCheckpoint).Ensures (accounting me) (stepwise stores) post l s := by
  apply signalled_step SystemCall.readCheckpoint
  · exact hs
  intro answer l m
  cases answer with
  | error e => exact herror e l m
  | ok samples => exact hok samples l m

/-- It is printed once it is read. -/
theorem emit_step {post : Except PyExc Unit → Locals → Machine × Progress → Prop} {m : Machine}
    {p : Progress} {samples : Samples} (hp : p.Done stores)
    (herror : ∀ e l m q, q.raised = true → post (.error e) l (m, q))
    (hok : ∀ l m, post (.ok ()) l
      (m, { p with read := p.read ++ [samples], printed := p.read ++ [samples] })) :
    (signalled (.emitSamples samples)).Ensures (accounting me) (stepwise stores) post l
      (m, { p with read := p.read ++ [samples] }) := by
  apply signalled_step (SystemCall.emitSamples samples)
  · refine ⟨?_, ?_⟩
    · show p.read ++ [samples] = p.printed ++ [samples]
      rw [hp.printed]
    · show p.stored = if stores then p.printed else []
      rw [hp.stored, hp.printed]
  intro answer l m
  cases answer with
  | error e => exact herror e l m _ rfl
  | ok _ =>
    show post (.ok ()) l
      (m, { p with read := p.read ++ [samples], printed := p.printed ++ [samples] })
    rw [hp.printed]
    exact hok l m

theorem run_checkpoint_completes (hs : s.2.Done true) :
    ((do
      let samples ← signalled .readCheckpoint
      signalled (.emitSamples samples)
      signalled (.writeSamples samples)) : Meth Locals Unit).Ensures (accounting me) (stepwise true)
      (Completes true) l s := by
  apply ensures_bind
  apply read_step hs
  · exact fun _ _ _ => rfl
  intro samples l m
  apply ensures_bind
  apply emit_step hs
  · exact fun _ _ _ _ h => h
  intro l m
  have hstored : s.2.read ++ [samples] = s.2.stored ++ [samples] := by
    rw [hs.stored, if_pos rfl]
  apply signalled_step (SystemCall.writeSamples samples)
  · exact ⟨rfl, rfl, hstored⟩
  intro answer l m
  cases answer with
  | error e => rfl
  | ok _ => exact ⟨rfl, hstored.symm⟩

theorem channels_checkpoint_completes (hs : s.2.Done false) :
    ((do
      let samples ← signalled .readCheckpoint
      signalled (.emitSamples samples)) : Meth Locals Unit).Ensures (accounting me) (stepwise false)
      (Completes false) l s := by
  apply ensures_bind
  apply read_step hs
  · exact fun _ _ _ => rfl
  intro samples l m
  apply emit_step hs
  · exact fun _ _ _ _ h => h
  · exact fun _ _ => ⟨rfl, hs.stored⟩

theorem isStep_of_kind {kind : CallKind} (hne : kind ≠ .analyzer) (op : SystemCall)
    (hop : op.kind = kind) : op.isStep = false := by
  cases op <;> first | rfl | exact absurd hop.symm hne

theorem createCollector_keeps (args : RunArgs) :
    (createCollector args : Meth Locals AnyCollector).Keeps (serve me)
      (fun op => op.isStep = false) fun _ => () := by
  unfold createCollector
  split
  · exact keeps_raise
  split
  · exact keeps_pure
  · dsimp only
    generalize args.deliveryAttribution.getD _ = deliveryAttribution
    split
    · exact keeps_raise
    · apply keeps_bind
      · intro l m
        apply (EbpfCollector.create_ensures (isStep_of_kind (by decide)) (isStep_of_kind (by decide)) _
          (fun _ => isStep_of_kind (by decide)) l m).mono
        exact fun _ _ _ _ => rfl
      · exact fun _ => keeps_pure

theorem createChannelCollector_keeps (args : RunChannelsArgs) :
    (createChannelCollector args).Keeps (serve me) (fun op => op.isStep = false) fun _ => () := by
  have hcreate : ∀ proto loader object mapId attach,
      (ChannelResources.create proto loader object mapId attach : Meth Locals ChannelResources).Keeps
        (serve me) (fun op => op.isStep = false) fun _ => () := fun proto loader object mapId attach =>
    ChannelResources.create_keeps (isStep_of_kind (by decide)) (isStep_of_kind (by decide)) proto
      loader object mapId attach
  unfold createChannelCollector
  split
  · exact keeps_raise
  apply keeps_bind
  · exact keeps_ask SystemCall.loadCatalog rfl
  intro _
  split
  · exact keeps_pure
  · exact keeps_bind (hcreate _ _ _ _ _) fun _ => keeps_pure
  · exact keeps_bind (hcreate _ _ _ _ _) fun _ => keeps_pure

theorem runAnalyzer_progress (args : RunArgs) (n : ℕ) (hs : s.2.Done true) :
    (runAnalyzer args n).Ensures (accounting me) (stepwise true)
      (fun _ _ t => Settled true t.2) l s := by
  apply quiet_bind (createCollector_keeps args) hs
  intro collector l s hs
  apply quiet_bind (keeps_update fun _ => rfl) hs
  intro _ l s hs
  apply quiet_bind
  · exact keeps_ask SystemCall.createWriter rfl
  · exact hs
  intro _ l s hs
  refine supervise_progress (fun l s hs => run_checkpoint_completes hs) ?_ n hs
  apply keeps_bind (signalled_keeps_unit SystemCall.flush rfl)
  exact fun _ => signalled_keeps_unit SystemCall.closeWriter rfl

theorem runChannelAnalyzer_progress (args : RunChannelsArgs) (n : ℕ) (hs : s.2.Done false) :
    (runChannelAnalyzer args n).Ensures (accounting me) (stepwise false)
      (fun _ _ t => Settled false t.2) l s := by
  apply quiet_bind (createChannelCollector_keeps args) hs
  intro collector l s hs
  apply quiet_bind (keeps_update fun _ => rfl) hs
  intro _ l s hs
  exact supervise_progress (fun l s hs => channels_checkpoint_completes hs) keeps_pure n hs

/-- What the terms say of the end of a run, as a fact about the run itself. -/
theorem account_of_progress {program : Meth Locals Unit} {m : Machine} (replies : List Reply)
    (h : program.Ensures (accounting me) (stepwise stores) (fun _ _ t => Settled stores t.2) {}
      (m, {})) :
    (Script.account (serve me) Progress.see (program {}) m {} replies).InOrder stores ∧
    (∀ result m', Script.run (serve me) (program {}) m replies = (.done result, m') →
      Settled stores (Script.account (serve me) Progress.see (program {}) m {} replies)) := by
  have hstart : ({} : Progress).Done stores := ⟨rfl, by cases stores <;> rfl⟩
  have hreplies : Along (Script.advance (accounting me)) (Script.Permits (stepwise stores).replies)
      (program {}, m, {}) replies := Script.along_permits_true
  have hserve : ∀ op r (s : Machine × Progress), (stepwise stores).calls op s →
      (stepwise stores).replies op r s → s.2.InOrder stores →
      (accounting me op r s).2.2.InOrder stores :=
    fun op r s hallowed _ hs => inOrder_see _ hallowed hs
  constructor
  · exact Script.Ensures.run_invariant hserve h hstart.inOrder hreplies
  · intro result m' hrun
    have hobserved := @Script.run_observe _ _ _ _ _ _ _ (serve me) Progress.see (program {}) m {}
      replies
    rw [hrun] at hobserved
    have hsettled := Script.Ensures.run h hreplies hobserved
    exact hsettled

/-- Every checkpoint of a run is printed and stored once at most and in the order they were
read, and only the last one may be missing; none is when no step raised. -/
theorem checkpoints_in_order (me n : ℕ) (m : Machine) (replies : List Reply) :
    (∀ args : RunArgs,
      let p := Script.account (serve me) Progress.see (runAnalyzer args n {}) m {} replies
      p.InOrder true ∧ ∀ result m',
        Script.run (serve me) (runAnalyzer args n {}) m replies = (.done result, m') →
        p.raised = false → p.Done true) ∧
    (∀ args : RunChannelsArgs,
      let p := Script.account (serve me) Progress.see (runChannelAnalyzer args n {}) m {} replies
      p.InOrder false ∧ ∀ result m',
        Script.run (serve me) (runChannelAnalyzer args n {}) m replies = (.done result, m') →
        p.raised = false → p.Done false) := by
  have hstart : ∀ stores, ({} : Progress).Done stores := fun stores =>
    ⟨rfl, by cases stores <;> rfl⟩
  have hdone : ∀ {stores p}, Settled stores p → p.raised = false → p.Done stores := by
    intro stores p hsettled hraised
    rcases hsettled with hdone | htrue
    · exact hdone
    · rw [hraised] at htrue
      cases htrue
  constructor
  · intro args
    have hrun : (runAnalyzer args n).Ensures (accounting me) (stepwise true)
        (fun _ _ t => Settled true t.2) {} (m, {}) := runAnalyzer_progress args n (hstart true)
    obtain ⟨horder, hend⟩ := account_of_progress replies hrun
    exact ⟨horder, fun result m' hrun => hdone (hend result m' hrun)⟩
  · intro args
    have hrun : (runChannelAnalyzer args n).Ensures (accounting me) (stepwise false)
        (fun _ _ t => Settled false t.2) {} (m, {}) :=
      runChannelAnalyzer_progress args n (hstart false)
    obtain ⟨horder, hend⟩ := account_of_progress replies hrun
    exact ⟨horder, fun result m' hrun => hdone (hend result m' hrun)⟩

end Runs

end UdpAnalyzer

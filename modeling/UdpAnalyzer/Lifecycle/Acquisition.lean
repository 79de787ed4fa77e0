import UdpAnalyzer.Lifecycle.Cleanup
import UdpAnalyzer.Lifecycle.Ownership

/-! What a constructed collector holds. Up to the installation of the handlers no call of
the clean-up is interrupted, so a loader that was started is either known to the collector,
or it has been stopped again before the constructor goes on without it. -/

namespace UdpAnalyzer

open Method

/-- The handlers are not installed; the writer and the flag are as given. -/
structure Unarmed (writer : WriterCalls) (b : Bool) (s : Machine × Bool) : Prop where
  armed : s.1.armed = false
  writer_eq : s.1.writer = writer
  flag : s.2 = b

section Acquisition

variable {S : Type} {me : ℕ} {ok : SystemCall → Reply → Machine → Prop}
  {good : SystemCall → Reply → Machine → Bool} (env : Circumstances ok good)
  {writer : WriterCalls} {b : Bool}

include env

/-- Calls of the collector change nothing about the analyzer around it. -/
theorem Unarmed.serve {s : Machine × Bool} (hs : Unarmed writer b s) {op : SystemCall}
    (hop : op.kind ≠ .analyzer) {r : Reply} (hr : ok op r s.1) :
    Unarmed writer b (watching me good op r s).2 := by
  obtain ⟨harmed, hwriter⟩ := @Machine.effect_analyzer me op hop (Machine.answer me op (r op) s.1) s.1
  refine ⟨harmed.trans hs.armed, hwriter.trans hs.writer_eq, ?_⟩
  show (s.2 && decide (good op r s.1 = true)) = b
  rw [env.unarmed op r s.1 hop hs.armed hr, hs.flag]
  simp

/-- Nor do its methods. -/
theorem unarmed_frame {α V : Type} {view : S → V} {f : Meth S α}
    (h : f.Keeps (serve me) (fun op => op.kind ≠ .analyzer) view) (self : S) {s : Machine × Bool}
    (hs : Unarmed writer b s) :
    f.Ensures (watching me good) (Script.watched ok)
      (fun _ self' t => view self' = view self ∧ Unarmed writer b t) self s := by
  have hkeeps : f.Keeps (watching me good) (fun op => op.kind ≠ .analyzer) view := h.watch _
  have hrely : ∀ s t, (Script.watched ok).rely s t → Unarmed writer b s → Unarmed writer b t :=
    fun _ _ hst hs => hst ▸ hs
  have hserve : ∀ op r s, op.kind ≠ .analyzer → (Script.watched ok).replies op r s →
      Unarmed writer b s → Unarmed writer b (watching me good op r s).2 :=
    fun _ _ _ hop hr hs => hs.serve env hop hr
  exact hkeeps.frame (fun _ _ _ => trivial) hrely hserve self hs

/-- A method that does not deal with the loader leaves it stopped. -/
theorem idle_frame {α V : Type} {view : S → V} {f : Meth S α}
    (h : f.Keeps (serve me) (fun op => op.kind = .plain ∨ op.kind = .filters) view) (self : S)
    {s : Machine × Bool} (hs : Unarmed writer b s) (hidle : s.1.loader me = false) :
    f.Ensures (watching me good) (Script.watched ok)
      (fun _ self' t => view self' = view self ∧ Unarmed writer b t ∧ t.1.loader me = false)
      self s := by
  let inv : Machine × Bool → Prop := fun t => Unarmed writer b t ∧ t.1.loader me = false
  have hkeeps : f.Keeps (watching me good) (fun op => op.kind = .plain ∨ op.kind = .filters) view :=
    h.watch _
  have hrely : ∀ s t, (Script.watched ok).rely s t → inv s → inv t := fun _ _ hst hs => hst ▸ hs
  have hserve : ∀ op r s, op.kind = .plain ∨ op.kind = .filters →
      (Script.watched ok).replies op r s → inv s → inv (watching me good op r s).2 := by
    intro op r s hop hr hs
    have hanalyzer : op.kind ≠ .analyzer := by rcases hop with h | h <;> rw [h] <;> decide
    have hloader : op.kind ≠ .loader := by rcases hop with h | h <;> rw [h] <;> decide
    refine ⟨hs.1.serve env hanalyzer hr, ?_⟩
    show (Machine.effect me op _ s.1).loader me = false
    rw [Machine.effect_loader hloader]
    exact hs.2
  exact hkeeps.frame (fun _ _ _ => trivial) hrely hserve self ⟨hs, hidle⟩

/-- A call before the handlers are installed, and what follows it. -/
theorem unarmed_bind (op : SystemCall) (hop : EbpfCollector.Quiet op) {α : Type}
    {f : Value op → Meth S α} {self : S} {post : Except PyExc α → S → Machine × Bool → Prop}
    {s : Machine × Bool} (hs : Unarmed writer b s)
    (h : ∀ r t, ok op r s.1 → t.1 = (serve me op r s.1).2 → Unarmed writer b t →
      (∀ e, (serve me op r s.1).1 = .error e → post (.error e) self t) ∧
      (∀ a, (serve me op r s.1).1 = .ok a →
        (f a).Ensures (watching me good) (Script.watched ok) post self t)) :
    (ask op >>= f).Ensures (watching me good) (Script.watched ok) post self s := by
  apply alone_bind_ask op
  intro r hr
  have hkind : op.kind ≠ .analyzer := by rcases hop with h | h <;> rw [h] <;> decide
  exact h r _ hr rfl (hs.serve env hkind hr)

/-! ### The receive loader -/

/-- Stopping the receive loader succeeds. -/
theorem receive_detach_stops (self : ReceiveBpfAttachment) {s : Machine × Bool}
    (hs : Unarmed writer b s) (hprocess : s.1.loader me = true → self.process = true) :
    ReceiveBpfAttachment.detach.Ensures (watching me good) (Script.watched ok)
      (fun r _ t => Unarmed writer b t ∧ r = .ok () ∧ t.1.loader me = false) self s := by
  have hframe : ReceiveBpfAttachment.detach.Ensures (watching me good) (Script.watched ok)
      (fun _ _ t => _ ∧ Unarmed writer b t) self s :=
    unarmed_frame env (ReceiveBpfAttachment.detach_keeps fun op hop => by rw [hop]; decide) self hs
  have hclean := receive_detach_cleansUp env self s.1 s.2 hprocess
  apply (Script.Ensures.and hclean hframe).mono
  rintro ⟨r, a⟩ t ⟨hclean, _, ht⟩
  cases r with
  | ok _ =>
    refine ⟨ht, rfl, ?_⟩
    rw [hclean.1]
    exact Function.update_self me false s.1.loader
  | error e =>
    have harmed : t.1.armed = true := hclean.1
    rw [ht.armed] at harmed
    cases harmed

/-- How attaching ends: with a process the object knows of, or, where it raises an error
of the program's own, without a loader. -/
structure Acquired {α : Type} (me : ℕ) (writer : WriterCalls) (b : Bool) (r : Except PyExc α)
    (a : ReceiveBpfAttachment) (s : Machine × Bool) : Prop where
  unarmed : Unarmed writer b s
  process : ∀ v, r = .ok v → a.process = true
  stopped : ∀ message, r = .error (.runtimeError message) → s.1.loader me = false

omit env in
theorem Acquired.ofStopped {α : Type} {e : PyExc} {a : ReceiveBpfAttachment} {s : Machine × Bool}
    (hs : Unarmed writer b s) (h : s.1.loader me = false) :
    Acquired me writer b (.error e : Except PyExc α) a s :=
  ⟨hs, nofun, fun _ _ => h⟩

omit env in
theorem Acquired.ofOther {α : Type} {e : PyExc} {a : ReceiveBpfAttachment} {s : Machine × Bool}
    (hs : Unarmed writer b s) (he : ∀ message, e ≠ .runtimeError message) :
    Acquired me writer b (.error e : Except PyExc α) a s :=
  ⟨hs, nofun, fun message h => absurd (Except.error.inj h) (he message)⟩

/-- Giving up on a loader that did not report: it is stopped first. -/
theorem giveUp_acquires {α : Type} (message : String) (self : ReceiveBpfAttachment)
    {s : Machine × Bool} (hs : Unarmed writer b s) (hprocess : self.process = true) :
    (do
      ReceiveBpfAttachment.detach
      raise (.runtimeError message) : Meth ReceiveBpfAttachment α).Ensures (watching me good)
      (Script.watched ok) (Acquired me writer b) self s := by
  apply ensures_bind
  apply (receive_detach_stops env self hs fun _ => hprocess).mono
  rintro r a t ⟨ht, rfl, hstopped⟩
  exact alone_raise (.ofStopped ht hstopped)

theorem awaitStatus_acquires (self : ReceiveBpfAttachment) {s : Machine × Bool}
    (hs : Unarmed writer b s) (hprocess : self.process = true) :
    ReceiveBpfAttachment.awaitStatus.Ensures (watching me good) (Script.watched ok)
      (Acquired me writer b) self s := by
  apply ensures_bind
  apply alone_self
  apply unarmed_bind env (SystemCall.select self.startupTimeout) (.inr rfl) hs
  intro r t hr ht hunarmed
  refine ⟨fun e he => .ofOther hunarmed fun message hmessage => ?_, fun ready _ => ?_⟩
  · exact env.loader _ r s.1 rfl rfl hr message (hmessage ▸ he)
  split
  · apply unarmed_bind env SystemCall.readline (.inr rfl) hunarmed
    intro r u hr hu hunarmed
    refine ⟨fun e he => .ofOther hunarmed fun message hmessage => ?_, fun line _ => ?_⟩
    · exact env.loader _ r t.1 rfl rfl hr message (hmessage ▸ he)
    split
    · apply unarmed_bind env (SystemCall.communicate none) (.inr rfl) hunarmed
      intro r v hr hv hunarmed'
      have hsucceeds : Succeeds (.communicate none) (r (.communicate none)) = true := by
        rcases env.cleanup _ r u.1 rfl hr with h | h
        · exact h.1
        · have harmed : u.1.armed = true := h.1
          rw [hunarmed.armed] at harmed
          cases harmed
      obtain ⟨out, hout⟩ := @answer_ok me _ _ u.1 hsucceeds (by simp)
      have hanswer : (serve me (.communicate none) r u.1).1 = .ok out := hout
      refine ⟨fun e he => ?_, fun out' hout' => ?_⟩
      · rw [hanswer] at he
        cases he
      · have hstopped : v.1.loader me = false := by
          rw [hv]
          unfold serve
          rw [hout]
          exact Function.update_self me false u.1.loader
        apply ensures_bind
        apply alone_update
        exact alone_raise (.ofStopped hunarmed' hstopped)
    · split
      · apply ensures_bind
        apply alone_update
        exact alone_pure ⟨hunarmed, fun _ _ => hprocess, nofun⟩
      · exact giveUp_acquires env _ self hunarmed hprocess
      · next e hne _ => exact alone_raise (.ofOther hunarmed fun message h => hne message h)
  · exact giveUp_acquires env _ self hunarmed hprocess

/-- A loader that could not be started does not run. -/
theorem popen_starts (args : List Str) (self : S) {s : Machine × Bool} (hs : Unarmed writer b s) :
    (Sys.popen args : Meth S Unit).Ensures (watching me good) (Script.watched ok)
      (fun r self' t => self' = self ∧ Unarmed writer b t ∧
        ∀ e, r = .error e → t.1.loader me = s.1.loader me) self s := by
  apply alone_ask (SystemCall.popen args)
  intro r hr
  refine ⟨rfl, hs.serve env (by rintro ⟨⟩) hr, fun e he => ?_⟩
  have hreply : r (.popen args) = .error e := he
  show (Machine.effect me (.popen args) (r (.popen args)) s.1).loader me = _
  rw [hreply]
  rfl

theorem receive_attach_acquires (self : ReceiveBpfAttachment) {s : Machine × Bool}
    (hs : Unarmed writer b s) (hidle : s.1.loader me = false) :
    ReceiveBpfAttachment.attach.Ensures (watching me good) (Script.watched ok)
      (Acquired me writer b) self s := by
  apply ensures_bind
  apply alone_self
  apply unarmed_bind env (SystemCall.pathExists self.loaderPath) (.inl rfl) hs
  intro r t _ ht hunarmed
  have hidle : t.1.loader me = false := ht ▸ hidle
  refine ⟨fun e _ => .ofStopped hunarmed hidle, fun loaderExists _ => ?_⟩
  split
  · apply unarmed_bind env (SystemCall.pathExists self.objectPath) (.inl rfl) hunarmed
    intro r u _ hu hunarmed
    have hidle : u.1.loader me = false := hu ▸ hidle
    refine ⟨fun e _ => .ofStopped hunarmed hidle, fun objectExists _ => ?_⟩
    split
    · apply ensures_bind
      apply ensures_attempt
      apply (popen_starts env _ self hunarmed).mono
      rintro r a v ⟨rfl, hunarmed, hfailed⟩
      cases r with
      | error e =>
        have hidle : v.1.loader me = false := (hfailed e rfl).trans hidle
        dsimp only
        split
        · exact alone_raise (.ofStopped hunarmed hidle)
        · exact alone_raise (.ofStopped hunarmed hidle)
        · exact alone_raise (.ofStopped hunarmed hidle)
        · next hok => cases hok
      | ok _ =>
        apply ensures_bind
        apply alone_update
        exact awaitStatus_acquires env _ hunarmed rfl
    · exact alone_raise (.ofStopped hunarmed hidle)
  · exact alone_raise (.ofStopped hunarmed hidle)

namespace EbpfCollector

/-- What is known of a collector once its delivery is configured. -/
def Configured (me : ℕ) (writer : WriterCalls) (b : Bool) (r : Except PyExc Unit)
    (c : EbpfCollector) (s : Machine × Bool) : Prop :=
  Unarmed writer b s ∧ (r = .ok () → (AnyCollector.ebpf c).Holds me s.1)

omit env in
theorem configured_error {e : PyExc} {c : EbpfCollector} {s : Machine × Bool}
    (hs : Unarmed writer b s) : Configured me writer b (.error e) c s :=
  ⟨hs, nofun⟩

omit env in
theorem configured_idle {r : Except PyExc Unit} {c : EbpfCollector} {s : Machine × Bool}
    (hs : Unarmed writer b s) (hidle : s.1.loader me = false) : Configured me writer b r c s := by
  refine ⟨hs, fun _ hm => ?_⟩
  rw [hidle] at hm
  cases hm

omit env in
/-- Telling the collector about a map: its loader is not concerned. -/
theorem deliveredMapReader_configures (mapId : ℤ) (f : ℤ → EbpfCollector → EbpfCollector)
    (hf : ∀ mapId c, (f mapId c).receiveAttachment = c.receiveAttachment) (c : EbpfCollector)
    {s : Machine × Bool} (hs : Unarmed writer b s) (hholds : (AnyCollector.ebpf c).Holds me s.1) :
    (do
      let mapId ← deliveredMapReader mapId
      update (f mapId)).Ensures (watching me good) (Script.watched ok) (Configured me writer b) c
      s := by
  unfold deliveredMapReader
  split
  · exact alone_raise (configured_error hs)
  · apply alone_update
    refine ⟨hs, fun _ hm => ?_⟩
    rw [hf]
    exact hholds hm

theorem attachReceive_configures (args : CollectorArgs) (mode : DeliveryAttribution)
    (c : EbpfCollector) {s : Machine × Bool} (hs : Unarmed writer b s)
    (hidle : s.1.loader me = false) :
    (attachReceive args mode).Ensures (watching me good) (Script.watched ok)
      (Configured me writer b) c s := by
  have hblank : (receiveBpfAttachment args : Meth EbpfCollector ReceiveBpfAttachment).Keeps
      (serve me) (fun op => op.kind = .plain ∨ op.kind = .filters) (id : EbpfCollector → _) := by
    unfold receiveBpfAttachment
    split
    · exact keeps_pure
    · exact keeps_raise
  apply ensures_bind
  apply (idle_frame env hblank c hs hidle).mono
  rintro r c s ⟨_, hs, hidle⟩
  cases r with
  | error e => exact configured_error hs
  | ok attachment =>
    apply ensures_bind
    apply ensures_callOn
    apply (receive_attach_acquires env attachment hs hidle).mono
    intro r attachment t ht
    rcases r with e | status
    · dsimp only
      split
      · next heq =>
        have hidle : t.1.loader me = false := ht.stopped _ heq
        split
        · exact alone_update (configured_idle ht.unarmed hidle)
        · exact alone_raise (configured_error ht.unarmed)
      · exact alone_raise (configured_error ht.unarmed)
      · next heq => cases heq
    · apply ensures_bind
      apply alone_update
      apply deliveredMapReader_configures status.mapId
        (fun mapId c =>
          { c with
            deliveredReader := some mapId
            deliveryAttribution := .cookie
            receiveBackend := some status.backend })
        (fun _ _ => rfl) _ ht.unarmed
      exact fun _ => ⟨attachment, rfl, ht.process status rfl⟩

theorem configureDelivery_configures (args : CollectorArgs) (c : EbpfCollector)
    {s : Machine × Bool} (hs : Unarmed writer b s) (hidle : s.1.loader me = false) :
    (configureDelivery args).Ensures (watching me good) (Script.watched ok)
      (Configured me writer b) c s := by
  have hholds : ∀ c, (AnyCollector.ebpf c).Holds me s.1 := fun c => (configured_idle hs hidle).2 rfl
  apply ensures_bind
  apply alone_self
  dsimp only
  split
  · exact alone_pure (configured_idle hs hidle)
  apply ensures_bind
  apply alone_update
  dsimp only
  split
  · exact alone_pure (configured_idle hs hidle)
  split
  · exact attachReceive_configures env args _ _ hs hidle
  split
  · exact deliveredMapReader_configures _
      (fun mapId c =>
        { c with
          deliveredReader := some mapId
          deliveryAttribution := .cookie
          receiveBackend := some "existing-map".toList })
      (fun _ _ => rfl) _ hs (hholds _)
  · split
    · exact alone_update (configured_idle hs hidle)
    · exact alone_raise (configured_error hs)

theorem setUp_configures (args : CollectorArgs) (c : EbpfCollector)
    {s : Machine × Bool} (hs : Unarmed writer b s) (hidle : s.1.loader me = false) :
    (setUp args).Ensures (watching me good) (Script.watched ok) (Configured me writer b) c s := by
  have hattach : (if args.attach then
      within attachment (fun a c => { c with attachment := a }) TcBpfAttachment.attach
      else Pure.pure ()).Keeps (serve me) (fun op => op.kind = .plain ∨ op.kind = .filters)
        (fun _ : EbpfCollector => ()) := by
    split
    · exact keeps_within (TcBpfAttachment.attach_keeps (fun _ => .inl) fun _ => .inr) fun _ _ => rfl
    · exact keeps_pure
  have hrefresh : (within reader (fun r c => { c with reader := r })
      BpftoolMapReader.refreshMapId).Keeps (serve me)
        (fun op => op.kind = .plain ∨ op.kind = .filters) (fun _ : EbpfCollector => ()) :=
    keeps_within (refreshMapId_keeps fun _ => .inl) fun _ _ => rfl
  apply ensures_bind
  apply (idle_frame env hattach c hs hidle).mono
  rintro r c s ⟨_, hs, hidle⟩
  cases r with
  | error e => exact configured_error hs
  | ok _ =>
    apply ensures_bind
    apply (idle_frame env hrefresh c hs hidle).mono
    rintro r c s ⟨_, hs, hidle⟩
    cases r with
    | error e => exact configured_error hs
    | ok _ => exact configureDelivery_configures env args c hs hidle

/-- A constructed collector holds the loader it started. -/
theorem create_holds (args : CollectorArgs) (self : S) {s : Machine × Bool}
    (hs : Unarmed writer b s) (hidle : s.1.loader me = false) :
    (create args).Ensures (watching me good) (Script.watched ok)
      (fun r self' t => self' = self ∧ Unarmed writer b t ∧
        ∀ c, r = .ok c → (AnyCollector.ebpf c).Holds me t.1) self s := by
  have hkeeps : (create args).Keeps (serve me) (fun op => op.kind ≠ .analyzer) (id : S → S) := by
    intro self m
    apply (create_ensures (fun op h => by rw [h]; decide) (fun op h => by rw [h]; decide) args
      (fun _ op h => by rw [h]; decide) self m).mono
    exact fun _ _ _ h => h.1
  have hchoose : (chooseInterface args).Keeps (serve me)
      (fun op => op.kind = .plain ∨ op.kind = .filters) (id : S → S) :=
    chooseInterface_keeps args fun _ => .inl
  have hcalls : ∀ op t, (Script.watched ok).calls op t := fun _ _ => trivial
  have hcreate : (create args).Ensures (watching me good) (Script.watched ok)
      (fun r _ t => ∀ c, r = .ok c → (AnyCollector.ebpf c).Holds me t.1) self s := by
    apply ensures_bind
    apply (idle_frame env hchoose self hs hidle).mono
    rintro r self s ⟨_, hs, hidle⟩
    cases r with
    | error e => exact fun c h => by cases h
    | ok ifname =>
      apply ensures_bind
      apply ensures_callOn
      apply (setUp_configures env args (blank args ifname) hs hidle).mono
      intro r c t ht
      dsimp only
      split
      · apply alone_pure
        intro c' hc'
        cases hc'
        exact ht.2 rfl
      · exact alone_raise fun c h => by cases h
      · have herror : ∀ (e : PyExc) (self : S) (t : Machine × Bool) (c : EbpfCollector),
            (.error e : Except PyExc EbpfCollector) = .ok c → (AnyCollector.ebpf c).Holds me t.1 :=
          fun _ _ _ c h => by cases h
        apply ensures_bind_anything hcalls herror
        intro p self t
        apply ensures_bind_anything hcalls herror
        exact fun _ self t => alone_raise (herror _ self t)
  apply (Script.Ensures.and hcreate (unarmed_frame env hkeeps self hs)).mono
  exact fun p t h => ⟨h.2.1, h.2.2, h.1⟩

end EbpfCollector

/-! ### The channel loader -/

omit env in
/-- Waiting for the status only succeeds with the process object in place. -/
theorem channel_awaitStatus_process (self : ChannelBpfAttachment) (s : Machine × Bool)
    (hprocess : self.process = true) :
    ChannelBpfAttachment.awaitStatus.Ensures (watching me good) (Script.watched ok)
      (fun r a _ => ∀ v, r = .ok v → a.process = true) self s := by
  have hcalls : ∀ op t, (Script.watched ok).calls op t := fun _ _ => trivial
  have herror : ∀ (e : PyExc) (a : ChannelBpfAttachment) (_ : Machine × Bool) (v : ℤ),
      (.error e : Except PyExc ℤ) = .ok v → a.process = true := fun _ _ _ v h => by cases h
  apply ensures_bind
  apply alone_self
  apply alone_bind_ask (SystemCall.select self.startupTimeout)
  intro r _
  refine ⟨fun e _ => herror e _ s, fun ready _ => ?_⟩
  split
  · apply alone_bind_ask SystemCall.readline
    intro r _
    refine ⟨fun e _ => herror e _ s, fun line _ => ?_⟩
    split
    · apply ensures_bind_anything hcalls herror
      intro returncode self t
      apply ensures_bind_anything hcalls herror
      intro text self t
      apply ensures_bind_anything hcalls herror
      intro _ self t
      apply ensures_bind_anything hcalls herror
      exact fun _ self t => alone_raise (herror _ self t)
    · apply ensures_bind
      apply alone_reraise
      split
      · apply ensures_bind
        apply alone_update
        exact alone_pure fun _ _ => hprocess
      · exact herror _ _ s
  · apply ensures_bind_anything hcalls herror
    exact fun _ self t => alone_raise (herror _ self t)

omit env in
theorem channel_startLoader_process (command : List Str) (self : ChannelBpfAttachment)
    (s : Machine × Bool) :
    (ChannelBpfAttachment.startLoader command).Ensures (watching me good) (Script.watched ok)
      (fun r a _ => ∀ v, r = .ok v → a.process = true) self s := by
  have hcalls : ∀ op t, (Script.watched ok).calls op t := fun _ _ => trivial
  have herror : ∀ (e : PyExc) (a : ChannelBpfAttachment) (_ : Machine × Bool) (v : Unit),
      (.error e : Except PyExc Unit) = .ok v → a.process = true := fun _ _ _ v h => by cases h
  apply ensures_bind_anything hcalls herror
  intro _ a t
  apply ensures_bind_anything hcalls herror
  intro _ a t
  apply ensures_bind_anything hcalls herror
  exact fun _ _ _ => alone_update fun _ _ => rfl

omit env in
theorem channel_attach_process (self : ChannelBpfAttachment) (s : Machine × Bool) :
    ChannelBpfAttachment.attach.Ensures (watching me good) (Script.watched ok)
      (fun r a _ => ∀ v, r = .ok v → a.process = true) self s := by
  have hcalls : ∀ op t, (Script.watched ok).calls op t := fun _ _ => trivial
  have herror : ∀ (e : PyExc) (a : ChannelBpfAttachment) (_ : Machine × Bool) (v : ℤ),
      (.error e : Except PyExc ℤ) = .ok v → a.process = true := fun _ _ _ v h => by cases h
  apply ensures_bind
  apply alone_self
  apply ensures_bind_anything hcalls herror
  intro loaderExists a t
  split
  · apply ensures_bind_anything hcalls herror
    intro objectExists a t
    split
    · apply ensures_bind_anything hcalls herror
      intro _ a t
      apply ensures_bind_anything hcalls herror
      intro euid a t
      apply ensures_bind
      apply ensures_attempt
      apply (channel_startLoader_process _ a t).mono
      intro r a t ha
      cases r with
      | error e =>
        dsimp only
        split
        · apply ensures_bind_anything hcalls herror
          exact fun _ self t => alone_raise (herror _ self t)
        · apply ensures_bind_anything hcalls herror
          exact fun _ self t => alone_raise (herror _ self t)
        · exact alone_raise (herror _ a t)
        · next hok => cases hok
      | ok _ => exact channel_awaitStatus_process a t (ha () rfl)
    · exact alone_raise (herror _ a t)
  · exact alone_raise (herror _ a t)

/-! ### The constructors of a run -/

/-- A channel collector that was constructed holds the loader it started. -/
theorem channel_create_holds (proto : ChannelProto) (loaderPath objectPath : Str)
    (mapId : Option ℤ) (attach : Bool) (self : S) {s : Machine × Bool} (hs : Unarmed writer b s)
    (hidle : s.1.loader me = false) :
    (ChannelResources.create proto loaderPath objectPath mapId attach).Ensures (watching me good)
      (Script.watched ok)
      (fun r self' t => self' = self ∧ Unarmed writer b t ∧
        ∀ c, r = .ok c → (AnyCollector.channel c).Holds me t.1) self s := by
  have hkeeps : (ChannelResources.create proto loaderPath objectPath mapId attach).Keeps (serve me)
      (fun op => op.kind ≠ .analyzer) (id : S → S) :=
    ChannelResources.create_keeps (fun op h => by rw [h]; decide) (fun op h => by rw [h]; decide)
      proto loaderPath objectPath mapId attach
  have hcreate : (ChannelResources.create proto loaderPath objectPath mapId attach).Ensures
      (watching me good) (Script.watched ok)
      (fun r _ t => ∀ c, r = .ok c → (AnyCollector.channel c).Holds me t.1) self s := by
    unfold ChannelResources.create
    dsimp only
    split
    · apply ensures_bind
      apply ensures_callOn
      apply (channel_attach_process _ s).mono
      intro r a t ha
      dsimp only
      apply ensures_bind
      apply alone_reraise
      cases r with
      | error e => exact fun c h => by cases h
      | ok mapId =>
        apply alone_pure
        intro c hc _
        cases hc
        exact ⟨a, rfl, ha mapId rfl⟩
    · split
      · exact alone_raise fun c h => by cases h
      · split
        · exact alone_raise fun c h => by cases h
        · apply alone_pure
          intro c hc hm
          rw [hidle] at hm
          cases hm
  apply (Script.Ensures.and hcreate (unarmed_frame env hkeeps self hs)).mono
  exact fun p t h => ⟨h.2.1, h.2.2, h.1⟩

/-- How the construction of a collector ends. -/
def Constructed (me : ℕ) (writer : WriterCalls) (b : Bool) (self : S)
    (r : Except PyExc AnyCollector) (self' : S) (s : Machine × Bool) : Prop :=
  self' = self ∧ Unarmed writer b s ∧ ∀ c, r = .ok c → c.Holds me s.1

omit env in
theorem constructed_error {e : PyExc} {self : S} {s : Machine × Bool} (hs : Unarmed writer b s) :
    Constructed me writer b self (.error e) self s :=
  ⟨rfl, hs, fun c h => by cases h⟩

theorem createCollector_constructs (args : RunArgs) (self : S) {s : Machine × Bool}
    (hs : Unarmed writer b s) (hidle : s.1.loader me = false) :
    (createCollector args).Ensures (watching me good) (Script.watched ok)
      (Constructed me writer b self) self s := by
  unfold createCollector
  split
  · exact alone_raise (constructed_error hs)
  split
  · apply alone_pure
    refine ⟨rfl, hs, fun c hc => ?_⟩
    cases hc
    exact hidle
  · dsimp only
    generalize args.deliveryAttribution.getD _ = deliveryAttribution
    split
    · exact alone_raise (constructed_error hs)
    · apply ensures_bind
      apply (EbpfCollector.create_holds env _ self hs hidle).mono
      rintro r self s ⟨rfl, hs, hholds⟩
      cases r with
      | error e => exact constructed_error hs
      | ok c =>
        apply alone_pure
        refine ⟨rfl, hs, fun c' hc' => ?_⟩
        cases hc'
        exact hholds c rfl

theorem createChannelCollector_constructs (args : RunChannelsArgs) (l : Locals)
    {s : Machine × Bool} (hs : Unarmed writer b s) (hidle : s.1.loader me = false) :
    (createChannelCollector args).Ensures (watching me good) (Script.watched ok)
      (Constructed me writer b l) l s := by
  have hcreate : ∀ proto loaderPath objectPath mapId (t : Machine × Bool), Unarmed writer b t →
      t.1.loader me = false →
      (do
        let c ← ChannelResources.create proto loaderPath objectPath mapId (!args.noAttach)
        Pure.pure (AnyCollector.channel c) : Meth Locals AnyCollector).Ensures (watching me good)
          (Script.watched ok) (Constructed me writer b l) l t := by
    intro proto loaderPath objectPath mapId t ht hidle
    apply ensures_bind
    apply (channel_create_holds env proto loaderPath objectPath mapId _ l ht hidle).mono
    rintro r l s ⟨rfl, hs, hholds⟩
    cases r with
    | error e => exact constructed_error hs
    | ok c =>
      apply alone_pure
      refine ⟨rfl, hs, fun c' hc' => ?_⟩
      cases hc'
      exact hholds c rfl
  unfold createChannelCollector
  split
  · exact alone_raise (constructed_error hs)
  apply unarmed_bind env SystemCall.loadCatalog (.inl rfl) hs
  intro r t _ ht hunarmed
  have hidle : t.1.loader me = false := ht ▸ hidle
  refine ⟨fun e _ => constructed_error hunarmed, fun _ _ => ?_⟩
  split
  · apply alone_pure
    refine ⟨rfl, hunarmed, fun c hc => ?_⟩
    cases hc
    exact hidle
  · exact hcreate _ _ _ _ t hunarmed hidle
  · exact hcreate _ _ _ _ t hunarmed hidle

end Acquisition

end UdpAnalyzer

import UdpAnalyzer.Lifecycle.Cleanup
import UdpAnalyzer.Lifecycle.Ownership

/-! The start of a loader, whatever the loader and the system do. `attach` is to end with a
loader that the object owns or with nothing left of one; it does exactly when every reply is
one its code is prepared for. A reply the code is not prepared for raises where nobody stops
the loader: the constructor that called `attach` has no object yet. -/

namespace UdpAnalyzer

open Method

/-! ### Replies -/

/-- The parse of a status comes to a status or to an error `attach` stops the loader on. -/
def settles {α : Type} : Except PyExc α → Bool
  | .ok _ | .error (.runtimeError _) => true
  | .error _ => false

/-- The replies `ReceiveBpfAttachment.attach` is prepared for. -/
def ReceiveBpfAttachment.expects (op : SystemCall) (r : Reply) (_ : Machine) : Bool :=
  match op, r op with
  | .pathExists _, _ | .popen _, _ => true
  | .readline, .ok line => decide (line.text = []) || settles (parseReceiveLoaderStatus line)
  | op, answer => Succeeds op answer

/-- The exceptions of starting the loader that `attach` has a handler for. -/
def ChannelBpfAttachment.handled : PyExc → Bool
  | .osError .fileNotFound | .osError .permission => true
  | _ => false

/-- The replies the `attach` of a channel attachment is prepared for. -/
def ChannelBpfAttachment.expects (proto : ChannelProto) (op : SystemCall) (r : Reply)
    (_ : Machine) : Bool :=
  match op, r op with
  | .pathExists _, _ | .kernelHasNonblock, _ | .geteuid, _ | .openStderr, _ => true
  | .popen _, .error e => handled e
  | .readline, .ok line =>
    decide (line.text = []) || (parseChannelLoaderStatus proto line).toBool
  | op, answer => Succeeds op answer

/-- The calls whose failure `attach` is never prepared for. -/
def SystemCall.isVital : SystemCall → Bool
  | .select _ | .communicate none | .poll | .terminate | .kill | .wait | .readStderr
  | .closeStderr => true
  | _ => false

/-- Nobody is prepared for a failure of the call. -/
structure Vital (good : SystemCall → Reply → Machine → Bool) (op : SystemCall) : Prop where
  kind : op.kind ≠ .analyzer
  good : ∀ r m, good op r m = (r op).toBool

theorem ReceiveBpfAttachment.vital {op : SystemCall} (h : op.isVital = true) :
    Vital ReceiveBpfAttachment.expects op := by
  unfold SystemCall.isVital at h
  split at h
  all_goals first
    | exact absurd h Bool.false_ne_true
    | refine ⟨by rintro ⟨⟩, fun r _ => ?_⟩
      simp only [expects]
      generalize r _ = answer
      cases answer <;> rfl

theorem ChannelBpfAttachment.vital {proto : ChannelProto} {op : SystemCall}
    (h : op.isVital = true) : Vital (ChannelBpfAttachment.expects proto) op := by
  unfold SystemCall.isVital at h
  split at h
  all_goals first
    | exact absurd h Bool.false_ne_true
    | refine ⟨by rintro ⟨⟩, fun r _ => ?_⟩
      simp only [expects]
      generalize r _ = answer
      cases answer <;> rfl

/-! ### What attaching comes to -/

/-- `ReceiveBpfAttachment(...)`. -/
def ReceiveBpfAttachment.new (loaderPath objectPath hook : Str) (startupTimeout : ℕ) :
    ReceiveBpfAttachment :=
  { loaderPath, objectPath, hook, startupTimeout }

/-- `TcpChannelBpfAttachment(...)`, `UdpChannelBpfAttachment(...)`. -/
def ChannelBpfAttachment.new (proto : ChannelProto) (loaderPath objectPath : Str)
    (startupTimeout : ℕ) : ChannelBpfAttachment :=
  { proto, loaderPath, objectPath, startupTimeout }

/-- Nothing is left of a loader. -/
structure ReceiveBpfAttachment.Nothing (me : ℕ) (a : ReceiveBpfAttachment) (m : Machine) :
    Prop where
  stopped : m.loader me = false
  process : a.process = false
  status : a.status = none

structure ChannelBpfAttachment.Nothing (me : ℕ) (a : ChannelBpfAttachment) (m : Machine) :
    Prop where
  stopped : m.loader me = false
  process : a.process = false
  status : a.status = none
  stderrFile : a.stderrFile = false

/-- A status and a loader that is owned, or an exception and nothing left. -/
def ReceiveBpfAttachment.AllOrNothing (me : ℕ) (r : Except PyExc ReceiveLoaderStatus)
    (a : ReceiveBpfAttachment) (m : Machine) : Prop :=
  match r with
  | .ok status => 0 < status.mapId ∧ a.process = true
  | .error _ => a.Nothing me m

def ChannelBpfAttachment.AllOrNothing (me : ℕ) (r : Except PyExc ℤ) (a : ChannelBpfAttachment)
    (m : Machine) : Prop :=
  match r with
  | .ok mapId => 0 < mapId ∧ a.process = true
  | .error _ => a.Nothing me m

theorem parseReceiveLoaderStatus_pos {line : Printed} {status : ReceiveLoaderStatus}
    (h : parseReceiveLoaderStatus line = .ok status) : 0 < status.mapId := by
  unfold parseReceiveLoaderStatus at h
  dsimp only at h
  split at h
  · split_ifs at h with hbad
    cases h
    omega
  · split_ifs at h

theorem parseChannelLoaderStatus_pos {proto : ChannelProto} {line : Printed} {mapId : ℤ}
    (h : parseChannelLoaderStatus proto line = .ok mapId) : 0 < mapId := by
  unfold parseChannelLoaderStatus at h
  dsimp only at h
  split at h
  · split_ifs at h with hbad
    cases h
    omega
  · split_ifs at h

/-! ### One call -/

section Calls

variable {S : Type} {me : ℕ} {good : SystemCall → Reply → Machine → Bool}

/-- The terms of a program that may meet any reply. -/
abbrev unforeseen : Contract SystemCall Reply (Machine × Bool) :=
  Script.watched fun _ _ _ => True

theorem unforeseen_ask (op : SystemCall) {post : Answer op → S → Machine × Bool → Prop} {self : S}
    {m : Machine}
    (h : ∀ r, post (serve me op r m).1 self ((serve me op r m).2, good op r m)) :
    (ask op : Meth S (Value op)).Ensures (watching me good) unforeseen post self (m, true) := by
  apply alone_ask op
  intro r _
  show post _ self (_, true && decide (good op r m = true))
  rw [Bool.true_and, Bool.decide_eq_true]
  exact h r

theorem serve_readline {me : ℕ} (r : Reply) (m : Machine) :
    serve me .readline r m = (r .readline, m) := by
  unfold serve
  cases r .readline <;> rfl

theorem serve_plain {op : SystemCall} (hop : op.kind = .plain) (r : Reply) (m : Machine) :
    serve me op r m = (r op, m) := by
  unfold serve
  cases op with
  | run command viaSudo => cases command <;> first | rfl | cases hop
  | _ => first | rfl | cases hop

/-- A call whose failure nobody is prepared for, and what follows it. -/
theorem vital_bind {op : SystemCall} (hop : Vital good op) {α : Type} {f : Value op → Meth S α}
    {post : Except PyExc α → S → Machine × Bool → Prop} {self : S} {m : Machine}
    (hfail : ∀ e, post (.error e) self (m, false))
    (h : ∀ a, (f a).Ensures (watching me good) unforeseen post self
      (Machine.effect me op (.ok a) m, true)) :
    (ask op >>= f).Ensures (watching me good) unforeseen post self (m, true) := by
  apply ensures_bind
  apply unforeseen_ask op
  intro r
  rw [hop.good]
  cases hreply : r op with
  | error e =>
    rw [serve_error hop.kind hreply]
    exact hfail e
  | ok v =>
    obtain ⟨a, ha⟩ := @answer_succeeds me op v m
    have hserve : serve me op r m = (.ok a, Machine.effect me op (.ok a) m) := by
      unfold serve
      rw [hreply, ha]
    rw [hserve]
    exact h a

/-- A call the environment alone answers, and what follows it. -/
theorem reply_bind (op : SystemCall) (hop : ∀ r m, serve me op r m = (r op, m)) {α : Type}
    {f : Value op → Meth S α} {post : Except PyExc α → S → Machine × Bool → Prop} {self : S}
    {m : Machine} (hfail : ∀ r e, r op = .error e → post (.error e) self (m, good op r m))
    (h : ∀ r a, r op = .ok a →
      (f a).Ensures (watching me good) unforeseen post self (m, good op r m)) :
    (ask op >>= f).Ensures (watching me good) unforeseen post self (m, true) := by
  apply ensures_bind
  apply unforeseen_ask op
  intro r
  rw [hop]
  cases hreply : r op with
  | error e => exact hfail r e hreply
  | ok a => exact h r a hreply

/-- A call of no consequence, and what follows it. -/
theorem free_bind (op : SystemCall) (hop : op.kind = .plain) (hgood : ∀ r m, good op r m = true)
    {α : Type} {f : Value op → Meth S α} {post : Except PyExc α → S → Machine × Bool → Prop}
    {self : S} {m : Machine} (hfail : ∀ e, post (.error e) self (m, true))
    (h : ∀ a, (f a).Ensures (watching me good) unforeseen post self (m, true)) :
    (ask op >>= f).Ensures (watching me good) unforeseen post self (m, true) := by
  apply reply_bind op (serve_plain hop)
  · intro r e _
    rw [hgood]
    exact hfail e
  · intro r a _
    rw [hgood]
    exact h a

/-- Starting a process: it runs, or nothing has happened. -/
theorem popen_bind (args : List Str) {α : Type} {f : Except PyExc Unit → Meth S α}
    {post : Except PyExc α → S → Machine × Bool → Prop} {self : S} {m : Machine}
    (hfail : ∀ r e, r (.popen args) = .error e →
      (f (.error e)).Ensures (watching me good) unforeseen post self (m, good (.popen args) r m))
    (hstarts : ∀ r, r (.popen args) = .ok () →
      (f (.ok ())).Ensures (watching me good) unforeseen post self
        (m.setLoader me true, good (.popen args) r m)) :
    (attempt (Sys.popen args) >>= f).Ensures (watching me good) unforeseen post self (m, true) := by
  apply ensures_bind
  apply ensures_attempt
  apply unforeseen_ask (SystemCall.popen args)
  intro r
  cases hreply : r (.popen args) with
  | error e =>
    rw [serve_error (by rintro ⟨⟩) hreply]
    exact hfail r e hreply
  | ok u =>
    have hserve : serve me (.popen args) r m = (.ok (), m.setLoader me true) := by
      unfold serve
      rw [hreply]
      rfl
    rw [hserve]
    exact hstarts r hreply

/-- Waiting for a process to stop: it does, or the time is over, or nobody is prepared. -/
theorem patience_bind (t : ℕ)
    (hgood : ∀ r m, good (.communicate (some t)) r m =
      Succeeds (.communicate (some t)) (r (.communicate (some t))))
    {α : Type} {f : Except PyExc CompletedProcess → Meth S α}
    {post : Except PyExc α → S → Machine × Bool → Prop} {self : S} {m : Machine}
    (hstops : ∀ out, (f (.ok out)).Ensures (watching me good) unforeseen post self
      (m.setLoader me false, true))
    (htimeout : (f (.error .timeoutExpired)).Ensures (watching me good) unforeseen post self
      (m, true))
    (hfail : ∀ e ≠ .timeoutExpired, (f (.error e)).Ensures (watching me good) unforeseen post self
      (m, false)) :
    (attempt (Sys.communicate (some t)) >>= f).Ensures (watching me good) unforeseen post self
      (m, true) := by
  apply ensures_bind
  apply ensures_attempt
  apply unforeseen_ask (SystemCall.communicate (some t))
  intro r
  rw [hgood]
  cases hreply : r (.communicate (some t)) with
  | ok out =>
    have hserve : serve me (.communicate (some t)) r m = (.ok out, m.setLoader me false) := by
      unfold serve
      rw [hreply]
      rfl
    rw [hserve]
    exact hstops out
  | error e =>
    rw [serve_error (by rintro ⟨⟩) hreply]
    by_cases he : e = .timeoutExpired
    · subst he
      exact htimeout
    · have hfails : Succeeds (.communicate (some t)) (.error e) = false := by
        cases e <;> first | rfl | exact absurd rfl he
      rw [hfails]
      exact hfail e he

end Calls

theorem setLoader_self (me : ℕ) (running : Bool) (m : Machine) :
    (m.setLoader me running).loader me = running := by
  unfold Machine.setLoader
  exact Function.update_self me running m.loader

/-! ### The receive loader -/

namespace ReceiveBpfAttachment

variable {me : ℕ}

/-- All or nothing, exactly when every reply was one to be prepared for. -/
def Settled (me : ℕ) (r : Except PyExc ReceiveLoaderStatus) (a : ReceiveBpfAttachment)
    (s : Machine × Bool) : Prop :=
  AllOrNothing me r a s.1 ↔ s.2 = true

theorem settled_running {e : PyExc} {a : ReceiveBpfAttachment} {m : Machine}
    (h : m.loader me = true) : Settled me (.error e) a (m, false) := by
  refine ⟨fun hnothing => ?_, fun hflag => absurd hflag Bool.false_ne_true⟩
  have hstopped := hnothing.stopped
  rw [h] at hstopped
  cases hstopped

/-- Stopping a loader that runs, before an exception is raised. -/
theorem detach_settles (e : PyExc) (self : ReceiveBpfAttachment) {m : Machine}
    (hprocess : self.process = true) (hloader : m.loader me = true) :
    detach.Ensures (watching me expects) unforeseen (fun _ a s => Settled me (.error e) a s) self
      (m, true) := by
  have hstopped : ∀ {a : ReceiveBpfAttachment}, a.process = false → a.status = none →
      Settled me (.error e) a (m.setLoader me false, true) :=
    fun ha hstatus => ⟨fun _ => rfl, fun _ => ⟨setLoader_self me false m, ha, hstatus⟩⟩
  apply ensures_bind
  apply alone_self
  apply ensures_bind
  apply alone_update
  rw [if_pos hprocess]
  apply vital_bind (@vital .poll rfl)
  · exact fun _ => settled_running hloader
  intro status
  cases status with
  | some code => exact alone_pure (hstopped rfl rfl)
  | none =>
    apply vital_bind (@vital .terminate rfl)
    · exact fun _ => settled_running hloader
    intro _
    apply patience_bind 5
    · exact fun r _ => by cases h : r (.communicate (some 5)) <;> simp [expects, h]
    · exact fun _ => alone_pure (hstopped rfl rfl)
    · apply vital_bind (@vital .kill rfl)
      · exact fun _ => settled_running hloader
      intro _
      apply vital_bind (@vital (.communicate none) rfl)
      · exact fun _ => settled_running hloader
      intro _
      exact alone_pure (hstopped rfl rfl)
    · intro e he
      split
      · next h => cases h
      · next h => exact absurd (Except.error.inj h) he
      · exact alone_raise (settled_running hloader)

theorem giveUp_settles (e : PyExc) (self : ReceiveBpfAttachment) {m : Machine}
    (hprocess : self.process = true) (hloader : m.loader me = true) :
    (do
      detach
      raise e : Meth ReceiveBpfAttachment ReceiveLoaderStatus).Ensures (watching me expects)
      unforeseen (Settled me) self (m, true) := by
  apply ensures_bind
  apply (detach_settles e self hprocess hloader).mono
  intro r a s h
  cases r with
  | ok _ => exact alone_raise h
  | error e => exact h

theorem awaitStatus_settles (self : ReceiveBpfAttachment) {m : Machine}
    (hprocess : self.process = true) (hloader : m.loader me = true) (hstatus : self.status = none) :
    awaitStatus.Ensures (watching me expects) unforeseen (Settled me) self (m, true) := by
  apply ensures_bind
  apply alone_self
  apply vital_bind (@vital (.select self.startupTimeout) rfl)
  · exact fun _ => settled_running hloader
  intro ready
  show Ensures _ _ _ _ _ (m, true)
  split
  · apply reply_bind .readline serve_readline
    · intro r e hreply
      have hflag : expects .readline r m = false := by
        simp only [expects, hreply]
        rfl
      rw [hflag]
      exact settled_running hloader
    · intro r line hreply
      have hflag : expects .readline r m =
          (decide (line.text = []) || settles (parseReceiveLoaderStatus line)) := by
        simp only [expects, hreply]
      rw [hflag]
      split
      · next hend =>
        rw [decide_eq_true hend, Bool.true_or]
        apply vital_bind (@vital (.communicate none) rfl)
        · exact fun _ => settled_running hloader
        intro out
        apply ensures_bind
        apply alone_update
        exact alone_raise
          ⟨fun _ => rfl, fun _ => ⟨setLoader_self me false m, rfl, hstatus⟩⟩
      · next hline =>
        rw [decide_eq_false hline, Bool.false_or]
        cases hparse : parseReceiveLoaderStatus line with
        | ok status =>
          apply ensures_bind
          apply alone_update
          exact alone_pure ⟨fun _ => rfl, fun _ => ⟨parseReceiveLoaderStatus_pos hparse, hprocess⟩⟩
        | error e =>
          split
          · next h => cases h
          · next h =>
            cases h
            exact giveUp_settles _ self hprocess hloader
          · next hother h =>
            cases h
            have hunsettled : settles (.error e : Except PyExc ReceiveLoaderStatus) = false := by
              cases e <;> first | rfl | exact absurd rfl (hother _)
            rw [hunsettled]
            exact alone_raise (settled_running hloader)
  · exact giveUp_settles _ self hprocess hloader

theorem attach_settles (loaderPath objectPath hook : Str) (startupTimeout : ℕ) {m : Machine}
    (hidle : m.loader me = false) :
    attach.Ensures (watching me expects) unforeseen (Settled me)
      (new loaderPath objectPath hook startupTimeout) (m, true) := by
  have hfresh : ∀ e, Settled me (.error e) (new loaderPath objectPath hook startupTimeout)
      (m, true) := fun _ => ⟨fun _ => rfl, fun _ => ⟨hidle, rfl, rfl⟩⟩
  apply ensures_bind
  apply alone_self
  apply free_bind (.pathExists loaderPath) rfl fun _ _ => rfl
  · exact hfresh
  intro loaderExists
  split
  · apply free_bind (.pathExists objectPath) rfl fun _ _ => rfl
    · exact hfresh
    intro objectExists
    split
    · apply popen_bind
      · intro r e _
        split
        · exact alone_raise (hfresh _)
        · exact alone_raise (hfresh _)
        · exact alone_raise (hfresh _)
        · next h => cases h
      · intro r _
        apply ensures_bind
        apply alone_update
        exact awaitStatus_settles _ rfl (setLoader_self me true m) rfl
    · exact alone_raise (hfresh _)
  · exact alone_raise (hfresh _)

end ReceiveBpfAttachment

/-! ### The loader of a channel collector -/

namespace ChannelBpfAttachment

variable {me : ℕ} {proto : ChannelProto}

def Settled (me : ℕ) (r : Except PyExc ℤ) (a : ChannelBpfAttachment) (s : Machine × Bool) : Prop :=
  AllOrNothing me r a s.1 ↔ s.2 = true

/-- Something is left: the loader runs, or the object has a process or an open file. -/
def Holding (me : ℕ) (a : ChannelBpfAttachment) (m : Machine) : Prop :=
  m.loader me = true ∨ a.process = true ∨ a.stderrFile = true

theorem settled_holding {e : PyExc} {a : ChannelBpfAttachment} {m : Machine}
    (h : Holding me a m) : Settled me (.error e) a (m, false) := by
  refine ⟨fun hnothing => ?_, fun hflag => absurd hflag Bool.false_ne_true⟩
  obtain ⟨hloader, hprocess, -, hstderr⟩ := hnothing
  unfold Holding at h
  rw [hloader, hprocess, hstderr] at h
  simp at h

/-- Closing the standard error file of an object that has nothing else. -/
theorem closeStderr_settles (e : PyExc) (self : ChannelBpfAttachment) {m : Machine}
    (hloader : m.loader me = false) (hprocess : self.process = false)
    (hstatus : self.status = none) :
    closeStderr.Ensures (watching me (expects proto)) unforeseen
      (fun _ a s => Settled me (.error e) a s) self (m, true) := by
  apply ensures_bind
  apply alone_self
  dsimp only
  split
  · next hopen =>
    apply vital_bind (@vital proto .closeStderr rfl)
    · exact fun _ => settled_holding (.inr (.inr hopen))
    intro _
    exact alone_update ⟨fun _ => rfl, fun _ => ⟨hloader, hprocess, hstatus, rfl⟩⟩
  · next hclosed =>
    exact alone_pure
      ⟨fun _ => rfl, fun _ => ⟨hloader, hprocess, hstatus, Bool.eq_false_iff.mpr hclosed⟩⟩

theorem closeStderr_raises (e : PyExc) (self : ChannelBpfAttachment) {m : Machine}
    (hloader : m.loader me = false) (hprocess : self.process = false)
    (hstatus : self.status = none) :
    (do
      closeStderr
      raise e : Meth ChannelBpfAttachment ℤ).Ensures (watching me (expects proto)) unforeseen
      (Settled me) self (m, true) := by
  apply ensures_bind
  apply (closeStderr_settles e self hloader hprocess hstatus).mono
  intro r a s h
  cases r with
  | ok _ => exact alone_raise h
  | error e => exact h

/-- Reading the standard error file changes nothing. -/
def TextRead (me : ℕ) (self : ChannelBpfAttachment) (m : Machine) (r : Except PyExc Str)
    (a : ChannelBpfAttachment) (s : Machine × Bool) : Prop :=
  match r with
  | .ok _ => a = self ∧ s = (m, true)
  | .error e => Settled me (.error e) a s

theorem stderrText_settles (self : ChannelBpfAttachment) {m : Machine}
    (hprocess : self.process = true) :
    stderrText.Ensures (watching me (expects proto)) unforeseen (TextRead me self m) self
      (m, true) := by
  apply ensures_bind
  apply alone_self
  dsimp only
  split
  · apply vital_bind (@vital proto .readStderr rfl)
    · exact fun _ => settled_holding (.inr (.inl hprocess))
    intro text
    exact alone_pure ⟨rfl, rfl⟩
  · exact alone_pure ⟨rfl, rfl⟩

/-- Stopping a loader that runs, before an exception is raised. -/
theorem detach_settles (e : PyExc) (self : ChannelBpfAttachment) {m : Machine}
    (hprocess : self.process = true) (hloader : m.loader me = true) :
    detach.Ensures (watching me (expects proto)) unforeseen
      (fun _ a s => Settled me (.error e) a s) self (m, true) := by
  have hrunning : ∀ {e : PyExc} {a : ChannelBpfAttachment}, Settled me (.error e) a (m, false) :=
    settled_holding (.inl hloader)
  have hstopped : ∀ {a : ChannelBpfAttachment}, a.process = false → a.status = none →
      closeStderr.Ensures (watching me (expects proto)) unforeseen
        (fun _ a s => Settled me (.error e) a s) a (m.setLoader me false, true) :=
    fun ha hstatus => closeStderr_settles e _ (setLoader_self me false m) ha hstatus
  apply ensures_bind
  apply alone_self
  apply ensures_bind
  apply alone_update
  rw [if_pos hprocess]
  apply vital_bind (@vital proto .poll rfl)
  · exact fun _ => hrunning
  intro status
  cases status with
  | some code => exact hstopped rfl rfl
  | none =>
    apply vital_bind (@vital proto .terminate rfl)
    · exact fun _ => hrunning
    intro _
    apply patience_bind 5
    · exact fun r _ => by cases h : r (.communicate (some 5)) <;> simp [expects, h]
    · exact fun _ => hstopped rfl rfl
    · apply vital_bind (@vital proto .kill rfl)
      · exact fun _ => hrunning
      intro _
      apply vital_bind (@vital proto (.communicate none) rfl)
      · exact fun _ => hrunning
      intro _
      exact hstopped rfl rfl
    · intro e he
      split
      · next h => cases h
      · next h => exact absurd (Except.error.inj h) he
      · exact alone_raise hrunning

theorem giveUp_settles (e : PyExc) (self : ChannelBpfAttachment) {m : Machine}
    (hprocess : self.process = true) (hloader : m.loader me = true) :
    (do
      detach
      raise e : Meth ChannelBpfAttachment ℤ).Ensures (watching me (expects proto)) unforeseen
      (Settled me) self (m, true) := by
  apply ensures_bind
  apply (detach_settles e self hprocess hloader).mono
  intro r a s h
  cases r with
  | ok _ => exact alone_raise h
  | error e => exact h

theorem awaitStatus_settles (self : ChannelBpfAttachment) {m : Machine}
    (hprocess : self.process = true) (hloader : m.loader me = true) (hstatus : self.status = none) :
    awaitStatus.Ensures (watching me (expects self.proto)) unforeseen (Settled me) self
      (m, true) := by
  have hrunning : ∀ e, Settled me (.error e) self (m, false) := fun _ => settled_holding (.inl hloader)
  apply ensures_bind
  apply alone_self
  apply vital_bind (@vital _ (.select self.startupTimeout) rfl)
  · exact hrunning
  intro ready
  show Ensures _ _ _ _ _ (m, true)
  split
  · apply reply_bind .readline serve_readline
    · intro r e hreply
      have hflag : expects self.proto .readline r m = false := by
        simp only [expects, hreply]
        rfl
      rw [hflag]
      exact hrunning e
    · intro r line hreply
      have hflag : expects self.proto .readline r m = (decide (line.text = []) ||
          (parseChannelLoaderStatus self.proto line).toBool) := by
        simp only [expects, hreply]
      rw [hflag]
      split
      · next hend =>
        rw [decide_eq_true hend, Bool.true_or]
        apply vital_bind (@vital _ .wait rfl)
        · exact hrunning
        intro returncode
        apply ensures_bind
        apply (stderrText_settles self hprocess).mono
        intro r a s h
        cases r with
        | error e => exact h
        | ok text =>
          obtain ⟨rfl, rfl⟩ := h
          apply ensures_bind
          apply alone_update
          exact closeStderr_raises _ _ (setLoader_self me false m) rfl hstatus
      · next hline =>
        rw [decide_eq_false hline, Bool.false_or]
        cases hparse : parseChannelLoaderStatus self.proto line with
        | ok mapId =>
          apply ensures_bind
          apply alone_pure
          apply ensures_bind
          apply alone_update
          exact alone_pure ⟨fun _ => rfl, fun _ => ⟨parseChannelLoaderStatus_pos hparse, hprocess⟩⟩
        | error e =>
          apply ensures_bind
          exact alone_raise (hrunning e)
  · exact giveUp_settles _ self hprocess hloader

theorem refusePre519_settles (self : ChannelBpfAttachment) (m : Machine) :
    (refusePre519 proto).Ensures (watching me (expects proto)) unforeseen
      (fun _ a s => a = self ∧ s = (m, true)) self (m, true) := by
  apply free_bind .kernelHasNonblock rfl fun _ _ => rfl
  · exact fun _ => ⟨rfl, rfl⟩
  intro answer
  rcases answer with _ | (_ | _)
  · exact alone_pure ⟨rfl, rfl⟩
  · exact alone_pure ⟨rfl, rfl⟩
  · exact alone_raise ⟨rfl, rfl⟩

/-- How starting the loader ends: it runs, or it does not; then the file may be open, and has
to be closed. -/
def Launched (me : ℕ) (m : Machine) (r : Except PyExc Unit) (a : ChannelBpfAttachment)
    (s : Machine × Bool) : Prop :=
  match r with
  | .ok _ => a.process = true ∧ s = (m.setLoader me true, true)
  | .error e => a.process = false ∧ s.1 = m ∧
      (s.2 = true ∧ (a.stderrFile = true → handled e = true) ∨
        s.2 = false ∧ a.stderrFile = true ∧ handled e = false)

theorem startLoader_launches (command : List Str) (self : ChannelBpfAttachment) {m : Machine}
    (hprocess : self.process = false) (hstderr : self.stderrFile = false) :
    (startLoader command).Ensures (watching me (expects proto)) unforeseen
      (fun r a s => (a.proto = self.proto ∧ a.status = self.status) ∧ Launched me m r a s) self
      (m, true) := by
  apply free_bind .openStderr rfl fun _ _ => rfl
  · refine fun _ => ⟨⟨rfl, rfl⟩, hprocess, rfl, .inl ⟨rfl, fun hopen => ?_⟩⟩
    rw [hstderr] at hopen
    cases hopen
  intro _
  apply ensures_bind
  apply alone_update
  apply ensures_bind
  apply unforeseen_ask (SystemCall.popen command)
  intro r
  cases hreply : r (.popen command) with
  | error e =>
    have hflag : expects proto (.popen command) r m = handled e := by
      simp only [expects, hreply]
    rw [serve_error (by rintro ⟨⟩) hreply, hflag]
    refine ⟨⟨rfl, rfl⟩, hprocess, rfl, ?_⟩
    cases hhandled : handled e with
    | true => exact .inl ⟨rfl, fun _ => rfl⟩
    | false => exact .inr ⟨rfl, rfl, rfl⟩
  | ok u =>
    have hserve : serve me (.popen command) r m = (.ok (), m.setLoader me true) := by
      unfold serve
      rw [hreply]
      rfl
    have hflag : expects proto (.popen command) r m = true := by
      simp only [expects, hreply]
      rfl
    rw [hserve, hflag]
    exact alone_update ⟨⟨rfl, rfl⟩, rfl, rfl⟩

theorem attach_settles (proto : ChannelProto) (loaderPath objectPath : Str) (startupTimeout : ℕ)
    {m : Machine} (hidle : m.loader me = false) :
    attach.Ensures (watching me (expects proto)) unforeseen (Settled me)
      (new proto loaderPath objectPath startupTimeout) (m, true) := by
  have hfresh : ∀ e, Settled me (.error e) (new proto loaderPath objectPath startupTimeout)
      (m, true) := fun _ => ⟨fun _ => rfl, fun _ => ⟨hidle, rfl, rfl, rfl⟩⟩
  apply ensures_bind
  apply alone_self
  apply free_bind (.pathExists loaderPath) rfl fun _ _ => rfl
  · exact hfresh
  intro loaderExists
  split
  · apply free_bind (.pathExists objectPath) rfl fun _ _ => rfl
    · exact hfresh
    intro objectExists
    split
    · apply ensures_bind
      apply (refusePre519_settles _ m).mono
      rintro r a s ⟨rfl, rfl⟩
      cases r with
      | error e => exact hfresh e
      | ok _ =>
        apply free_bind .geteuid rfl fun _ _ => rfl
        · exact hfresh
        intro euid
        apply ensures_bind
        apply ensures_attempt
        apply (startLoader_launches _ _ rfl rfl).mono
        rintro r a ⟨m', b⟩ ⟨⟨hproto, hstatus⟩, hlaunched⟩
        cases r with
        | ok _ =>
          obtain ⟨hprocess, hs⟩ := hlaunched
          cases hs
          dsimp only
          have hproto : a.proto = proto := hproto
          rw [← hproto]
          exact awaitStatus_settles a hprocess (setLoader_self me true m) hstatus
        | error e =>
          obtain ⟨hprocess, hm, hfailed⟩ := hlaunched
          have hm : m' = m := hm
          subst hm
          dsimp only at hfailed ⊢
          -- a handled exception closes the file, of any other it is open
          split
          · next h =>
            cases h
            rcases hfailed with ⟨rfl, -⟩ | ⟨-, -, hhandled⟩
            · exact closeStderr_raises _ a hidle hprocess hstatus
            · cases hhandled
          · next h =>
            cases h
            rcases hfailed with ⟨rfl, -⟩ | ⟨-, -, hhandled⟩
            · exact closeStderr_raises _ a hidle hprocess hstatus
            · cases hhandled
          · next hmissing hforbidden h =>
            cases h
            have hhandled : handled e = false := by
              unfold handled
              split
              · exact absurd rfl hmissing
              · exact absurd rfl hforbidden
              · rfl
            rcases hfailed with ⟨rfl, hopen⟩ | ⟨rfl, hopen, -⟩
            · refine alone_raise ⟨fun _ => rfl, fun _ => ⟨hidle, hprocess, hstatus, ?_⟩⟩
              rw [hhandled] at hopen
              exact Bool.eq_false_iff.mpr fun h => absurd (hopen h) Bool.false_ne_true
            · exact alone_raise (settled_holding (.inr (.inr hopen)))
          · next h => cases h
    · exact alone_raise (hfresh _)
  · exact alone_raise (hfresh _)

end ChannelBpfAttachment

/-! ### How many calls -/

namespace ReceiveBpfAttachment

theorem detach_callsAtMost : detach.CallsAtMost 5 := by
  apply callsAtMost_self_bind
  intro self
  apply callsAtMost_update_bind
  split
  · apply callsAtMost_ask_bind SystemCall.poll
    intro status
    split
    · exact callsAtMost_pure
    · apply callsAtMost_ask_bind SystemCall.terminate
      intro _
      apply callsAtMost_attempt_bind (callsAtMost_ask (SystemCall.communicate (some 5)))
      intro outcome
      split
      · exact callsAtMost_pure
      · apply callsAtMost_ask_bind SystemCall.kill
        intro _
        apply callsAtMost_ask_bind (SystemCall.communicate none)
        exact fun _ => callsAtMost_pure
      · exact callsAtMost_raise
  · exact callsAtMost_pure

theorem awaitStatus_callsAtMost : awaitStatus.CallsAtMost 7 := by
  apply callsAtMost_self_bind
  intro self
  apply callsAtMost_ask_bind (SystemCall.select self.startupTimeout)
  intro ready
  split
  · apply callsAtMost_ask_bind SystemCall.readline
    intro line
    split
    · apply callsAtMost_ask_bind (SystemCall.communicate none)
      intro out
      apply callsAtMost_update_bind
      exact callsAtMost_raise
    · split
      · apply callsAtMost_update_bind
        exact callsAtMost_pure
      · exact callsAtMost_bind detach_callsAtMost fun _ => callsAtMost_raise
      · exact callsAtMost_raise
  · exact callsAtMost_bind detach_callsAtMost fun _ => callsAtMost_raise

theorem attach_callsAtMost : attach.CallsAtMost 10 := by
  apply callsAtMost_self_bind
  intro self
  apply callsAtMost_ask_bind (SystemCall.pathExists self.loaderPath)
  intro loaderExists
  split
  · apply callsAtMost_ask_bind (SystemCall.pathExists self.objectPath)
    intro objectExists
    split
    · apply callsAtMost_attempt_bind (callsAtMost_ask (SystemCall.popen _))
      intro outcome
      split
      · exact callsAtMost_raise
      · exact callsAtMost_raise
      · exact callsAtMost_raise
      · apply callsAtMost_update_bind
        exact awaitStatus_callsAtMost
    · exact callsAtMost_raise
  · exact callsAtMost_raise

end ReceiveBpfAttachment

namespace ChannelBpfAttachment

theorem closeStderr_callsAtMost : closeStderr.CallsAtMost 1 := by
  apply callsAtMost_self_bind
  intro self
  split
  · apply callsAtMost_ask_bind SystemCall.closeStderr
    exact fun _ => callsAtMost_update
  · exact callsAtMost_pure

theorem detach_callsAtMost : detach.CallsAtMost 6 := by
  apply callsAtMost_self_bind
  intro self
  apply callsAtMost_update_bind
  split
  · apply callsAtMost_ask_bind SystemCall.poll
    intro status
    split
    · exact closeStderr_callsAtMost.mono (by decide)
    · apply callsAtMost_ask_bind SystemCall.terminate
      intro _
      apply callsAtMost_attempt_bind (callsAtMost_ask (SystemCall.communicate (some 5)))
      intro outcome
      split
      · exact closeStderr_callsAtMost.mono (by decide)
      · apply callsAtMost_ask_bind SystemCall.kill
        intro _
        apply callsAtMost_ask_bind (SystemCall.communicate none)
        exact fun _ => closeStderr_callsAtMost
      · exact callsAtMost_raise
  · exact closeStderr_callsAtMost.mono (by decide)

theorem stderrText_callsAtMost : stderrText.CallsAtMost 1 := by
  apply callsAtMost_self_bind
  intro self
  split
  · apply callsAtMost_ask_bind SystemCall.readStderr
    exact fun _ => callsAtMost_pure
  · exact callsAtMost_pure

theorem awaitStatus_callsAtMost : awaitStatus.CallsAtMost 7 := by
  apply callsAtMost_self_bind
  intro self
  apply callsAtMost_ask_bind (SystemCall.select self.startupTimeout)
  intro ready
  split
  · apply callsAtMost_ask_bind SystemCall.readline
    intro line
    split
    · apply callsAtMost_ask_bind SystemCall.wait
      intro returncode
      apply callsAtMost_bind stderrText_callsAtMost
      intro text
      apply callsAtMost_update_bind
      exact callsAtMost_bind closeStderr_callsAtMost fun _ => callsAtMost_raise
    · apply callsAtMost_reraise_bind
      intro mapId
      apply callsAtMost_update_bind
      exact callsAtMost_pure
  · exact callsAtMost_bind detach_callsAtMost fun _ => callsAtMost_raise

theorem refusePre519_callsAtMost (proto : ChannelProto) : (refusePre519 proto).CallsAtMost 1 := by
  apply callsAtMost_ask_bind SystemCall.kernelHasNonblock
  intro answer
  rcases answer with _ | (_ | _)
  · exact callsAtMost_pure
  · exact callsAtMost_pure
  · exact callsAtMost_raise

theorem startLoader_callsAtMost (command : List Str) : (startLoader command).CallsAtMost 2 := by
  apply callsAtMost_ask_bind SystemCall.openStderr
  intro _
  apply callsAtMost_update_bind
  apply callsAtMost_ask_bind (SystemCall.popen command)
  exact fun _ => callsAtMost_update

theorem attach_callsAtMost : attach.CallsAtMost 13 := by
  apply callsAtMost_self_bind
  intro self
  apply callsAtMost_ask_bind (SystemCall.pathExists self.loaderPath)
  intro loaderExists
  split
  · apply callsAtMost_ask_bind (SystemCall.pathExists self.objectPath)
    intro objectExists
    split
    · apply callsAtMost_bind (refusePre519_callsAtMost self.proto)
      intro _
      apply callsAtMost_ask_bind SystemCall.geteuid
      intro euid
      apply callsAtMost_attempt_bind (startLoader_callsAtMost _)
      intro outcome
      split
      · exact callsAtMost_bind closeStderr_callsAtMost fun _ => callsAtMost_raise
      · exact callsAtMost_bind closeStderr_callsAtMost fun _ => callsAtMost_raise
      · exact callsAtMost_raise
      · exact awaitStatus_callsAtMost
    · exact callsAtMost_raise
  · exact callsAtMost_raise

end ChannelBpfAttachment

/-! ### Whole runs -/

open Script in
/-- A program that returns whatever it is told and whose end shows whether every reply was
good, on a run that is long enough. -/
theorem returned_iff_along {α : Type} {me n : ℕ} {good : SystemCall → Reply → Machine → Bool}
    {Q : α → Machine → Prop} {p : Script SystemCall Value PyExc α} {m : Machine}
    (hcalls : p.CallsAtMost n)
    (hsettles : p.Ensures (watching me good) unforeseen (fun a s => Q a s.1 ↔ s.2 = true) (m, true))
    {replies : List Reply} (hlength : n ≤ replies.length) :
    Returned Q (run (serve me) p m replies) ↔
      Along (advance (serve me)) (Permits fun op r m => good op r m = true) (p, m) replies := by
  obtain ⟨a, t, hrun⟩ := @CallsAtMost.returns _ _ _ _ _ _ (serve me) n p m replies hcalls hlength
  let P : α → Machine → Prop := fun _ _ => True
  have hensures : p.Ensures (watching me good) unforeseen
      (fun a s => P a s.1 → (Q a s.1 ↔ s.2 = true)) (m, true) :=
    hsettles.mono fun _ _ h _ => h
  rw [hrun]
  exact hensures.run_iff along_permits_true hrun trivial

open Script in
/-- Attaching returns whatever the loader and the system reply, and it comes to all or nothing
exactly when every reply is one its code is prepared for. -/
theorem attach_all_or_nothing_iff (me : ℕ) (m : Machine) (hidle : m.loader me = false)
    (replies : List Reply) (hlength : 13 ≤ replies.length) (loaderPath objectPath : Str)
    (startupTimeout : ℕ) :
    (∀ hook,
      let attach := ReceiveBpfAttachment.attach (.new loaderPath objectPath hook startupTimeout)
      Returned (fun out t => ReceiveBpfAttachment.AllOrNothing me out.1 out.2 t)
          (run (serve me) attach m replies) ↔
        Along (advance (serve me))
          (Permits fun op r m => ReceiveBpfAttachment.expects op r m = true) (attach, m) replies) ∧
    (∀ proto,
      let attach := ChannelBpfAttachment.attach (.new proto loaderPath objectPath startupTimeout)
      Returned (fun out t => ChannelBpfAttachment.AllOrNothing me out.1 out.2 t)
          (run (serve me) attach m replies) ↔
        Along (advance (serve me))
          (Permits fun op r m => ChannelBpfAttachment.expects proto op r m = true) (attach, m)
          replies) := by
  constructor
  · intro hook
    exact returned_iff_along (ReceiveBpfAttachment.attach_callsAtMost _)
      (ReceiveBpfAttachment.attach_settles loaderPath objectPath hook startupTimeout hidle)
      (Nat.le_trans (by decide) hlength)
  · intro proto
    exact returned_iff_along (ChannelBpfAttachment.attach_callsAtMost _)
      (ChannelBpfAttachment.attach_settles proto loaderPath objectPath startupTimeout hidle) hlength

/-! A TCP loader whose first line is no status, and a receive loader that reports a map of an
infinite number. -/

def Reply.printed (line : Printed) : Reply
  | .readline => .ok line
  | op => Reply.works op

def garbledLine : Printed := { text := "ready\n".toList, json := .error .jsonDecodeError }

def infiniteLine : Printed where
  text := "\x7b\"backend\": \"fentry\", \"map_id\": Infinity\x7d\n".toList
  json := .ok (.obj [("backend".toList, .str "fentry".toList),
    ("map_id".toList, .float (.infinity false))])

def idleMachine : Machine := {}

def tcpAttachment : ChannelBpfAttachment := .new .tcp "loader".toList "object".toList 10

def receiveAttachment : ReceiveBpfAttachment := .new "loader".toList "object".toList "auto".toList 10

/-- Both raise, and the loader goes on without anyone to stop it. -/
theorem garbled_status_leaves_loader :
    Script.Returned (fun out t => ¬ ChannelBpfAttachment.AllOrNothing 0 out.1 out.2 t)
        (Script.run (serve 0) (ChannelBpfAttachment.attach tcpAttachment) idleMachine
          (List.replicate 13 (.printed garbledLine))) ∧
      Script.Returned (fun out t => ¬ ReceiveBpfAttachment.AllOrNothing 0 out.1 out.2 t)
        (Script.run (serve 0) (ReceiveBpfAttachment.attach receiveAttachment) idleMachine
          (List.replicate 13 (.printed infiniteLine))) := by
  constructor
  · have hreturned : Script.Returned (fun out t => out.1.toBool = false ∧ t.loader 0 = true)
        (Script.run (serve 0) (ChannelBpfAttachment.attach tcpAttachment) idleMachine
          (List.replicate 13 (.printed garbledLine))) := by
      decide +kernel
    obtain ⟨⟨r, a⟩, t, hrun, hraised, hrunning⟩ := hreturned.eq_done
    rw [hrun]
    cases r with
    | ok mapId => cases hraised
    | error e => exact fun h => absurd (h.stopped.symm.trans hrunning) Bool.false_ne_true
  · have hreturned : Script.Returned (fun out t => out.1.toBool = false ∧ t.loader 0 = true)
        (Script.run (serve 0) (ReceiveBpfAttachment.attach receiveAttachment) idleMachine
          (List.replicate 13 (.printed infiniteLine))) := by
      decide +kernel
    obtain ⟨⟨r, a⟩, t, hrun, hraised, hrunning⟩ := hreturned.eq_done
    rw [hrun]
    cases r with
    | ok status => cases hraised
    | error e => exact fun h => absurd (h.stopped.symm.trans hrunning) Bool.false_ne_true

theorem attach_all_or_nothing_iff_works :
    Script.Returned (fun out t => ReceiveBpfAttachment.AllOrNothing 0 out.1 out.2 t)
        (Script.run (serve 0) (ReceiveBpfAttachment.attach receiveAttachment) idleMachine
          (List.replicate 13 .works)) ∧
      Script.Returned (fun out t => ChannelBpfAttachment.AllOrNothing 0 out.1 out.2 t)
        (Script.run (serve 0) (ChannelBpfAttachment.attach tcpAttachment) idleMachine
          (List.replicate 13 .works)) := by
  obtain ⟨hreceive, hchannel⟩ := attach_all_or_nothing_iff 0 idleMachine rfl
    (List.replicate 13 .works) (by decide) "loader".toList "object".toList 10
  exact ⟨(hreceive "auto".toList).mpr (by decide +kernel), (hchannel .tcp).mpr (by decide +kernel)⟩

end UdpAnalyzer

import UdpAnalyzer.Lifecycle.Analyzer

/-! The clean-up of a run, whatever came before it. In the circumstances a run is looked
at in, each call of the clean-up either does what it is for or is interrupted, and the
replies that are watched for tell which; so the clean-up is complete exactly when none
of its calls was interrupted. -/

namespace UdpAnalyzer

open Method

/-- The calls that undo what a collector holds. -/
def SystemCall.isCleanup : SystemCall → Bool
  | .run (.tcFilterDel ..) _ | .poll | .terminate | .kill | .communicate _ | .closeStderr => true
  | _ => false

/-- The calls within the `try` block. -/
def SystemCall.inLoop : SystemCall → Bool
  | .readCheckpoint | .emitSamples _ | .writeSamples _ | .monotonic | .sleep | .exceptClause => true
  | _ => false

/-- A call that does what it is for; a process that takes too long to stop is killed. -/
def Succeeds : (op : SystemCall) → Answer op → Bool
  | .run (.tcFilterDel _ _) _, .ok out => out.returncode = 0
  | .communicate (some _), .error .timeoutExpired => true
  | _, .ok _ => true
  | _, .error _ => false

/-- The circumstances of a run: `ok` says which replies can come, `good` which of them are
watched for. A call of the clean-up succeeds, or is interrupted, which is not good; the
loader does not make the program's own errors; nothing else is watched for before the
handlers are installed, and nothing in the loop. -/
structure Circumstances (ok : SystemCall → Reply → Machine → Prop)
    (good : SystemCall → Reply → Machine → Bool) : Prop where
  cleanup : ∀ op r m, op.isCleanup = true → ok op r m →
    Succeeds op (r op) = true ∧ good op r m = true ∨
      m.armed = true ∧ r op = .error .keyboardInterrupt ∧ good op r m = false
  loader : ∀ op r m, op.kind = .loader → op.isCleanup = false → ok op r m →
    ∀ message, r op ≠ .error (.runtimeError message)
  unarmed : ∀ op r m, op.kind ≠ .analyzer → m.armed = false → ok op r m → good op r m = true
  loop : ∀ op r m, op.inLoop = true → good op r m = true

theorem isCleanup_kind {op : SystemCall} (h : op.isCleanup = true) : op.kind ≠ .analyzer := by
  unfold SystemCall.isCleanup at h
  split at h <;> first | (rintro ⟨⟩) | cases h

/-- What the environment answers is answered. -/
theorem answer_succeeds {me : ℕ} {op : SystemCall} (v : Value op) (m : Machine) :
    ∃ a, Machine.answer me op (.ok v) m = .ok a := by
  cases op with
  | run command viaSudo =>
    cases command with
    | tcFilterDel ifname pref =>
      simp only [Machine.answer]
      split_ifs <;> exact ⟨_, rfl⟩
    | _ => exact ⟨v, rfl⟩
  | _ => exact ⟨_, rfl⟩

/-- A call that succeeds answers a value, unless it waits for a time only. -/
theorem answer_ok {me : ℕ} {op : SystemCall} {reply : Answer op} {m : Machine}
    (h : Succeeds op reply = true) (hop : ∀ t, op ≠ .communicate (some t)) :
    ∃ a, Machine.answer me op reply m = .ok a := by
  cases reply with
  | error e =>
    unfold Succeeds at h
    split at h
    · next heq => cases heq
    · exact absurd rfl (hop _)
    · next heq => cases heq
    · cases h
  | ok v => exact answer_succeeds v m

/-- A call that raises has not done anything. -/
theorem serve_error {me : ℕ} {op : SystemCall} (hop : op.kind ≠ .analyzer) {r : Reply}
    {m : Machine} {e : PyExc} (h : r op = .error e) : serve me op r m = (.error e, m) := by
  unfold serve
  rw [h]
  cases op with
  | run command viaSudo => cases command <;> rfl
  | _ => first | rfl | exact absurd rfl hop

section Cleanup

variable {S : Type} {me : ℕ} {ok : SystemCall → Reply → Machine → Prop}
  {good : SystemCall → Reply → Machine → Bool} (env : Circumstances ok good)

/-- The system of collector `me`, watched for `good`. -/
abbrev watching (me : ℕ) (good : SystemCall → Reply → Machine → Bool) :
    Script.Server SystemCall Value PyExc Reply (Machine × Bool) :=
  Script.watch (serve me) fun op r m => good op r m = true

/-- A part of the clean-up: it returns, with the flag as it was and `Q`, or it is
interrupted, with the flag down. -/
def CleanedUp {α : Type} (Q : S → Machine → Prop) (b : Bool) (r : Except PyExc α) (self : S)
    (s : Machine × Bool) : Prop :=
  match r with
  | .ok _ => Q self s.1 ∧ s.2 = b
  | .error _ => s.1.armed = true ∧ s.2 = false

include env

/-- One call of the clean-up. -/
theorem cleanup_ask (op : SystemCall) (hop : op.isCleanup = true) (self : S) (m : Machine)
    (b : Bool) :
    (ask op : Meth S (Value op)).Ensures (watching me good) (Script.watched ok)
      (fun r self' s => self' = self ∧
        ((∃ reply : Reply, Succeeds op (reply op) = true ∧ r = (serve me op reply m).1 ∧
            s = (Machine.effect me op r m, b)) ∨
          (m.armed = true ∧ r = .error .keyboardInterrupt ∧ s = (m, false)))) self (m, b) := by
  apply alone_ask op
  intro r hr
  refine ⟨rfl, ?_⟩
  rcases env.cleanup op r m hop hr with ⟨hsucceeds, hgood⟩ | ⟨harmed, hsignal, hgood⟩
  · refine .inl ⟨r, hsucceeds, rfl, ?_⟩
    show (_, b && decide (good op r m = true)) = _
    rw [decide_eq_true hgood, Bool.and_true]
    rfl
  · have hserve := @serve_error me op (isCleanup_kind hop) r m _ hsignal
    refine .inr ⟨harmed, congrArg Prod.fst hserve, ?_⟩
    show ((serve me op r m).2, b && decide (good op r m = true)) = _
    rw [hserve, hgood]
    simp

/-- One call of the clean-up that succeeds by answering. -/
theorem cleanup_call (op : SystemCall) (hop : op.isCleanup = true)
    (hwait : ∀ t, op ≠ .communicate (some t)) (self : S) (m : Machine) (b : Bool) :
    (ask op : Meth S (Value op)).Ensures (watching me good) (Script.watched ok)
      (fun r self' s => self' = self ∧
        ((∃ a, r = .ok a ∧ s = (Machine.effect me op (.ok a) m, b)) ∨
          (m.armed = true ∧ r = .error .keyboardInterrupt ∧ s = (m, false)))) self (m, b) := by
  apply (cleanup_ask env op hop self m b).mono
  rintro r self' s ⟨hself, ⟨reply, hsucceeds, hr, hs⟩ | hsignal⟩
  · obtain ⟨a, ha⟩ := @answer_ok me op (reply op) m hsucceeds hwait
    have hra : r = .ok a := hr.trans ha
    rw [hra] at hs
    exact ⟨hself, .inl ⟨a, hra, hs⟩⟩
  · exact ⟨hself, .inr hsignal⟩

/-- A call of the clean-up and what follows it. -/
theorem cleanup_bind (op : SystemCall) (hop : op.isCleanup = true)
    (hwait : ∀ t, op ≠ .communicate (some t)) {α : Type} {f : Value op → Meth S α} {self : S}
    {m : Machine} {b : Bool} {Q : S → Machine → Prop}
    (h : ∀ a, (f a).Ensures (watching me good) (Script.watched ok) (CleanedUp Q b) self
      (Machine.effect me op (.ok a) m, b)) :
    (ask op >>= f).Ensures (watching me good) (Script.watched ok) (CleanedUp Q b) self (m, b) := by
  apply ensures_bind
  apply (cleanup_call env op hop hwait self m b).mono
  rintro r self' s ⟨rfl, ⟨a, rfl, rfl⟩ | ⟨harmed, rfl, rfl⟩⟩
  · exact h a
  · exact ⟨harmed, rfl⟩

/-! ### Stopping the loader -/

omit env in
theorem setLoader_false {m : Machine} (h : m.loader me = false) : m.setLoader me false = m := by
  unfold Machine.setLoader
  rw [← h, Function.update_eq_self]

/-- Stopping the receive loader, if the object knows of its process. -/
theorem receive_detach_cleansUp (self : ReceiveBpfAttachment) (m : Machine) (b : Bool)
    (hprocess : m.loader me = true → self.process = true) :
    ReceiveBpfAttachment.detach.Ensures (watching me good) (Script.watched ok)
      (CleanedUp (fun _ m' => m' = m.setLoader me false) b) self (m, b) := by
  apply ensures_bind
  apply alone_self
  apply ensures_bind
  apply alone_update
  dsimp only
  split
  · apply cleanup_bind env SystemCall.poll rfl (fun _ => by simp)
    intro status
    cases status with
    | some c => exact alone_pure ⟨rfl, rfl⟩
    | none =>
      apply cleanup_bind env SystemCall.terminate rfl (fun _ => by simp)
      intro _
      apply ensures_bind
      apply ensures_attempt
      apply (cleanup_ask env (SystemCall.communicate (some 5)) rfl _ m b).mono
      rintro r self' s ⟨rfl, ⟨reply, hsucceeds, hr, rfl⟩ | ⟨harmed, rfl, rfl⟩⟩
      · cases r with
        | ok out => exact alone_pure ⟨rfl, rfl⟩
        | error e =>
          have he : reply (.communicate (some 5)) = .error e := hr.symm
          rw [he] at hsucceeds
          have htimeout : e = .timeoutExpired := by
            cases e <;> first | rfl | cases hsucceeds
          subst htimeout
          apply cleanup_bind env SystemCall.kill rfl (fun _ => by simp)
          intro _
          apply cleanup_bind env (SystemCall.communicate none) rfl (fun _ => by simp)
          intro _
          exact alone_pure ⟨rfl, rfl⟩
      · exact alone_raise ⟨harmed, rfl⟩
  · next hnone =>
    have hloader : m.loader me = false := by
      cases hm : m.loader me with
      | false => rfl
      | true => exact absurd (hprocess hm) hnone
    exact alone_pure ⟨(setLoader_false hloader).symm, rfl⟩

theorem channel_closeStderr_cleansUp (self : ChannelBpfAttachment) (m : Machine) (b : Bool) :
    ChannelBpfAttachment.closeStderr.Ensures (watching me good) (Script.watched ok)
      (CleanedUp (fun a m' => a.stderrFile = false ∧ m' = m) b) self (m, b) := by
  apply ensures_bind
  apply alone_self
  dsimp only
  split
  · apply cleanup_bind env SystemCall.closeStderr rfl (fun _ => by simp)
    intro _
    exact alone_update ⟨⟨rfl, rfl⟩, rfl⟩
  · next hclosed => exact alone_pure ⟨⟨Bool.eq_false_iff.mpr hclosed, rfl⟩, rfl⟩

/-- Stopping the loader of a channel collector and closing its standard error file. -/
theorem channel_detach_cleansUp (self : ChannelBpfAttachment) (m : Machine) (b : Bool)
    (hprocess : m.loader me = true → self.process = true) :
    ChannelBpfAttachment.detach.Ensures (watching me good) (Script.watched ok)
      (CleanedUp (fun a m' => a.stderrFile = false ∧ m' = m.setLoader me false) b) self (m, b) := by
  apply ensures_bind
  apply alone_self
  apply ensures_bind
  apply alone_update
  dsimp only
  split
  · apply cleanup_bind env SystemCall.poll rfl (fun _ => by simp)
    intro status
    cases status with
    | some c => exact channel_closeStderr_cleansUp env _ (m.setLoader me false) b
    | none =>
      apply cleanup_bind env SystemCall.terminate rfl (fun _ => by simp)
      intro _
      apply ensures_bind
      apply ensures_attempt
      apply (cleanup_ask env (SystemCall.communicate (some 5)) rfl _ m b).mono
      rintro r self' s ⟨rfl, ⟨reply, hsucceeds, hr, rfl⟩ | ⟨harmed, rfl, rfl⟩⟩
      · cases r with
        | ok out => exact channel_closeStderr_cleansUp env _ (m.setLoader me false) b
        | error e =>
          have he : reply (.communicate (some 5)) = .error e := hr.symm
          rw [he] at hsucceeds
          have htimeout : e = .timeoutExpired := by
            cases e <;> first | rfl | cases hsucceeds
          subst htimeout
          apply cleanup_bind env SystemCall.kill rfl (fun _ => by simp)
          intro _
          apply cleanup_bind env (SystemCall.communicate none) rfl (fun _ => by simp)
          intro _
          exact channel_closeStderr_cleansUp env _ (m.setLoader me false) b
      · exact alone_raise ⟨harmed, rfl⟩
  · next hnone =>
    have hloader : m.loader me = false := by
      cases hm : m.loader me with
      | false => rfl
      | true => exact absurd (hprocess hm) hnone
    rw [setLoader_false hloader]
    exact channel_closeStderr_cleansUp env _ m b

/-! ### Taking the filter away -/

omit env in
theorem deleteFilters_missing {m : Machine} {ifname : Str} {pref : ℤ}
    (h : m.filtersAt ifname pref = []) : m.deleteFilters ifname pref = m := by
  have hkeep : (m.filters.filter fun f => !(f.1 = ifname && f.2.1 = pref)) = m.filters := by
    apply List.filter_eq_self.mpr
    intro f hf
    have hnot : f ∉ m.filtersAt ifname pref := by rw [h]; exact List.not_mem_nil
    unfold Machine.filtersAt at hnot
    rw [List.mem_filter, not_and] at hnot
    simpa [imp_iff_not_or] using hnot hf
  unfold Machine.deleteFilters
  rw [hkeep]

omit env in
/-- Deleting the filters of a place leaves the machine without them, also when there are
none to delete. -/
theorem serve_filterDel {ifname : Str} {pref : ℤ} {viaSudo : Bool} {r : Reply} {m : Machine}
    (h : Succeeds (.run (.tcFilterDel ifname pref) viaSudo)
      (r (.run (.tcFilterDel ifname pref) viaSudo)) = true) :
    (∃ out : CompletedProcess, (serve me (.run (.tcFilterDel ifname pref) viaSudo) r m).1 = .ok out) ∧
      (serve me (.run (.tcFilterDel ifname pref) viaSudo) r m).2 = m.deleteFilters ifname pref := by
  unfold serve
  cases hreply : r (.run (.tcFilterDel ifname pref) viaSudo) with
  | error e =>
    rw [hreply] at h
    cases h
  | ok out =>
    have hzero : out.returncode = 0 := by
      rw [hreply] at h
      exact of_decide_eq_true h
    simp only [Machine.answer]
    split_ifs with hmissing
    · exact ⟨⟨_, rfl⟩, (deleteFilters_missing hmissing.1).symm⟩
    · exact ⟨⟨_, rfl⟩, if_pos hzero⟩

theorem filter_detach_cleansUp (self : TcBpfAttachment) (m : Machine) (b : Bool) :
    (TcBpfAttachment.detach true).Ensures (watching me good) (Script.watched ok)
      (CleanedUp (fun a m' => a.place = self.place ∧
        m' = m.deleteFilters self.ifname self.pref) b) self (m, b) := by
  apply ensures_bind
  apply alone_self
  apply ensures_bind
  apply runCommand_ensures
  intro t ht
  have ht : (m, b) = t := ht
  subst ht
  refine ⟨trivial, fun r hr u hu => ?_⟩
  have hu : _ = u := hu
  subst hu
  rcases env.cleanup _ r m rfl hr with ⟨hsucceeds, hgood⟩ | ⟨harmed, hsignal, hgood⟩
  · obtain ⟨⟨out', hout'⟩, hm'⟩ := @serve_filterDel me _ _ _ _ m hsucceeds
    have hstate : (Script.watch (serve me) (fun op r m => good op r m = true)
        (.run (.tcFilterDel self.ifname self.pref) true) r (m, b)).2 =
          (m.deleteFilters self.ifname self.pref, b) := by
      show ((serve me _ r m).2, b && decide (good _ r m = true)) = _
      rw [hm', decide_eq_true hgood, Bool.and_true]
    rw [hstate]
    refine ⟨fun e he => absurd (he out' hout').1 (by decide), fun out _ _ => ?_⟩
    dsimp only
    split
    · exact alone_update ⟨⟨rfl, rfl⟩, rfl⟩
    · exact alone_pure ⟨⟨rfl, rfl⟩, rfl⟩
  · have hserve := @serve_error me (.run (.tcFilterDel self.ifname self.pref) true) (isCleanup_kind rfl) r m _
      hsignal
    have hanswer : (Script.watch (serve me) (fun op r m => good op r m = true)
        (.run (.tcFilterDel self.ifname self.pref) true) r (m, b)).1 =
          .error .keyboardInterrupt := congrArg Prod.fst hserve
    have hstate : (Script.watch (serve me) (fun op r m => good op r m = true)
        (.run (.tcFilterDel self.ifname self.pref) true) r (m, b)).2 = (m, false) := by
      show ((serve me _ r m).2, b && decide (good _ r m = true)) = _
      rw [hserve, hgood]
      simp
    rw [hstate]
    refine ⟨fun e _ => ⟨harmed, rfl⟩, fun out hout _ => ?_⟩
    rw [hanswer] at hout
    cases hout

/-! ### Closing the collector -/

omit env in
/-- What the collector is known to hold: a loader that runs is one it can stop. -/
def AnyCollector.Holds (me : ℕ) (m : Machine) : AnyCollector → Prop
  | .dryRun => m.loader me = false
  | .ebpf c => m.loader me = true → ∃ a, c.receiveAttachment = some a ∧ a.process = true
  | .channel c => m.loader me = true → ∃ a, c.attachment = some a ∧ a.process = true

omit env in
/-- Nothing of the collector is left: its filters are gone and its loader has stopped. -/
def Locals.Released (me : ℕ) (l : Locals) (m : Machine) : Prop :=
  match l.collector with
  | some (.ebpf c) =>
    c.detachOnClose = true →
      (c.attachment.ifname, c.attachment.pref, me) ∉ m.filters ∧ m.loader me = false
  | some (.channel c) => m.loader me = false ∧ ∀ a, c.attachment = some a → a.stderrFile = false
  | _ => True

omit env in
/-- The parts of the machine closing a collector has nothing to do with. -/
def Machine.SameAnalyzer (m m' : Machine) : Prop := m'.armed = m.armed ∧ m'.writer = m.writer

theorem detachReceive_cleansUp (c : EbpfCollector) (m : Machine) (b : Bool)
    (hholds : (AnyCollector.ebpf c).Holds me m) :
    EbpfCollector.detachReceive.Ensures (watching me good) (Script.watched ok)
      (CleanedUp (fun c' m' => c'.closingPart = c.closingPart ∧ m' = m.setLoader me false) b)
      c (m, b) := by
  apply ensures_bind
  apply alone_self
  dsimp only
  split
  · next hnone =>
    have hloader : m.loader me = false := by
      cases hm : m.loader me with
      | false => rfl
      | true =>
        obtain ⟨a, ha, _⟩ := hholds hm
        rw [hnone] at ha
        cases ha
    exact alone_pure ⟨⟨rfl, (setLoader_false hloader).symm⟩, rfl⟩
  · next attachment hattachment =>
    have hprocess : m.loader me = true → attachment.process = true := by
      intro hm
      obtain ⟨a, ha, hprocess⟩ := hholds hm
      rw [hattachment] at ha
      cases ha
      exact hprocess
    apply ensures_bind
    apply ensures_callOn
    apply (receive_detach_cleansUp env attachment m b hprocess).mono
    rintro r attachment' ⟨m', b'⟩ hclean
    apply ensures_bind
    apply alone_update
    apply alone_reraise
    cases r with
    | ok _ => exact ⟨⟨rfl, hclean.1⟩, hclean.2⟩
    | error e => exact hclean

theorem ebpf_close_cleansUp (c : EbpfCollector) (m : Machine) (b : Bool)
    (hholds : (AnyCollector.ebpf c).Holds me m) :
    EbpfCollector.close.Ensures (watching me good) (Script.watched ok)
      (CleanedUp (fun c' m' => c'.closingPart = c.closingPart ∧ m.SameAnalyzer m' ∧
        (c.detachOnClose = true →
          (c.attachment.ifname, c.attachment.pref, me) ∉ m'.filters ∧ m'.loader me = false)) b)
      c (m, b) := by
  apply ensures_bind
  apply alone_self
  dsimp only
  split
  · apply ensures_bind
    apply (detachReceive_cleansUp env c m b hholds).mono
    rintro r c₁ ⟨m₁, b₁⟩ hclean
    cases r with
    | error e => exact hclean
    | ok _ =>
      obtain ⟨⟨hpart, hm₁⟩, hb₁⟩ := hclean
      subst hm₁ hb₁
      have hplace : c₁.attachment.place = c.attachment.place := congrArg Prod.snd hpart
      apply ensures_within
      apply (filter_detach_cleansUp env c₁.attachment _ _).mono
      rintro r a ⟨m₂, b₂⟩ hclean
      cases r with
      | error e => exact hclean
      | ok _ =>
        obtain ⟨⟨ha, hm₂⟩, hb₂⟩ := hclean
        subst hm₂ hb₂
        refine ⟨⟨?_, ⟨rfl, rfl⟩, fun _ => ⟨fun hmem => ?_, ?_⟩⟩, rfl⟩
        · show (c₁.detachOnClose, a.place) = (c.detachOnClose, c.attachment.place)
          rw [ha, hplace, show c₁.detachOnClose = c.detachOnClose from congrArg Prod.fst hpart]
        · obtain ⟨hifname, hpref⟩ := Prod.mk.inj hplace
          have hkept := (List.mem_filter.mp hmem).2
          rw [hifname, hpref] at hkept
          simp at hkept
        · exact Function.update_self me false m.loader
  · next hkeep => exact alone_pure ⟨⟨rfl, ⟨rfl, rfl⟩, fun h => absurd h hkeep⟩, rfl⟩

theorem channel_close_cleansUp (c : ChannelResources) (m : Machine) (b : Bool)
    (hholds : (AnyCollector.channel c).Holds me m) :
    ChannelResources.close.Ensures (watching me good) (Script.watched ok)
      (CleanedUp (fun c' m' => m.SameAnalyzer m' ∧ m'.loader me = false ∧
        ∀ a, c'.attachment = some a → a.stderrFile = false) b) c (m, b) := by
  apply ensures_bind
  apply alone_self
  dsimp only
  split
  · next hnone =>
    have hloader : m.loader me = false := by
      cases hm : m.loader me with
      | false => rfl
      | true =>
        obtain ⟨a, ha, _⟩ := hholds hm
        rw [hnone] at ha
        cases ha
    refine alone_pure ⟨⟨⟨rfl, rfl⟩, hloader, fun a ha => ?_⟩, rfl⟩
    rw [hnone] at ha
    cases ha
  · next attachment hattachment =>
    have hprocess : m.loader me = true → attachment.process = true := by
      intro hm
      obtain ⟨a, ha, hprocess⟩ := hholds hm
      rw [hattachment] at ha
      cases ha
      exact hprocess
    apply ensures_bind
    apply ensures_callOn
    apply (channel_detach_cleansUp env attachment m b hprocess).mono
    rintro r attachment' ⟨m', b'⟩ hclean
    apply ensures_bind
    apply alone_update
    apply alone_reraise
    cases r with
    | error e => exact hclean
    | ok _ =>
      obtain ⟨⟨hstderr, hm'⟩, hb'⟩ := hclean
      subst hm' hb'
      refine ⟨⟨⟨rfl, rfl⟩, ?_, fun a ha => ?_⟩, rfl⟩
      · exact Function.update_self me false m.loader
      · cases ha
        exact hstderr

/-- `collector.close()`: it returns with nothing left of the collector, or it is interrupted. -/
theorem closeCollector_cleansUp (l : Locals) (m : Machine) (b : Bool) (hclosed : l.closed = false)
    (hholds : ∀ c, l.collector = some c → c.Holds me m) :
    closeCollector.Ensures (watching me good) (Script.watched ok)
      (fun r l' s => l'.closed = r.isOk ∧
        CleanedUp (fun l' m' => m.SameAnalyzer m' ∧ l'.Released me m') b r l' s) l (m, b) := by
  have hresources : closeResources.Ensures (watching me good) (Script.watched ok)
      (fun r l' s => l'.closed = false ∧
        CleanedUp (fun l' m' => m.SameAnalyzer m' ∧ l'.Released me m') b r l' s) l (m, b) := by
    apply ensures_bind
    apply alone_self
    dsimp only
    split
    · next c hc =>
      apply ensures_bind
      apply ensures_callOn
      apply (ebpf_close_cleansUp env c m b (hholds _ hc)).mono
      rintro r c' ⟨m', b'⟩ hclean
      apply ensures_bind
      apply alone_update
      apply alone_reraise
      refine ⟨hclosed, ?_⟩
      cases r with
      | error e => exact hclean
      | ok _ =>
        obtain ⟨⟨hpart, hsame, hreleased⟩, hb'⟩ := hclean
        refine ⟨⟨hsame, fun hdetach => ?_⟩, hb'⟩
        have hplace : c'.attachment.place = c.attachment.place := congrArg Prod.snd hpart
        obtain ⟨hifname, hpref⟩ := Prod.mk.inj hplace
        rw [hifname, hpref]
        have hflag : c'.detachOnClose = c.detachOnClose := congrArg Prod.fst hpart
        exact hreleased (hflag ▸ hdetach)
    · next c hc =>
      apply ensures_bind
      apply ensures_callOn
      apply (channel_close_cleansUp env c m b (hholds _ hc)).mono
      rintro r c' ⟨m', b'⟩ hclean
      apply ensures_bind
      apply alone_update
      apply alone_reraise
      refine ⟨hclosed, ?_⟩
      cases r with
      | error e => exact hclean
      | ok _ => exact ⟨⟨hclean.1.1, hclean.1.2⟩, hclean.2⟩
    · next hebpf hchannel =>
      refine alone_pure ⟨hclosed, ⟨⟨rfl, rfl⟩, ?_⟩, rfl⟩
      unfold Locals.Released
      split
      · next c hc => exact absurd hc (hebpf c)
      · next c hc => exact absurd hc (hchannel c)
      · trivial
  apply ensures_bind
  apply hresources.mono
  rintro r l' ⟨m', b'⟩ ⟨hopen, hclean⟩
  cases r with
  | error e => exact ⟨hopen, hclean⟩
  | ok _ => exact alone_update ⟨rfl, hclean⟩

/-! ### The loop -/

omit env in
/-- The parts of the run the loop has nothing to do with. -/
def Locals.held (l : Locals) : Option AnyCollector × Bool := (l.collector, l.closed)

omit env in
theorem signalled_keeps (op : SystemCall) (h : op.inLoop = true) :
    (signalled op).Keeps (serve me) (fun op => op.inLoop = true) Locals.held := by
  apply keeps_bind (keeps_attempt (keeps_ask op h))
  intro answer
  split
  · apply keeps_bind
    · exact keeps_update fun _ => rfl
    · exact fun _ => keeps_raise
  · exact keeps_reraise

omit env in
theorem watchLoop_keeps {watch : Bool} {deadline : Option ℤ} {checkpoint : Meth Locals Unit}
    (hcheckpoint : checkpoint.Keeps (serve me) (fun op => op.inLoop = true) Locals.held) (n : ℕ) :
    (watchLoop watch deadline checkpoint n).Keeps (serve me) (fun op => op.inLoop = true)
      Locals.held := by
  have hround : (round watch deadline checkpoint).Keeps (serve me) (fun op => op.inLoop = true)
      Locals.held := by
    apply keeps_bind hcheckpoint
    intro _
    apply keeps_bind keeps_self
    intro l
    split
    · exact keeps_pure
    apply keeps_bind
    · split
      · exact keeps_pure
      · apply keeps_bind (signalled_keeps SystemCall.monotonic rfl)
        exact fun _ => keeps_pure
    intro late
    split
    · exact keeps_pure
    · apply keeps_bind (signalled_keeps SystemCall.sleep rfl)
      exact fun _ => keeps_pure
  apply keeps_bind (keeps_attempt (keeps_repeatUntil hround n))
  intro outcome
  cases outcome with
  | ok _ => exact keeps_pure
  | error e =>
    cases e with
    | keyboardInterrupt => exact signalled_keeps SystemCall.exceptClause rfl
    | _ => exact keeps_raise

omit env in
theorem effect_inLoop {op : SystemCall} (h : op.inLoop = true) (answer : Answer op) (m : Machine) :
    Machine.effect me op answer m = m := by
  unfold SystemCall.inLoop at h
  split at h <;> first | rfl | cases h

/-- However the loop ends, it leaves the machine and the flag as they were. -/
theorem watchLoop_ensures {watch : Bool} {deadline : Option ℤ} {checkpoint : Meth Locals Unit}
    (hcheckpoint : checkpoint.Keeps (serve me) (fun op => op.inLoop = true) Locals.held) (n : ℕ)
    (l : Locals) (m : Machine) (b : Bool) :
    (watchLoop watch deadline checkpoint n).Ensures (watching me good) (Script.watched ok)
      (fun _ l' s => l'.held = l.held ∧ s = (m, b)) l (m, b) := by
  have hkeeps : (watchLoop watch deadline checkpoint n).Keeps (watching me good)
      (fun op => op.inLoop = true) Locals.held := (watchLoop_keeps hcheckpoint n).watch _
  have hrely : ∀ s t : Machine × Bool, (Script.watched ok).rely s t → s = (m, b) → t = (m, b) :=
    fun _ _ hst hs => hst ▸ hs
  have hserve : ∀ op r (s : Machine × Bool), op.inLoop = true → ok op r s.1 → s = (m, b) →
      (watching me good op r s).2 = (m, b) := by
    intro op r s hop _ hs
    subst hs
    show (Machine.effect me op _ m, b && decide (good op r m = true)) = _
    rw [effect_inLoop hop, decide_eq_true (env.loop op r m hop), Bool.and_true]
  exact hkeeps.frame (fun _ _ _ => trivial) hrely hserve l rfl

end Cleanup

end UdpAnalyzer

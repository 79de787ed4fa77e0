import Mathlib.Data.List.Infix
import UdpAnalyzer.Lifecycle.System

/-! Running commands, and the two attachments of the ingress collector (`ebpf.py`): the
tc filter and the receive loader. -/

namespace UdpAnalyzer

open Method (raise attempt update)

def commandText (args : List Str) : String := String.ofList (List.intercalate [' '] args)

/-- `text or other`. -/
def orElse (text other : Str) : Str := if text = [] then other else text

/-- `CommandRunner.run`. -/
def runCommand {S : Type} (command : Command) (viaSudo : Bool) (check : Bool) :
    Meth S CompletedProcess := do
  let args := if viaSudo then "sudo".toList :: "-n".toList :: command.args else command.args
  match ← attempt (Sys.run command viaSudo) with
  | .error (.osError .fileNotFound) =>
    raise (.runtimeError ("required command not found: " ++ commandText (args.take 1)))
  | .error (.osError .permission) =>
    raise (.runtimeError ("permission denied running command: " ++ commandText (args.take 1)))
  | .error e => raise e
  | .ok result =>
    if check && result.returncode ≠ 0 then
      let detail := orElse (strip result.stderr) (strip result.stdout.text)
      raise (.runtimeError ("command failed: " ++ commandText args ++ "\n" ++ String.ofList detail))
    else pure result

/-- `CommandRunner.run_json`. -/
def runJson {S : Type} (command : Command) (viaSudo : Bool) : Meth S Json := do
  let result ← runCommand command viaSudo true
  match result.stdout.json with
  | .ok value => pure value
  | .error .jsonDecodeError =>
    raise (.runtimeError ("command did not return JSON: " ++ commandText command.args ++ "\n" ++
      String.ofList result.stdout.text))
  | .error e => raise e

/-! ### The tc filter -/

structure TcBpfAttachment where
  ifname : Str
  objectPath : Str
  sec : Str
  pref : ℤ
  attached : Bool := false

namespace TcBpfAttachment

def detach (ignoreMissing : Bool) : Meth TcBpfAttachment Unit := do
  let self ← Method.self
  let result ← runCommand (.tcFilterDel self.ifname self.pref) true false
  if result.returncode = 0 then update fun a => { a with attached := false }
  else if ignoreMissing then pure ()
  else
    let detail := orElse (strip result.stderr) (strip result.stdout.text)
    raise (.runtimeError ("failed to detach tc filter: " ++ String.ofList detail))

/-- A qdisc that is there already is no reason to give up. -/
def qdiscAlreadyExists (result : CompletedProcess) : Bool :=
  decide ("File exists".toList <:+: result.stderr) ||
    decide ("Exclusivity flag on".toList <:+: result.stderr)

def attach : Meth TcBpfAttachment Unit := do
  let self ← Method.self
  let present ← Sys.pathExists self.objectPath
  if present then
    let qdiscResult ← runCommand (.tcQdiscAdd self.ifname) true false
    if qdiscResult.returncode ≠ 0 && !qdiscAlreadyExists qdiscResult then
      raise (.runtimeError (String.ofList (strip qdiscResult.stderr)))
    else do
      detach true
      let _ ← runCommand (.tcFilterAdd self.ifname self.pref self.objectPath self.sec) true true
      update fun a => { a with attached := true }
  else raise (.runtimeError ("BPF object does not exist: " ++ String.ofList self.objectPath))

end TcBpfAttachment

/-! ### The receive loader -/

structure ReceiveLoaderStatus where
  backend : Str
  mapId : ℤ
  deriving DecidableEq, Repr

/-- `str(value)`. -/
def Json.toText : Json → Str
  | .str s => s
  | value => value.repr

/-- The members `parse_receive_loader_status` reads, before they are checked. -/
def loaderMembers : Json → Except PyExc ReceiveLoaderStatus
  | .obj members =>
    match lookupLast "backend".toList members with
    | none => .error .keyError
    | some backend => do
      let mapId ← Json.intMember members "map_id"
      return ⟨backend.toText, mapId⟩
  | _ => .error .typeError

/-- The exceptions that make a status an invalid one; a `UnicodeDecodeError` is a
`ValueError`. -/
def invalidatesStatus : PyExc → Bool
  | .jsonDecodeError | .keyError | .typeError | .valueError | .unicodeDecodeError => true
  | _ => false

/-- `parse_receive_loader_status`. -/
def parseReceiveLoaderStatus (line : Printed) : Except PyExc ReceiveLoaderStatus :=
  let invalid := .error (.runtimeError ("invalid receive loader status: " ++
    String.ofList (Json.reprText line.text)))
  match line.json >>= loaderMembers with
  | .ok status =>
    if (status.backend ≠ "fentry".toList ∧ status.backend ≠ "kprobe".toList) ∨ status.mapId ≤ 0 then
      invalid
    else .ok status
  | .error e => if invalidatesStatus e then invalid else .error e

structure ReceiveBpfAttachment where
  loaderPath : Str
  objectPath : Str
  hook : Str
  startupTimeout : ℕ := 10
  /-- There is a process object. -/
  process : Bool := false
  status : Option ReceiveLoaderStatus := none

namespace ReceiveBpfAttachment

def detach : Meth ReceiveBpfAttachment Unit := do
  let self ← Method.self
  update fun a => { a with process := false, status := none }
  if self.process then
    match ← Sys.poll with
    | some _ => pure ()
    | none => do
      Sys.terminate
      match ← attempt (Sys.communicate (some 5)) with
      | .ok _ => pure ()
      | .error .timeoutExpired => do
        Sys.kill
        let _ ← Sys.communicate none
      | .error e => raise e
  else pure ()

/-- Waiting for the loader to report what it attached. -/
def awaitStatus : Meth ReceiveBpfAttachment ReceiveLoaderStatus := do
  let self ← Method.self
  let ready ← Sys.select self.startupTimeout
  if ready then
    let line ← Sys.readline
    if line.text = [] then
      let out ← Sys.communicate none
      let detail := orElse (strip out.stderr) ("exit status ".toList ++ Json.reprInt out.returncode)
      update fun a => { a with process := false }
      raise (.runtimeError ("receive BPF attach failed: " ++ String.ofList detail))
    else
      match parseReceiveLoaderStatus line with
      | .ok status => do
        update fun a => { a with status := some status }
        pure status
      | .error (.runtimeError message) => do
        detach
        raise (.runtimeError message)
      | .error e => raise e
  else do
    detach
    raise (.runtimeError ("receive BPF loader did not report readiness within " ++
      String.ofList (decimal self.startupTimeout) ++ "s"))

def attach : Meth ReceiveBpfAttachment ReceiveLoaderStatus := do
  let self ← Method.self
  let loaderExists ← Sys.pathExists self.loaderPath
  if loaderExists then
    let objectExists ← Sys.pathExists self.objectPath
    if objectExists then
      match ← attempt (Sys.popen
          ["sudo".toList, "-n".toList, self.loaderPath, self.objectPath, self.hook]) with
      | .error (.osError .fileNotFound) =>
        raise (.runtimeError "required command not found: sudo")
      | .error (.osError .permission) => raise (.runtimeError "permission denied running: sudo")
      | .error e => raise e
      | .ok _ => do
        update fun a => { a with process := true }
        awaitStatus
    else
      raise (.runtimeError ("receive BPF object does not exist: " ++ String.ofList self.objectPath))
  else raise (.runtimeError ("receive BPF loader does not exist: " ++ String.ofList self.loaderPath))

end ReceiveBpfAttachment

/-! ### What they ensure -/

section Ensures

open Method

variable {S : Type} {me : ℕ}

/-- A command raises when it does not run, or when it fails and that is checked. -/
theorem runCommand_ensures {ρ σ : Type} {server : Script.Server SystemCall Value PyExc ρ σ}
    {K : Contract SystemCall ρ σ} {command : Command} {viaSudo check : Bool} {self : S} {m : σ}
    {post : Except PyExc CompletedProcess → S → σ → Prop}
    (h : ∀ t, K.rely m t → K.calls (.run command viaSudo) t ∧
      ∀ r, K.replies (.run command viaSudo) r t →
      ∀ u, K.rely (server (.run command viaSudo) r t).2 u →
        (∀ e, (∀ out : CompletedProcess, (server (.run command viaSudo) r t).1 = .ok out →
          check = true ∧ out.returncode ≠ 0) → post (.error e) self u) ∧
        (∀ out : CompletedProcess, (server (.run command viaSudo) r t).1 = .ok out →
          (check = true → out.returncode = 0) → post (.ok out) self u)) :
    (runCommand command viaSudo check).Ensures server K post self m := by
  apply ensures_bind
  apply ensures_attempt
  apply ensures_ask (SystemCall.run command viaSudo)
  intro t ht
  obtain ⟨hcalls, hnext⟩ := h t ht
  refine ⟨hcalls, fun r hr u hu => ?_⟩
  have hlater : ∀ v, K.rely u v → K.rely (server (.run command viaSudo) r t).2 v :=
    fun v => K.rely_trans _ _ _ hu
  cases hanswer : (server (.run command viaSudo) r t).1 with
  | error e =>
    have hfail : ∀ e, ∀ v, K.rely u v → post (.error e) self v := by
      intro e v hv
      apply (hnext r hr v (hlater v hv)).1
      intro out hout
      rw [hanswer] at hout
      cases hout
    dsimp only
    split
    · exact ensures_raise (hfail _)
    · exact ensures_raise (hfail _)
    · exact ensures_raise (hfail _)
    · next hok => cases hok
  | ok out =>
    dsimp only
    by_cases hcheck : (check && decide (out.returncode ≠ 0)) = true
    · rw [if_pos hcheck]
      apply ensures_raise
      intro v hv
      apply (hnext r hr v (hlater v hv)).1
      intro out' hout'
      rw [hanswer] at hout'
      cases hout'
      simpa using hcheck
    · rw [if_neg hcheck]
      intro v hv
      apply (hnext r hr v (hlater v hv)).2 out hanswer
      simpa using hcheck

variable {calls : SystemCall → Prop} {V : Type} {view : S → V}

theorem runCommand_keeps {command : Command} {viaSudo check : Bool}
    (h : calls (.run command viaSudo)) :
    (runCommand command viaSudo check).Keeps (server) calls view :=
  fun _ _ => runCommand_ensures fun _ _ =>
    ⟨h, fun _ _ _ _ => ⟨fun _ _ => rfl, fun _ _ _ => rfl⟩⟩

theorem runJson_keeps {command : Command} {viaSudo : Bool} (h : calls (.run command viaSudo)) :
    (runJson command viaSudo).Keeps (serve me) calls view := by
  apply keeps_bind (runCommand_keeps h)
  intro result
  split
  · exact keeps_pure
  · exact keeps_raise
  · exact keeps_raise

namespace TcBpfAttachment

/-- The place of the filter. -/
def place (a : TcBpfAttachment) : Str × ℤ := (a.ifname, a.pref)

theorem detach_keeps (hfilters : ∀ op : SystemCall, op.kind = .filters → calls op)
    (ignoreMissing : Bool) :
    (TcBpfAttachment.detach ignoreMissing).Keeps (serve me) calls place := by
  apply keeps_bind keeps_self
  intro self
  apply keeps_bind (runCommand_keeps (hfilters _ rfl))
  intro result
  split
  · exact keeps_update fun _ => rfl
  split
  · exact keeps_pure
  · exact keeps_raise

theorem attach_keeps (hplain : ∀ op : SystemCall, op.kind = .plain → calls op)
    (hfilters : ∀ op : SystemCall, op.kind = .filters → calls op) :
    TcBpfAttachment.attach.Keeps (serve me) calls place := by
  apply keeps_bind keeps_self
  intro self
  apply keeps_bind (keeps_ask (SystemCall.pathExists self.objectPath) (hplain _ rfl))
  intro present
  split
  · apply keeps_bind (runCommand_keeps (hplain _ rfl))
    intro qdiscResult
    split
    · exact keeps_raise
    · apply keeps_bind (detach_keeps hfilters true)
      intro _
      apply keeps_bind (runCommand_keeps (hfilters _ rfl))
      intro _
      exact keeps_update fun _ => rfl
  · exact keeps_raise

end TcBpfAttachment

namespace ReceiveBpfAttachment

/-- Nothing of the object is kept. -/
def view₀ (_ : ReceiveBpfAttachment) : Unit := ()

theorem detach_keeps (hloader : ∀ op : SystemCall, op.kind = .loader → calls op) :
    ReceiveBpfAttachment.detach.Keeps (serve me) calls view₀ := by
  apply keeps_bind keeps_self
  intro self
  apply keeps_bind
  · exact keeps_update fun _ => rfl
  intro _
  split
  · apply keeps_bind (keeps_ask SystemCall.poll (hloader _ rfl))
    intro status
    split
    · exact keeps_pure
    · apply keeps_bind (keeps_ask SystemCall.terminate (hloader _ rfl))
      intro _
      apply keeps_bind (keeps_attempt (keeps_ask (SystemCall.communicate (some 5)) (hloader _ rfl)))
      intro outcome
      split
      · exact keeps_pure
      · apply keeps_bind (keeps_ask SystemCall.kill (hloader _ rfl))
        intro _
        apply keeps_bind (keeps_ask (SystemCall.communicate none) (hloader _ rfl))
        intro _
        exact keeps_pure
      · exact keeps_raise
  · exact keeps_pure

theorem awaitStatus_keeps (hloader : ∀ op : SystemCall, op.kind = .loader → calls op) :
    awaitStatus.Keeps (serve me) calls view₀ := by
  apply keeps_bind keeps_self
  intro self
  apply keeps_bind (keeps_ask (SystemCall.select self.startupTimeout) (hloader _ rfl))
  intro ready
  split
  · apply keeps_bind (keeps_ask SystemCall.readline (hloader _ rfl))
    intro line
    split
    · apply keeps_bind (keeps_ask (SystemCall.communicate none) (hloader _ rfl))
      intro out
      apply keeps_bind
      · exact keeps_update fun _ => rfl
      · exact fun _ => keeps_raise
    · split
      · apply keeps_bind
        · exact keeps_update fun _ => rfl
        · exact fun _ => keeps_pure
      · exact keeps_bind (detach_keeps hloader) fun _ => keeps_raise
      · exact keeps_raise
  · exact keeps_bind (detach_keeps hloader) fun _ => keeps_raise

theorem attach_keeps (hplain : ∀ op : SystemCall, op.kind = .plain → calls op)
    (hloader : ∀ op : SystemCall, op.kind = .loader → calls op) :
    ReceiveBpfAttachment.attach.Keeps (serve me) calls view₀ := by
  apply keeps_bind keeps_self
  intro self
  apply keeps_bind (keeps_ask (SystemCall.pathExists self.loaderPath) (hplain _ rfl))
  intro loaderExists
  split
  · apply keeps_bind (keeps_ask (SystemCall.pathExists self.objectPath) (hplain _ rfl))
    intro objectExists
    split
    · apply keeps_bind (keeps_attempt (keeps_ask (SystemCall.popen _) (hloader _ rfl)))
      intro outcome
      split
      · exact keeps_raise
      · exact keeps_raise
      · exact keeps_raise
      · apply keeps_bind
        · exact keeps_update fun _ => rfl
        · exact fun _ => awaitStatus_keeps hloader
    · exact keeps_raise
  · exact keeps_raise

end ReceiveBpfAttachment

end Ensures

end UdpAnalyzer

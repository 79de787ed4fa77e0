import UdpAnalyzer.Lifecycle.Attachment

/-! Construction and `close` of the channel collectors (`tcp_channel.py`,
`udp_channel.py`), which run the same steps under different names. -/

namespace UdpAnalyzer

open Method (raise attempt reraise update callOn)

inductive ChannelProto where
  | tcp | udp
  deriving DecidableEq, Repr

namespace ChannelProto

/-- The name in the messages. -/
def label : ChannelProto → String
  | tcp => "TCP"
  | udp => "UDP"

/-- The refusal of a kernel with the old `recvmsg` signature. -/
def refusal : ChannelProto → String
  | tcp =>
    "kernel tcp_recvmsg has the pre-5.19 signature (nonblock parameter): " ++
      "the fexit program would silently account garbage as rx_bytes. " ++
      "TCP channel attribution requires kernel >= 5.19."
  | udp =>
    "kernel udp_recvmsg has the pre-5.19 signature (noblock parameter): " ++
      "the fexit program would silently account garbage as rx_bytes. " ++
      "UDP channel attribution requires kernel >= 5.19."

end ChannelProto

/-- The member `parse_tcp_channel_loader_status` reads, before it is checked. -/
def channelLoaderMember : Json → Except PyExc ℤ
  | .obj members => Json.intMember members "map_id"
  | _ => .error .typeError

/-- `parse_tcp_channel_loader_status` and its UDP twin. -/
def parseChannelLoaderStatus (proto : ChannelProto) (line : Printed) : Except PyExc ℤ :=
  let invalid := .error (.runtimeError ("invalid " ++ proto.label ++ " channel loader status: " ++
    String.ofList (Json.reprText line.text)))
  match line.json >>= channelLoaderMember with
  | .ok mapId => if mapId ≤ 0 then invalid else .ok mapId
  | .error e => if invalidatesStatus e then invalid else .error e

/-- `TcpChannelBpfAttachment`, `UdpChannelBpfAttachment`. -/
structure ChannelBpfAttachment where
  proto : ChannelProto
  loaderPath : Str
  objectPath : Str
  startupTimeout : ℕ := 10
  /-- There is a process object. -/
  process : Bool := false
  /-- The map id of the status. -/
  status : Option ℤ := none
  /-- The standard error file is open. -/
  stderrFile : Bool := false

namespace ChannelBpfAttachment

/-- `_close_stderr`. -/
def closeStderr : Meth ChannelBpfAttachment Unit := do
  if (← Method.self).stderrFile then do
    Sys.closeStderr
    update fun a => { a with stderrFile := false }
  else pure ()

/-- `_stderr_text`. -/
def stderrText : Meth ChannelBpfAttachment Str := do
  if (← Method.self).stderrFile then do
    let text ← Sys.readStderr
    pure (strip text)
  else pure []

/-- Stopping a process that still runs. -/
def stopProcess : Meth ChannelBpfAttachment Unit := do
  Sys.terminate
  match ← attempt (Sys.communicate (some 5)) with
  | .ok _ => closeStderr
  | .error .timeoutExpired => do
    Sys.kill
    let _ ← Sys.communicate none
    closeStderr
  | .error e => raise e

def detach : Meth ChannelBpfAttachment Unit := do
  let self ← Method.self
  update fun a => { a with process := false, status := none }
  if self.process then
    match ← Sys.poll with
    | some _ => closeStderr
    | none => stopProcess
  else closeStderr

/-- `refuse_pre519_tcp_recvmsg` and its UDP twin. -/
def refusePre519 (proto : ChannelProto) : Meth ChannelBpfAttachment Unit := do
  match ← Sys.kernelHasNonblock with
  | some true => raise (.runtimeError proto.refusal)
  | _ => pure ()

/-- Opening the standard error file and starting the loader. -/
def startLoader (command : List Str) : Meth ChannelBpfAttachment Unit := do
  Sys.openStderr
  update fun a => { a with stderrFile := true }
  Sys.popen command
  update fun a => { a with process := true }

def awaitStatus : Meth ChannelBpfAttachment ℤ := do
  let self ← Method.self
  let ready ← Sys.select self.startupTimeout
  if ready then
    let line ← Sys.readline
    if line.text = [] then
      let returncode ← Sys.wait
      let text ← stderrText
      let detail := orElse text ("exit status ".toList ++ Json.reprInt returncode)
      update fun a => { a with process := false }
      closeStderr
      raise (.runtimeError (self.proto.label ++ " channel BPF attach failed: " ++
        String.ofList detail))
    else
      let mapId ← reraise (parseChannelLoaderStatus self.proto line)
      update fun a => { a with status := some mapId }
      pure mapId
  else do
    detach
    raise (.runtimeError (self.proto.label ++
      " channel BPF loader did not report readiness within " ++
      String.ofList (decimal self.startupTimeout) ++ "s"))

def attach : Meth ChannelBpfAttachment ℤ := do
  let self ← Method.self
  let loaderExists ← Sys.pathExists self.loaderPath
  if loaderExists then
    let objectExists ← Sys.pathExists self.objectPath
    if objectExists then
      refusePre519 self.proto
      let euid ← Sys.geteuid
      let command :=
        if euid = 0 then [self.loaderPath, self.objectPath]
        else ["sudo".toList, "-n".toList, self.loaderPath, self.objectPath]
      match ← attempt (startLoader command) with
      | .error (.osError .fileNotFound) => do
        closeStderr
        raise (.runtimeError ("required command not found: " ++ commandText (command.take 1)))
      | .error (.osError .permission) => do
        closeStderr
        raise (.runtimeError ("permission denied running: " ++ commandText (command.take 1)))
      | .error e => raise e
      | .ok _ => awaitStatus
    else
      raise (.runtimeError (self.proto.label ++ " channel BPF object does not exist: " ++
        String.ofList self.objectPath))
  else
    raise (.runtimeError (self.proto.label ++ " channel BPF loader does not exist: " ++
      String.ofList self.loaderPath))

end ChannelBpfAttachment

/-- What `TcpChannelCollector` and `UdpChannelCollector` hold while they live. -/
structure ChannelResources where
  attachment : Option ChannelBpfAttachment
  mapId : ℤ

namespace ChannelResources

/-- The constructor. -/
def create {S : Type} (proto : ChannelProto) (loaderPath objectPath : Str) (mapId : Option ℤ)
    (attach : Bool) : Meth S ChannelResources := do
  let option := match proto with
    | .tcp => "--tcp-map-id"
    | .udp => "--udp-map-id"
  if attach then do
    let (outcome, attachment) ←
      callOn ⟨proto, loaderPath, objectPath, 10, false, none, false⟩ ChannelBpfAttachment.attach
    let mapId ← reraise outcome
    pure ⟨some attachment, mapId⟩
  else
    match mapId with
    | none => raise (.runtimeError (option ++ " is required with --no-attach"))
    | some mapId =>
      if mapId ≤ 0 then
        raise (.runtimeError ("invalid " ++ proto.label ++ " channel map id: " ++
          String.ofList (Json.reprInt mapId)))
      else pure ⟨none, mapId⟩

def close : Meth ChannelResources Unit := do
  match (← Method.self).attachment with
  | none => pure ()
  | some attachment => do
    let (outcome, attachment) ← callOn attachment ChannelBpfAttachment.detach
    update fun c => { c with attachment := some attachment }
    reraise outcome

end ChannelResources

/-! ### The calls of construction -/

section Keeps

open Method

variable {me : ℕ} {calls : SystemCall → Prop} {V : Type}
  (hplain : ∀ op : SystemCall, op.kind = .plain → calls op)
  (hloader : ∀ op : SystemCall, op.kind = .loader → calls op)

namespace ChannelBpfAttachment

/-- Nothing of the object is kept. -/
def view₀ (_ : ChannelBpfAttachment) : Unit := ()

section

include hplain

theorem closeStderr_keeps : closeStderr.Keeps (serve me) calls view₀ := by
  apply keeps_bind keeps_self
  intro self
  split
  · apply keeps_bind (keeps_ask SystemCall.closeStderr (hplain _ rfl))
    intro _
    exact keeps_update fun _ => rfl
  · exact keeps_pure

theorem stderrText_keeps : stderrText.Keeps (serve me) calls view₀ := by
  apply keeps_bind keeps_self
  intro self
  split
  · apply keeps_bind (keeps_ask SystemCall.readStderr (hplain _ rfl))
    exact fun _ => keeps_pure
  · exact keeps_pure

theorem refusePre519_keeps (proto : ChannelProto) :
    (refusePre519 proto).Keeps (serve me) calls view₀ := by
  apply keeps_bind (keeps_ask SystemCall.kernelHasNonblock (hplain _ rfl))
  intro answer
  rcases answer with _ | (_ | _)
  · exact keeps_pure
  · exact keeps_pure
  · exact keeps_raise

end

include hplain hloader

theorem stopProcess_keeps : stopProcess.Keeps (serve me) calls view₀ := by
  apply keeps_bind (keeps_ask SystemCall.terminate (hloader _ rfl))
  intro _
  apply keeps_bind (keeps_attempt (keeps_ask (SystemCall.communicate (some 5)) (hloader _ rfl)))
  intro outcome
  split
  · exact closeStderr_keeps hplain
  · apply keeps_bind (keeps_ask SystemCall.kill (hloader _ rfl))
    intro _
    apply keeps_bind (keeps_ask (SystemCall.communicate none) (hloader _ rfl))
    exact fun _ => closeStderr_keeps hplain
  · exact keeps_raise

theorem detach_keeps : detach.Keeps (serve me) calls view₀ := by
  apply keeps_bind keeps_self
  intro self
  apply keeps_bind
  · exact keeps_update fun _ => rfl
  intro _
  split
  · apply keeps_bind (keeps_ask SystemCall.poll (hloader _ rfl))
    intro status
    split
    · exact closeStderr_keeps hplain
    · exact stopProcess_keeps hplain hloader
  · exact closeStderr_keeps hplain

theorem startLoader_keeps (command : List Str) :
    (startLoader command).Keeps (serve me) calls view₀ := by
  apply keeps_bind (keeps_ask SystemCall.openStderr (hplain _ rfl))
  intro _
  apply keeps_bind
  · exact keeps_update fun _ => rfl
  intro _
  apply keeps_bind (keeps_ask (SystemCall.popen command) (hloader _ rfl))
  intro _
  exact keeps_update fun _ => rfl

theorem awaitStatus_keeps : awaitStatus.Keeps (serve me) calls view₀ := by
  apply keeps_bind keeps_self
  intro self
  apply keeps_bind (keeps_ask (SystemCall.select self.startupTimeout) (hloader _ rfl))
  intro ready
  split
  · apply keeps_bind (keeps_ask SystemCall.readline (hloader _ rfl))
    intro line
    split
    · apply keeps_bind (keeps_ask SystemCall.wait (hloader _ rfl))
      intro returncode
      apply keeps_bind (stderrText_keeps hplain)
      intro text
      apply keeps_bind
      · exact keeps_update fun _ => rfl
      intro _
      exact keeps_bind (closeStderr_keeps hplain) fun _ => keeps_raise
    · apply keeps_bind keeps_reraise
      intro mapId
      apply keeps_bind
      · exact keeps_update fun _ => rfl
      · exact fun _ => keeps_pure
  · exact keeps_bind (detach_keeps hplain hloader) fun _ => keeps_raise

theorem attach_keeps : attach.Keeps (serve me) calls view₀ := by
  apply keeps_bind keeps_self
  intro self
  apply keeps_bind (keeps_ask (SystemCall.pathExists self.loaderPath) (hplain _ rfl))
  intro loaderExists
  split
  · apply keeps_bind (keeps_ask (SystemCall.pathExists self.objectPath) (hplain _ rfl))
    intro objectExists
    split
    · apply keeps_bind (refusePre519_keeps hplain self.proto)
      intro _
      apply keeps_bind (keeps_ask SystemCall.geteuid (hplain _ rfl))
      intro euid
      apply keeps_bind (keeps_attempt (startLoader_keeps hplain hloader _))
      intro outcome
      split
      · exact keeps_bind (closeStderr_keeps hplain) fun _ => keeps_raise
      · exact keeps_bind (closeStderr_keeps hplain) fun _ => keeps_raise
      · exact keeps_raise
      · exact awaitStatus_keeps hplain hloader
    · exact keeps_raise
  · exact keeps_raise

end ChannelBpfAttachment

include hplain hloader in
theorem ChannelResources.create_keeps {S : Type} {view : S → V} (proto : ChannelProto)
    (loaderPath objectPath : Str) (mapId : Option ℤ) (attach : Bool) :
    (create proto loaderPath objectPath mapId attach).Keeps (serve me) calls view := by
  unfold create
  dsimp only
  split
  · apply keeps_bind (keeps_callOn (ChannelBpfAttachment.attach_keeps hplain hloader))
    intro outcome
    apply keeps_bind keeps_reraise
    exact fun _ => keeps_pure
  · split
    · exact keeps_raise
    · split
      · exact keeps_raise
      · exact keeps_pure

end Keeps

end UdpAnalyzer

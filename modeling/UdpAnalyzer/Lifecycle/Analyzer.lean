import UdpAnalyzer.Lifecycle.ChannelAttachment
import UdpAnalyzer.Lifecycle.Collector

/-! The two runs of the command line (`cli.py`, `run_analyzer` and
`run_channel_analyzer`): the collector and the writer are created, the signal handlers
installed, and a loop of checkpoints runs until it is done or interrupted; then the
clean-up closes what is open. Every signal raises at the call it arrives at. -/

namespace UdpAnalyzer

open Method (raise attempt reraise update callOn finallyDo repeatUntil)

/-- The collectors. -/
inductive AnyCollector where
  | dryRun
  | ebpf (c : EbpfCollector)
  | channel (c : ChannelResources)

/-- The local variables of a run. -/
structure Locals where
  collector : Option AnyCollector := none
  stopping : Bool := false
  /-- `collector.close()` has returned; the program has no such variable. -/
  closed : Bool := false

/-- A call with the handlers installed: the handler sets `stopping` and raises. -/
def signalled (op : SystemCall) : Meth Locals (Value op) := do
  match ← attempt (Method.ask op) with
  | .error .keyboardInterrupt => do
    update fun l => { l with stopping := true }
    raise .keyboardInterrupt
  | answer => reraise answer

def monotonic : Meth Locals ℤ := signalled .monotonic

/-- One of the two handlers; where it cannot be installed the run goes on without. -/
def installHandler (signum : Signal) : Meth Locals Unit := do
  match ← attempt (signalled (.installHandler signum)) with
  | .error .valueError => pure ()
  | .error (.osError _) => pure ()
  | answer => reraise answer

/-- One round of the loop. -/
def round (watch : Bool) (deadline : Option ℤ) (checkpoint : Meth Locals Unit) :
    Meth Locals (Option Unit) := do
  checkpoint
  let l ← Method.self
  if !watch || l.stopping then pure (some ())
  else do
    let late ← (match deadline with
      | none => pure false
      | some d => do
        let now ← monotonic
        pure (decide (d ≤ now)))
    if late then pure (some ())
    else do
      signalled .sleep
      pure none

/-- The `try` block with its `except KeyboardInterrupt`. -/
def watchLoop (watch : Bool) (deadline : Option ℤ) (checkpoint : Meth Locals Unit) (n : ℕ) :
    Meth Locals Unit := do
  match ← attempt (repeatUntil (round watch deadline checkpoint) n) with
  | .error .keyboardInterrupt => signalled .exceptClause
  | outcome => reraise outcome

/-- The `close` of whichever collector there is. -/
def closeResources : Meth Locals Unit := do
  match (← Method.self).collector with
  | some (.ebpf c) => do
    let (outcome, c) ← callOn c EbpfCollector.close
    update fun l => { l with collector := some (.ebpf c) }
    reraise outcome
  | some (.channel c) => do
    let (outcome, c) ← callOn c ChannelResources.close
    update fun l => { l with collector := some (.channel c) }
    reraise outcome
  | _ => pure ()

/-- `collector.close()`. -/
def closeCollector : Meth Locals Unit := do
  closeResources
  update fun l => { l with closed := true }

/-- `time.monotonic() + args.duration`, if there is a duration. -/
def deadlineOf (duration : Option ℤ) : Meth Locals (Option ℤ) :=
  match duration with
  | none => pure none
  | some d => do
    let now ← Sys.monotonic
    pure (some (now + d))

/-- What both runs do once they hold their collector (and writer). `cleanup` is what
follows `collector.close()` in the `finally` block. -/
def supervise (watch : Bool) (duration : Option ℤ) (checkpoint cleanup : Meth Locals Unit)
    (n : ℕ) : Meth Locals Unit := do
  let deadline ← deadlineOf duration
  installHandler .sigterm
  installHandler .sigint
  signalled .enterTry
  finallyDo (watchLoop (watch || duration.isSome) deadline checkpoint n) do
    closeCollector
    cleanup

/-! ### `run` -/

inductive CollectorKind where
  | dryRun | ebpf
  deriving DecidableEq, Repr

structure RunArgs where
  collector : CollectorKind := .dryRun
  bucketMs : ℤ := 1000
  watch : Bool := false
  /-- In the unit of the clock. -/
  duration : Option ℤ := none
  interface : Option Str := none
  bpfObject : Str := "bpf/udp_ingress.bpf.o".toList
  bpfSection : Str := "classifier/udp_ingress".toList
  tcPref : ℤ := 49152
  deliveryAttribution : Option DeliveryAttribution := none
  receiveBpfObject : Str := "bpf/udp_receive.bpf.o".toList
  receiveLoader : Str := "bpf/udp_receive_loader".toList
  receiveHook : Str := "auto".toList
  receiveMapId : Option ℤ := none
  noAttach : Bool := false
  keepAttached : Bool := false
  enrichProcesses : Bool := false
  processName : Option Str := none

namespace RunArgs

/-- `args.enrich_processes or args.process_name`. -/
def wantsProcesses (args : RunArgs) : Bool :=
  args.enrichProcesses || (args.processName.getD []) ≠ []

/-- The arguments of the collector, for the resolved attribution. -/
def collectorArgs (args : RunArgs) (deliveryAttribution : DeliveryAttribution) :
    CollectorArgs where
  ifname := args.interface
  objectPath := args.bpfObject
  sec := args.bpfSection
  pref := args.tcPref
  attach := !args.noAttach
  detachOnClose := !args.keepAttached
  hasEnricher := deliveryAttribution ≠ .none
  deliveryAttribution := deliveryAttribution
  receiveObjectPath := args.receiveBpfObject
  receiveLoaderPath := args.receiveLoader
  receiveHook := args.receiveHook
  receiveMapId := args.receiveMapId

end RunArgs

/-- `create_collector`. -/
def createCollector {S : Type} (args : RunArgs) : Meth S AnyCollector := do
  if args.bucketMs ≤ 0 then raise (.runtimeError "--bucket-ms must be greater than zero")
  else
    match args.collector with
    | .dryRun => pure .dryRun
    | .ebpf =>
      let deliveryAttribution :=
        args.deliveryAttribution.getD (if args.wantsProcesses then .auto else .none)
      if deliveryAttribution = .none && args.wantsProcesses then
        raise (.runtimeError ("--enrich-processes/--process-name cannot be combined with " ++
          "--delivery-attribution none"))
      else do
        let c ← EbpfCollector.create (args.collectorArgs deliveryAttribution)
        pure (.ebpf c)

/-- `run_analyzer`, whose loop makes at most `n` rounds. -/
def runAnalyzer (args : RunArgs) (n : ℕ) : Meth Locals Unit := do
  let collector ← createCollector args
  update fun l => { l with collector := some collector }
  Method.ask SystemCall.createWriter
  supervise args.watch args.duration
    (do
      let samples ← signalled .readCheckpoint
      signalled (.emitSamples samples)
      signalled (.writeSamples samples))
    (do
      signalled .flush
      signalled .closeWriter) n

/-! ### `run-channels` -/

structure RunChannelsArgs where
  collector : CollectorKind := .dryRun
  proto : ChannelProto := .tcp
  bucketMs : ℤ := 1000
  watch : Bool := false
  duration : Option ℤ := none
  tcpBpfObject : Str := "bpf/tcp_channel.bpf.o".toList
  tcpLoader : Str := "bpf/tcp_channel_loader".toList
  tcpMapId : Option ℤ := none
  udpBpfObject : Str := "bpf/udp_channel.bpf.o".toList
  udpLoader : Str := "bpf/udp_channel_loader".toList
  udpMapId : Option ℤ := none
  noAttach : Bool := false

/-- `create_channel_collector`. -/
def createChannelCollector (args : RunChannelsArgs) : Meth Locals AnyCollector := do
  if args.bucketMs ≤ 0 then raise (.runtimeError "--bucket-ms must be greater than zero")
  else do
    Method.ask SystemCall.loadCatalog
    match args.collector, args.proto with
    | .dryRun, _ => pure .dryRun
    | .ebpf, .udp => do
      let c ← ChannelResources.create .udp args.udpLoader args.udpBpfObject args.udpMapId
        (!args.noAttach)
      pure (.channel c)
    | .ebpf, .tcp => do
      let c ← ChannelResources.create .tcp args.tcpLoader args.tcpBpfObject args.tcpMapId
        (!args.noAttach)
      pure (.channel c)

/-- `run_channel_analyzer`, whose loop makes at most `n` rounds. -/
def runChannelAnalyzer (args : RunChannelsArgs) (n : ℕ) : Meth Locals Unit := do
  let collector ← createChannelCollector args
  update fun l => { l with collector := some collector }
  supervise args.watch args.duration
    (do
      let samples ← signalled .readCheckpoint
      signalled (.emitSamples samples))
    (pure ()) n

end UdpAnalyzer

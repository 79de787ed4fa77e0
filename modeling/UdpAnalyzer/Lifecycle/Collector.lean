import UdpAnalyzer.Ingress.Collector
import UdpAnalyzer.Lifecycle.Attachment

/-! Construction and `close` of the ingress collector (`ebpf.py`): the tc filter, the
choice of the counter map, the delivery attribution with its receive loader, and what
the constructor undoes when a step fails. -/

namespace UdpAnalyzer

open Method (raise reraise update within callOn)

/-! ### The counter map -/

namespace Json

/-- `bool(value)`. -/
def truthy : Json → Bool
  | null => false
  | bool b => b
  | int n => n ≠ 0
  | float (.finite _ isZero _) => !isZero
  | float _ => true
  | str s => s ≠ []
  | arr items => !items.isEmpty
  | obj members => !members.isEmpty

/-- The items of `for item in value`. -/
def items : Json → Except PyExc (List Json)
  | arr items => .ok items
  | obj members => .ok (members.map fun m => str m.1)
  | str s => .ok (s.map fun c => str [c])
  | _ => .error .typeError

/-- `text == value`, for a text. -/
def isText (text : Str) : Json → Bool
  | str s => s = text
  | _ => false

/-- `name in value`, for a text. -/
def hasText (name : Str) : Json → Except PyExc Bool
  | obj members => .ok (members.any fun m => m.1 = name)
  | arr items => .ok (items.any (isText name))
  | str s => .ok (decide (name <:+: s))
  | _ => .error .typeError

/-- `value[name]`, for a text. -/
def subscript (name : String) : Json → Except PyExc Json
  | obj members =>
    match lookupLast name.toList members with
    | some value => .ok value
    | none => .error .keyError
  | _ => .error .typeError

end Json

def udpIngressProgramName : Str := "udp_ingress".toList

def udpIngressMapName : Str := "udp_ingress_counters".toList

/-- The programs of a name that own maps. -/
def candidatePrograms (programName : Str) (programs : List Json) : Except PyExc (List Json) :=
  programs.filterM fun program => do
    let name ← program.getMember "name"
    if name.isText programName then return (← program.getMember "map_ids").truthy
    else return false

/-- `int(item.get("id", 0))`. -/
def programId (program : Json) : Except PyExc ℤ :=
  match program with
  | .obj members => Json.intMemberOrZero members "id"
  | _ => .error .attributeError

/-- The last item of a list sorted by a key: of the items with the largest key, the last. -/
def lastByKey {α : Type} (keyed : List (ℤ × α)) : Option α :=
  (keyed.foldl (fun best item =>
    match best with
    | some kept => if kept.1 ≤ item.1 then some item else some kept
    | none => some item) none).map Prod.snd

/-- The map ids of the newest program of the wanted name. -/
def newestMapIds (programName : Str) (programs : Json) : Except PyExc (List ℤ) := do
  let candidates ← candidatePrograms programName (← programs.items)
  let keyed ← candidates.mapM fun program => return (← programId program, program)
  match lastByKey keyed with
  | none =>
    .error (.runtimeError ("could not find loaded BPF program named " ++
      String.ofList (Json.reprText programName)))
  | some newest =>
    let mapIds ← newest.getMember "map_ids"
    (if mapIds.truthy then mapIds.items else .ok []) >>= List.mapM Json.toInt

/-- The pairs of `names`, in order; a map without an id has none. -/
def mapNames (maps : Json) : Except PyExc (List (ℤ × Str)) := do
  let pairs ← (← if maps.truthy then maps.items else .ok []).mapM fun m => do
    if ← m.hasText "id".toList then
      let mapId ← (← m.subscript "id").toInt
      let name ← m.getMember "name" (.str [])
      return some (mapId, name.toText)
    else return none
  return pairs.filterMap id

/-- `names.get(map_id, default)`: the last pair of an id counts. -/
def nameOfMap (names : List (ℤ × Str)) (mapId : ℤ) (default : Str) : Str :=
  (names.reverse.lookup mapId).getD default

/-- The map of the wanted name among those of a program; the kernel keeps 15
characters of a map's name. -/
def mapByName (programName mapName : Str) (mapIds : List ℤ) (names : List (ℤ × Str)) :
    Except PyExc ℤ :=
  let wanted := mapName.take 15
  match mapIds.find? fun mapId => nameOfMap names mapId [] = wanted with
  | some mapId => .ok mapId
  | none =>
    let owned := Json.separated (mapIds.map fun i =>
      '(' :: Json.reprInt i ++ ", ".toList ++ Json.reprText (nameOfMap names i ['?']) ++ [')'])
    .error (.runtimeError ("program " ++ String.ofList (Json.reprText programName) ++
      " owns maps [" ++ String.ofList owned ++ "], none named " ++
      String.ofList (Json.reprText wanted)))

structure BpftoolMapReader where
  programName : Str := udpIngressProgramName
  mapName : Str := udpIngressMapName
  mapId : Option ℤ := none

def BpftoolMapReader.refreshMapId : Meth BpftoolMapReader ℤ := do
  let self ← Method.self
  let programs ← runJson .bpftoolProgShow true
  let mapIds ← reraise (newestMapIds self.programName programs)
  let maps ← runJson .bpftoolMapShow true
  let mapId ← reraise (mapNames maps >>= mapByName self.programName self.mapName mapIds)
  update fun r => { r with mapId := some mapId }
  pure mapId

/-! ### The collector -/

/-- `default_route_interface`. -/
def defaultRouteInterface {S : Type} : Meth S Str := do
  let result ← runCommand .ipRouteShowDefault false false
  let named :=
    if result.returncode = 0 then ((words result.stdout.text).dropWhile (· ≠ "dev".toList))[1]?
    else none
  match named with
  | some ifname => pure ifname
  | none =>
    match ← Sys.environGet "UDP_ANALYZER_IFACE".toList with
    | some (c :: rest) => pure (c :: rest)
    | _ =>
      raise (.runtimeError ("could not detect default interface; pass --interface or set " ++
        "UDP_ANALYZER_IFACE"))

/-- `EbpfIngressCollector`, as far as its life goes. -/
structure EbpfCollector where
  detachOnClose : Bool
  hasEnricher : Bool
  deliveryAttribution : DeliveryAttribution
  receiveBackend : Option Str := none
  attachment : TcBpfAttachment
  reader : BpftoolMapReader := {}
  receiveAttachment : Option ReceiveBpfAttachment := none
  /-- The map id of `delivered_reader`, when there is one. -/
  deliveredReader : Option ℤ := none

/-- The arguments of the constructor. -/
structure CollectorArgs where
  ifname : Option Str := none
  objectPath : Str := "bpf/udp_ingress.bpf.o".toList
  sec : Str := "classifier/udp_ingress".toList
  pref : ℤ := 49152
  attach : Bool := true
  detachOnClose : Bool := true
  hasEnricher : Bool := false
  deliveryAttribution : DeliveryAttribution := .none
  receiveObjectPath : Str := "bpf/udp_receive.bpf.o".toList
  receiveLoaderPath : Str := "bpf/udp_receive_loader".toList
  receiveHook : Str := "auto".toList
  receiveMapId : Option ℤ := none

/-- The interface and the preference of a collector that does not attach. -/
def CollectorArgs.place (args : CollectorArgs) : Str × ℤ :=
  (match args.ifname with
    | some (c :: rest) => c :: rest
    | _ => "unknown".toList,
  args.pref)

namespace EbpfCollector

/-- `_fall_back_to_legacy`, without the warning it prints. -/
def fallBackToLegacy : Meth EbpfCollector Unit :=
  update fun c => { c with deliveryAttribution := .legacy, receiveBackend := none }

/-- The constructor of `BpftoolDeliveredMapReader`. -/
def deliveredMapReader {S : Type} (mapId : ℤ) : Meth S ℤ :=
  if mapId ≤ 0 then
    raise (.runtimeError ("invalid delivered map id: " ++ String.ofList (Json.reprInt mapId)))
  else pure mapId

/-- The constructor of `ReceiveBpfAttachment`. -/
def receiveBpfAttachment {S : Type} (args : CollectorArgs) : Meth S ReceiveBpfAttachment :=
  if args.receiveHook ∈ ["auto".toList, "fentry".toList, "kprobe".toList] then
    pure ⟨args.receiveLoaderPath, args.receiveObjectPath, args.receiveHook, 10, false, none⟩
  else
    raise (.runtimeError ("unsupported receive hook: " ++ String.ofList args.receiveHook))

/-- Starting the receive loader; in auto mode a failure of it is not fatal. -/
def attachReceive (args : CollectorArgs) (mode : DeliveryAttribution) : Meth EbpfCollector Unit := do
  let (outcome, attachment) ← callOn (← receiveBpfAttachment args) ReceiveBpfAttachment.attach
  match outcome with
  | .error (.runtimeError message) =>
    if mode = .auto then fallBackToLegacy else raise (.runtimeError message)
  | .error e => raise e
  | .ok status => do
    update fun c => { c with receiveAttachment := some attachment }
    let mapId ← deliveredMapReader status.mapId
    update fun c =>
      { c with
        deliveredReader := some mapId
        deliveryAttribution := .cookie
        receiveBackend := some status.backend }

/-- `_configure_delivery`. -/
def configureDelivery (args : CollectorArgs) : Meth EbpfCollector Unit := do
  let mode := (← Method.self).deliveryAttribution
  if mode = .none then pure ()
  else do
    update fun c => { c with hasEnricher := true }
    if mode = .legacy then pure ()
    else if args.attach then attachReceive args mode
    else
      match args.receiveMapId with
      | some id => do
        let mapId ← deliveredMapReader id
        update fun c =>
          { c with
            deliveredReader := some mapId
            deliveryAttribution := .cookie
            receiveBackend := some "existing-map".toList }
      | none =>
        if mode = .auto then fallBackToLegacy
        else
          raise (.runtimeError ("--delivery-attribution cookie with --no-attach requires " ++
            "--receive-map-id"))

/-- The guarded part of the constructor. -/
def setUp (args : CollectorArgs) : Meth EbpfCollector Unit := do
  (if args.attach then
    within attachment (fun a c => { c with attachment := a }) TcBpfAttachment.attach
  else pure ())
  let _ ← within reader (fun r c => { c with reader := r }) BpftoolMapReader.refreshMapId
  configureDelivery args

def detachReceive : Meth EbpfCollector Unit := do
  match (← Method.self).receiveAttachment with
  | none => pure ()
  | some attachment => do
    let (outcome, attachment) ← callOn attachment ReceiveBpfAttachment.detach
    update fun c => { c with receiveAttachment := some attachment }
    reraise outcome

def detachFilter : Meth EbpfCollector Unit :=
  within attachment (fun a c => { c with attachment := a }) (TcBpfAttachment.detach true)

/-- The interface of the collector. -/
def chooseInterface {S : Type} (args : CollectorArgs) : Meth S Str :=
  match args.ifname with
  | some (c :: rest) => pure (c :: rest)
  | _ => if args.attach then defaultRouteInterface else pure "unknown".toList

/-- The object before the guarded part. -/
def blank (args : CollectorArgs) (ifname : Str) : EbpfCollector where
  detachOnClose := args.detachOnClose
  hasEnricher := args.hasEnricher
  deliveryAttribution :=
    if args.hasEnricher && args.deliveryAttribution = .none then .legacy
    else args.deliveryAttribution
  attachment := ⟨ifname, args.objectPath, args.sec, args.pref, false⟩

/-- What the constructor undoes when the guarded part raised. -/
def undo (args : CollectorArgs) : Meth EbpfCollector Unit := do
  detachReceive
  (if args.attach then detachFilter else pure ())

/-- The constructor. `except Exception` lets an interrupt through. -/
def create {S : Type} (args : CollectorArgs) : Meth S EbpfCollector := do
  let ifname ← chooseInterface args
  let (outcome, c) ← callOn (blank args ifname) (setUp args)
  match outcome with
  | .ok _ => pure c
  | .error .keyboardInterrupt => raise .keyboardInterrupt
  | .error e => do
    let (undone, _) ← callOn c (undo args)
    reraise undone
    raise e

def close : Meth EbpfCollector Unit := do
  if (← Method.self).detachOnClose then do
    detachReceive
    detachFilter
  else pure ()

end EbpfCollector

/-! ### The calls of construction and closing -/

section Keeps

open Method

variable {me : ℕ} {calls : SystemCall → Prop}

theorem refreshMapId_keeps (hplain : ∀ op : SystemCall, op.kind = .plain → calls op) :
    BpftoolMapReader.refreshMapId.Keeps (serve me) calls fun _ => () := by
  apply keeps_bind keeps_self
  intro self
  apply keeps_bind (runJson_keeps (hplain _ rfl))
  intro programs
  apply keeps_bind keeps_reraise
  intro mapIds
  apply keeps_bind (runJson_keeps (hplain _ rfl))
  intro maps
  apply keeps_bind keeps_reraise
  intro mapId
  apply keeps_bind
  · exact keeps_update fun _ => rfl
  · exact fun _ => keeps_pure

namespace EbpfCollector

theorem chooseInterface_keeps {S V : Type} {view : S → V} (args : CollectorArgs)
    (hplain : ∀ op : SystemCall, op.kind = .plain → calls op) :
    (chooseInterface args).Keeps (serve me) calls view := by
  unfold chooseInterface
  split
  · exact keeps_pure
  split
  · apply keeps_bind (runCommand_keeps (hplain _ rfl))
    intro result
    dsimp only
    split
    · exact keeps_pure
    · apply keeps_bind (keeps_ask (SystemCall.environGet _) (hplain _ rfl))
      intro value
      rcases value with _ | (_ | ⟨c, rest⟩)
      · exact keeps_raise
      · exact keeps_raise
      · exact keeps_pure
  · exact keeps_pure

/-- What `close` depends on, the receive attachment apart. -/
def closingPart (c : EbpfCollector) : Bool × Str × ℤ := (c.detachOnClose, c.attachment.place)

theorem deliveredMapReader_keeps {mapId : ℤ} :
    (deliveredMapReader mapId).Keeps (serve me) calls closingPart := by
  unfold deliveredMapReader
  split
  · exact keeps_raise
  · exact keeps_pure

theorem fallBackToLegacy_keeps : fallBackToLegacy.Keeps (serve me) calls closingPart :=
  keeps_update fun _ => rfl

section

variable (hplain : ∀ op : SystemCall, op.kind = .plain → calls op)
  (hloader : ∀ op : SystemCall, op.kind = .loader → calls op)

include hplain hloader

theorem attachReceive_keeps (args : CollectorArgs) (mode : DeliveryAttribution) :
    (attachReceive args mode).Keeps (serve me) calls closingPart := by
  apply keeps_bind
  · unfold receiveBpfAttachment
    split
    · exact keeps_pure
    · exact keeps_raise
  intro attachment
  apply keeps_bind (keeps_callOn (ReceiveBpfAttachment.attach_keeps hplain hloader))
  intro outcome
  dsimp only
  split
  · split
    · exact fallBackToLegacy_keeps
    · exact keeps_raise
  · exact keeps_raise
  · apply keeps_bind
    · exact keeps_update fun _ => rfl
    intro _
    apply keeps_bind deliveredMapReader_keeps
    intro mapId
    exact keeps_update fun _ => rfl

theorem configureDelivery_keeps (args : CollectorArgs) :
    (configureDelivery args).Keeps (serve me) calls closingPart := by
  apply keeps_bind keeps_self
  intro self
  dsimp only
  split
  · exact keeps_pure
  apply keeps_bind
  · exact keeps_update fun _ => rfl
  intro _
  split
  · exact keeps_pure
  split
  · exact attachReceive_keeps hplain hloader args _
  split
  · apply keeps_bind deliveredMapReader_keeps
    intro mapId
    exact keeps_update fun _ => rfl
  · split
    · exact fallBackToLegacy_keeps
    · exact keeps_raise

omit hplain in
theorem detachReceive_keeps : detachReceive.Keeps (serve me) calls closingPart := by
  apply keeps_bind keeps_self
  intro self
  split
  · exact keeps_pure
  · apply keeps_bind (keeps_callOn (ReceiveBpfAttachment.detach_keeps hloader))
    intro outcome
    apply keeps_bind
    · exact keeps_update fun _ => rfl
    · exact fun _ => keeps_reraise

/-- The guarded part of the constructor only touches the filters if it attaches. -/
theorem setUp_keeps (args : CollectorArgs)
    (hfilters : args.attach = true → ∀ op : SystemCall, op.kind = .filters → calls op) :
    (setUp args).Keeps (serve me) calls closingPart := by
  apply keeps_bind
  · split
    next hattach =>
      intro self s
      apply ensures_within
      apply (TcBpfAttachment.attach_keeps hplain (hfilters hattach) self.attachment s).mono
      intro _ a _ hplace
      exact congrArg (Prod.mk self.detachOnClose) hplace
    next => exact keeps_pure
  intro _
  apply keeps_bind
  · exact keeps_within (refreshMapId_keeps hplain) fun _ _ => rfl
  · exact fun _ => configureDelivery_keeps hplain hloader args

omit hplain in
theorem undo_keeps (args : CollectorArgs)
    (hfilters : args.attach = true → ∀ op : SystemCall, op.kind = .filters → calls op) :
    (undo args).Keeps (serve me) calls fun _ => () := by
  have hreceive : detachReceive.Keeps (serve me) calls fun _ => () :=
    fun self s => (detachReceive_keeps hloader self s).mono fun _ _ _ _ => rfl
  apply keeps_bind hreceive
  intro _
  split
  next hattach =>
    exact keeps_within (TcBpfAttachment.detach_keeps (hfilters hattach) true) fun _ _ => rfl
  next => exact keeps_pure

omit hloader in
/-- A collector that does not attach takes its interface from the arguments. -/
theorem chooseInterface_ensures {S : Type} (args : CollectorArgs) (self : S) (m : Machine) :
    (chooseInterface args).Ensures (serve me) (.anywhere calls)
      (fun r self' _ => self' = self ∧
        ∀ ifname, r = .ok ifname → args.attach = false → ifname = args.place.1) self m := by
  cases hattach : args.attach with
  | true =>
    have hchoose : (chooseInterface args).Keeps (serve me) calls (id : S → S) :=
      chooseInterface_keeps args hplain
    exact (hchoose self m).mono fun _ _ _ hself => ⟨hself, fun _ _ h => by cases h⟩
  | false =>
    have hpure : (chooseInterface args : Meth S Str) = Pure.pure args.place.1 := by
      rcases hname : args.ifname with _ | (_ | ⟨c, rest⟩) <;>
        simp [chooseInterface, CollectorArgs.place, hname, hattach]
    rw [hpure]
    intro t _
    refine ⟨rfl, fun ifname h _ => ?_⟩
    cases h
    rfl

/-- The constructor leaves the flag that decides what `close` does as given, and its
caller alone; without attaching, it leaves the place as given as well. -/
theorem create_ensures {S : Type} (args : CollectorArgs)
    (hfilters : args.attach = true → ∀ op : SystemCall, op.kind = .filters → calls op)
    (self : S) (m : Machine) :
    (create args).Ensures (serve me) (.anywhere calls)
      (fun r self' _ => self' = self ∧ ∀ c, r = .ok c → c.detachOnClose = args.detachOnClose ∧
        (args.attach = false → c.attachment.place = args.place)) self m := by
  have hreraise : ∀ r : Except PyExc Unit, (reraise r).Keeps (serve me) calls (id : S → S) :=
    fun _ => keeps_reraise
  apply ensures_bind
  apply (chooseInterface_ensures hplain args self m).mono
  rintro r self' t ⟨rfl, hifname⟩
  cases r with
  | error e => exact ⟨rfl, fun c h => by cases h⟩
  | ok ifname =>
    apply ensures_bind
    apply ensures_callOn
    apply (setUp_keeps hplain hloader args hfilters (blank args ifname) t).mono
    intro r c t hc
    dsimp only
    split
    · refine fun u _ => ⟨rfl, fun c' hc' => ?_⟩
      cases hc'
      obtain ⟨hdetach, hplace⟩ := Prod.mk.inj hc
      refine ⟨hdetach, fun hattach => hplace.trans ?_⟩
      exact congrArg (·, args.pref) (hifname ifname rfl hattach)
    · exact ensures_raise fun _ _ => ⟨rfl, fun c h => by cases h⟩
    · apply ensures_bind
      apply ensures_callOn
      apply (undo_keeps hloader args hfilters c t).mono
      intro undone _ t _
      apply ensures_bind
      apply (hreraise _ _ t).mono
      intro r self' t hself
      cases r with
      | error e => exact ⟨hself, fun c h => by cases h⟩
      | ok _ => exact ensures_raise fun _ _ => ⟨hself, fun c h => by cases h⟩

end

end EbpfCollector

end Keeps

end UdpAnalyzer

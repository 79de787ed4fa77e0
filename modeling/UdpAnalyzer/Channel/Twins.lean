import UdpAnalyzer.Channel.Decode
import UdpAnalyzer.Lib.Related

/-! The two channel pipelines are one pipeline up to the protocol. Dumps that differ in the
protocol of their keys only are parsed to entries that differ there only, and from there on the
two collectors keep the same baselines, attribute alike, emit the same rows and raise at the same
checkpoints. -/

namespace UdpAnalyzer

/-! ### Dumps that differ in the protocol -/

/-- Two members of a key: those of the protocol read as 6 and as 17, the others are equal. -/
def SameMember (tcp udp : Str × Json) : Prop :=
  tcp.1 = udp.1 ∧
    if tcp.1 = "ip_proto".toList then tcp.2.toInt = .ok 6 ∧ udp.2.toInt = .ok 17
    else tcp.2 = udp.2

/-- Two printed keys that differ in the protocol only, which is the byte at offset 21; or one key
that neither parser can read. -/
inductive SameKey : Json → Json → Prop
  | dict {tcp udp : List (Str × Json)} (h : List.Forall₂ SameMember tcp udp) :
      SameKey (.obj tcp) (.obj udp)
  | bytes (before after : List Json) {tcp udp : Json} (hoffset : before.length = 21)
      (htcp : rawByte tcp = .ok 6) (hudp : rawByte udp = .ok 17) :
      SameKey (.arr (before ++ tcp :: after)) (.arr (before ++ udp :: after))
  | unread {raw : Json} (h : ∀ d : FlowDecoder, ¬ Returns (d.readKey raw)) : SameKey raw raw

/-- Two entries of a dump: their keys differ in the protocol only, their other members are
equal. -/
inductive SameEntry : Json → Json → Prop
  | entry {tcp udp : List (Str × Json)}
      (h : List.Forall₂ (fun p q => p.1 = q.1 ∧
        if p.1 = "key".toList then SameKey p.2 q.2 else p.2 = q.2) tcp udp) :
      SameEntry (.obj tcp) (.obj udp)
  | other {raw : Json} (h : ∀ members, raw ≠ .obj members) : SameEntry raw raw

/-- Two dumps that differ in the protocol of their keys only. -/
inductive SameDump : Json → Json → Prop
  | entries {tcp udp : List Json} (h : List.Forall₂ SameEntry tcp udp) :
      SameDump (.arr tcp) (.arr udp)
  | other {raw : Json} (h : ∀ items, raw ≠ .arr items) : SameDump raw raw

/-- The keys of one flow in the two pipelines. -/
def SameFlow (tcp udp : FlowKey) : Prop :=
  ∃ key : FlowKey, tcp = { key with ipProto := 6 } ∧ udp = { key with ipProto := 17 }

/-- The entries of one flow in the two pipelines. -/
def SameFlowEntry (tcp udp : FlowEntry) : Prop :=
  SameFlow tcp.key udp.key ∧ tcp.value = udp.value

/-! ### Reading them -/

theorem eq_of_rel {α : Type} {o o' : Option α} (h : Option.Rel Eq o o') : o = o' := by
  cases h with
  | none => rfl
  | some h => rw [h]

section Members
variable {R : Json → Json → Prop} {name : Str}

theorem lookup_related {tcp udp : List (Str × Json)}
    (h : List.Forall₂ (fun p q => p.1 = q.1 ∧ (p.1 = name → R p.2 q.2)) tcp udp) :
    Option.Rel R (tcp.lookup name) (udp.lookup name) := by
  induction h with
  | nil => exact .none
  | @cons p q rest rest' hhead _ ih =>
    obtain ⟨i, v⟩ := p
    obtain ⟨j, v'⟩ := q
    obtain ⟨rfl, hvalue⟩ := hhead
    by_cases hi : name = i
    · rw [List.lookup_cons, List.lookup_cons, beq_iff_eq.mpr hi]
      exact .some (hvalue hi.symm)
    · rw [List.lookup_cons, List.lookup_cons, beq_eq_false_iff_ne.mpr hi]
      exact ih

theorem lookupLast_related {tcp udp : List (Str × Json)}
    (h : List.Forall₂ (fun p q => p.1 = q.1 ∧ (p.1 = name → R p.2 q.2)) tcp udp) :
    Option.Rel R (lookupLast name tcp) (lookupLast name udp) :=
  lookup_related (List.rel_reverse h)

end Members

/-- A member other than the protocol is read alike, -/
theorem SameMember.intMember {tcp udp : List (Str × Json)} (h : List.Forall₂ SameMember tcp udp)
    {name : String} (hname : name.toList ≠ "ip_proto".toList) :
    Json.intMember tcp name = Json.intMember udp name := by
  have hmembers : Option.Rel Eq (lookupLast name.toList tcp) (lookupLast name.toList udp) := by
    apply lookupLast_related
    refine h.imp fun p q hpq => ⟨hpq.1, fun hp => ?_⟩
    have hvalue := hpq.2
    rwa [if_neg (hp ▸ hname)] at hvalue
  rw [Json.intMember, Json.intMember, eq_of_rel hmembers]

/-- and the protocol is read as 6 and as 17. -/
theorem SameMember.protocol {tcp udp : List (Str × Json)} (h : List.Forall₂ SameMember tcp udp) :
    BothReturn (fun p q => p = 6 ∧ q = 17) (Json.intMember tcp "ip_proto")
      (Json.intMember udp "ip_proto") := by
  have hmembers : Option.Rel (fun p q : Json => p.toInt = .ok 6 ∧ q.toInt = .ok 17)
      (lookupLast "ip_proto".toList tcp) (lookupLast "ip_proto".toList udp) := by
    apply lookupLast_related
    refine h.imp fun p q hpq => ⟨hpq.1, fun hp => ?_⟩
    have hvalue := hpq.2
    rwa [if_pos hp] at hvalue
  generalize ho : lookupLast "ip_proto".toList tcp = o,
    ho' : lookupLast "ip_proto".toList udp = o' at hmembers
  rw [Json.intMember, Json.intMember, ho, ho']
  cases hmembers with
  | none => exact .error _ _
  | @some p q hpq =>
    dsimp only
    rw [hpq.1, hpq.2]
    exact .ok ⟨rfl, rfl⟩

/-- The bytes around an item of a printed byte string. -/
theorem rawBytes_around (before after : List Json) {item : Json} {b : UInt8}
    (h : rawByte item = .ok b) : rawBytes (.arr (before ++ item :: after)) = (do
      let front ← before.mapM rawByte
      let back ← after.mapM rawByte
      return front ++ b :: back) := by
  show (before ++ item :: after).mapM rawByte = _
  rw [List.mapM_append, List.mapM_cons, h, ok_bind]
  simp only [bind_assoc, pure_bind]

/-- The protocol is the twenty-second byte of a key. -/
theorem ofFields_protocol (before after : Bytes) (hbefore : before.length = 21) :
    ∃ key : FlowKey, ∀ protocol : UInt8,
      FlowKey.ofFields (unpackLE flowKeyFormat ((before ++ protocol :: after).take 32)) =
        .ok { key with ipProto := protocol.toNat } := by
  have hread : ∀ protocol : UInt8,
      unpackLE flowKeyFormat ((before ++ protocol :: after).take 32) =
        unpackLE [8, 4, 4, 2, 2, 1] before ++ protocol.toNat :: unpackLE [2, 8] (after.take 10) := by
    intro protocol
    have htake : (before ++ protocol :: after).take 32 = before ++ protocol :: after.take 10 := by
      rw [List.take_append, hbefore, List.take_of_length_le (by omega)]
      rfl
    rw [htake, show flowKeyFormat = [8, 4, 4, 2, 2, 1] ++ ([1] ++ [2, 8]) from rfl,
      unpackLE_append _ _ (by rw [hbefore]; rfl)]
    rfl
  simp only [hread, unpackLE, List.cons_append, List.nil_append, FlowKey.ofFields]
  exact ⟨⟨_, _, _, _, _, _, 0, _⟩, fun _ => rfl⟩

/-- Two keys that differ in the protocol only are both read, to the keys of one flow, or
neither. -/
theorem SameKey.readKey {tcp udp : Json} (h : SameKey tcp udp) :
    BothReturn SameFlow (tcpDecoder.readKey tcp) (udpDecoder.readKey udp) := by
  cases h with
  | dict h =>
    have hprotocol := SameMember.protocol h
    have hmember : ∀ name : String, name.toList ≠ "ip_proto".toList →
        Json.intMember _ name = Json.intMember _ name := fun name => SameMember.intMember h
    simp only [FlowDecoder.readKey]
    rw [hmember "socket_cookie" (by decide), hmember "src_ip4" (by decide),
      hmember "dst_ip4" (by decide), hmember "src_port" (by decide), hmember "dst_port" (by decide),
      hmember "family" (by decide), hmember "cgroup_id" (by decide)]
    refine BothReturn.bind_same fun socketCookie => BothReturn.bind_same fun srcIp4 =>
      BothReturn.bind_same fun dstIp4 => BothReturn.bind_same fun srcPort =>
      BothReturn.bind_same fun dstPort => BothReturn.bind_same fun family => ?_
    refine hprotocol.bind fun p q hpq => BothReturn.bind_same fun cgroupId => ?_
    obtain ⟨rfl, rfl⟩ := hpq
    exact .ok ⟨⟨socketCookie, srcIp4, dstIp4, srcPort, dstPort, family, 0, cgroupId⟩, rfl, rfl⟩
  | bytes before after hoffset htcp hudp =>
    show BothReturn SameFlow (rawBytes (.arr _) >>= tcpDecoder.keyOfBytes)
      (rawBytes (.arr _) >>= udpDecoder.keyOfBytes)
    rw [rawBytes_around before after htcp, rawBytes_around before after hudp]
    simp only [bind_assoc, pure_bind]
    cases hfront : before.mapM rawByte with
    | error e => exact .error e e
    | ok front =>
      have hlength : front.length = 21 := by
        rw [← (mapM_eq_ok_iff.mp hfront).length_eq, hoffset]
      rw [ok_bind, ok_bind]
      refine BothReturn.bind_same fun back => ?_
      obtain ⟨key, hkey⟩ := ofFields_protocol front back hlength
      simp only [FlowDecoder.keyOfBytes, List.length_append, List.length_cons]
      split_ifs
      · exact .error _ _
      · rw [hkey, hkey]
        exact .ok ⟨key, rfl, rfl⟩
  | unread h =>
    generalize ho : tcpDecoder.readKey tcp = x, ho' : udpDecoder.readKey tcp = y
    cases x with
    | ok key => exact absurd ⟨key, ho⟩ (h tcpDecoder)
    | error e =>
      cases y with
      | ok key => exact absurd ⟨key, ho'⟩ (h udpDecoder)
      | error e' => exact .error e e'

theorem SameFlow.validateKey {tcp udp : FlowKey} (h : SameFlow tcp udp) :
    BothReturn (fun _ _ => True) (tcpDecoder.validateKey tcp) (udpDecoder.validateKey udp) := by
  obtain ⟨key, rfl, rfl⟩ := h
  simp only [FlowDecoder.validateKey, tcpDecoder, udpDecoder, ne_eq, not_true_eq_false, or_false]
  split_ifs
  · exact .error _ _
  · exact .ok trivial
  · exact .error _ _

theorem SameKey.parseKey {tcp udp : Json} (h : SameKey tcp udp) :
    BothReturn SameFlow (tcpDecoder.parseKey tcp) (udpDecoder.parseKey udp) := by
  refine h.readKey.bind fun key key' hkey => hkey.validateKey.bind fun _ _ _ => ?_
  exact .ok hkey

/-- The records are read alike; only the message about a short one differs. -/
theorem parseRecord_both (value : Json) :
    BothReturn Eq (tcpDecoder.parseRecord value) (udpDecoder.parseRecord value) := by
  have hbytes : ∀ raw : Json, BothReturn Eq (rawBytes raw >>= tcpDecoder.recordOfBytes)
      (rawBytes raw >>= udpDecoder.recordOfBytes) := by
    refine fun raw => BothReturn.bind_same fun valueBytes => ?_
    simp only [FlowDecoder.recordOfBytes]
    split_ifs
    · exact .error _ _
    · exact .same (fun _ => rfl) _
  cases value with
  | obj members => exact .same (fun _ => rfl) _
  | null => exact hbytes _
  | bool b => exact hbytes _
  | int n => exact hbytes _
  | float x => exact hbytes _
  | str s => exact hbytes _
  | arr items => exact hbytes _

theorem parseValue_both (value values : Json) :
    BothReturn Eq (tcpDecoder.parseValue value values) (udpDecoder.parseValue value values) := by
  have hmerge : ∀ values : Json, BothReturn Eq
      (values.iterate >>= fun cpuValues => cpuValues.foldlM (fun acc cpuValue => do
        let value ← cpuValue.getMember "value"
        let parsed ← tcpDecoder.parseRecord value
        return acc.merge parsed) FlowValue.zero)
      (values.iterate >>= fun cpuValues => cpuValues.foldlM (fun acc cpuValue => do
        let value ← cpuValue.getMember "value"
        let parsed ← udpDecoder.parseRecord value
        return acc.merge parsed) FlowValue.zero) := by
    refine fun values => BothReturn.bind_same fun cpuValues => BothReturn.foldlM ?_ cpuValues rfl
    rintro acc _ cpuValue rfl
    refine BothReturn.bind_same fun value => (parseRecord_both value).bind ?_
    rintro parsed _ rfl
    exact .ok rfl
  cases values with
  | null => exact parseRecord_both value
  | bool b => exact hmerge _
  | int n => exact hmerge _
  | float x => exact hmerge _
  | str s => exact hmerge _
  | arr items => exact hmerge _
  | obj members => exact hmerge _

theorem getMember_raises {raw : Json} (h : ∀ members, raw ≠ .obj members) (name : String) :
    raw.getMember name = .error .attributeError := by
  cases raw with
  | obj members => exact absurd rfl (h members)
  | _ => rfl

theorem SameEntry.getMember_key {tcp udp : Json} (h : SameEntry tcp udp) :
    BothReturn SameKey (tcp.getMember "key") (udp.getMember "key") := by
  cases h with
  | other h =>
    rw [getMember_raises h]
    exact .error _ _
  | @entry tcp udp h =>
    have hmembers : Option.Rel SameKey (lookupLast "key".toList tcp)
        (lookupLast "key".toList udp) := by
      apply lookupLast_related
      refine h.imp fun p q hpq => ⟨hpq.1, fun hp => ?_⟩
      have hvalue := hpq.2
      rwa [if_pos hp] at hvalue
    refine .ok ?_
    generalize lookupLast "key".toList tcp = o, lookupLast "key".toList udp = o' at hmembers ⊢
    cases hmembers with
    | some hkey => exact hkey
    | none =>
      apply SameKey.unread
      rintro d ⟨key, hkey⟩
      cases hkey

theorem SameEntry.getMember_other {tcp udp : Json} (h : SameEntry tcp udp) {name : String}
    (hname : name.toList ≠ "key".toList) : tcp.getMember name = udp.getMember name := by
  cases h with
  | other h => rfl
  | @entry tcp udp h =>
    have hmembers : Option.Rel Eq (lookupLast name.toList tcp) (lookupLast name.toList udp) := by
      apply lookupLast_related
      refine h.imp fun p q hpq => ⟨hpq.1, fun hp => ?_⟩
      have hvalue := hpq.2
      rwa [if_neg (hp ▸ hname)] at hvalue
    rw [Json.getMember, Json.getMember, eq_of_rel hmembers]

theorem SameEntry.parseEntry {tcp udp : Json} (h : SameEntry tcp udp) :
    BothReturn SameFlowEntry (tcpDecoder.parseEntry tcp) (udpDecoder.parseEntry udp) := by
  have hvalue : tcp.getMember "value" = udp.getMember "value" := h.getMember_other (by decide)
  have hvalues : tcp.getMember "values" = udp.getMember "values" := h.getMember_other (by decide)
  simp only [FlowDecoder.parseEntry]
  rw [hvalue, hvalues]
  refine h.getMember_key.bind fun raw raw' hraw => hraw.parseKey.bind fun key key' hkey => ?_
  refine BothReturn.bind_same fun value => BothReturn.bind_same fun values => ?_
  refine (parseValue_both value values).bind fun record record' hrecord => ?_
  exact .ok ⟨hkey, hrecord⟩

/-- Dumps that differ in the protocol only are both read, to the entries of the same flows, or
neither. -/
theorem dumpEntries_both {tcp udp : Except PyExc Json} (h : BothReturn SameDump tcp udp) :
    BothReturn (List.Forall₂ SameFlowEntry) (tcpDecoder.dumpEntries tcp)
      (udpDecoder.dumpEntries udp) := by
  -- what a loop over a text or an object visits has no members
  have hstrings : ∀ {α : Type} {text : α → Str} (items : List α),
      BothReturn (List.Forall₂ SameFlowEntry)
        ((items.map fun item => Json.str (text item)).mapM tcpDecoder.parseEntry)
        ((items.map fun item => Json.str (text item)).mapM udpDecoder.parseEntry) := by
    intro α text items
    refine BothReturn.mapM (fun _ _ he => SameEntry.parseEntry he) ?_
    rw [List.forall₂_same]
    intro raw hraw
    obtain ⟨item, -, rfl⟩ := List.mem_map.mp hraw
    exact .other (by simp)
  refine h.bind fun raw raw' hraw => ?_
  cases hraw with
  | entries h => exact BothReturn.mapM (fun _ _ he => SameEntry.parseEntry he) h
  | other h =>
    cases raw with
    | arr items => exact absurd rfl (h items)
    | null => exact .ok .nil
    | bool b => exact .error _ _
    | int n => exact .error _ _
    | float x => exact .error _ _
    | str s => exact hstrings _
    | obj members => exact hstrings _

/-! ### The collectors -/

/-- The identities of one flow in the two pipelines. -/
def TwinIdentity (tcp udp : FlowIdentity) : Prop :=
  ∃ key key', SameFlow key key' ∧ key.identity = tcp ∧ key'.identity = udp

/-- A row of TCP and a row of UDP that agree in every field but the layer and the protocol. -/
def SameRow (tcp udp : ChannelSample) : Prop :=
  tcp.layer = .tcpChannel ∧ tcp.ipProto = 6 ∧
    udp = { tcp with layer := .udpChannel, ipProto := 17 }

/-- What the two collectors meet at one checkpoint: one loader state, clock and process table,
and two dumps that differ in the protocol of their keys. Every entry has a destination. -/
structure TwinInput where
  poll : Option ℤ := none
  stderr : LoaderStderr := {}
  nowNs : ℤ
  unitForPid : ℤ → Except PyExc Str
  ifIndexToName : ℤ → Except PyExc Str
  tcpDump : Except PyExc Json
  udpDump : Except PyExc Json
  same : BothReturn SameDump tcpDump udpDump
  addressed : ∀ entries, tcpDecoder.dumpEntries tcpDump = .ok entries →
    ∀ e ∈ entries, e.key.dstIp4 ≠ 0 ∧ e.key.dstPort ≠ 0

/-- The checkpoint as the TCP collector meets it. -/
def TwinInput.tcp (i : TwinInput) : ChannelInput where
  poll := i.poll
  stderr := i.stderr
  nowNs := i.nowNs
  dump := tcpDecoder.dumpEntries i.tcpDump
  unitForPid := i.unitForPid
  ifIndexToName := i.ifIndexToName

/-- The checkpoint as the UDP collector meets it. -/
def TwinInput.udp (i : TwinInput) : ChannelInput where
  poll := i.poll
  stderr := i.stderr
  nowNs := i.nowNs
  dump := udpDecoder.dumpEntries i.udpDump
  unitForPid := i.unitForPid
  ifIndexToName := i.ifIndexToName

@[simp] theorem TwinInput.tcp_nowNs (i : TwinInput) : i.tcp.nowNs = i.nowNs := rfl

@[simp] theorem TwinInput.udp_nowNs (i : TwinInput) : i.udp.nowNs = i.nowNs := rfl

/-- Two collectors of one configuration whose baselines differ in the protocol of the keys
only. -/
structure Twins (tcp udp : ChannelCollector) : Prop where
  catalog : tcp.catalog = udp.catalog
  bucketMs : tcp.bucketMs = udp.bucketMs
  sampleFilter : tcp.sampleFilter = udp.sampleFilter
  pidUnits : tcp.pidUnits = udp.pidUnits
  attachment : tcp.attachment = udp.attachment
  lastCheckpointNs : tcp.lastCheckpointNs = udp.lastCheckpointNs
  previous : tcp.previous.Related TwinIdentity Eq udp.previous

/-- Entries of one flow, with a destination. -/
def SameAddressed (tcp udp : FlowEntry) : Prop :=
  (tcp.key.dstIp4 ≠ 0 ∧ tcp.key.dstPort ≠ 0) ∧ SameFlowEntry tcp udp

theorem twinIdentity_biUnique : Relator.BiUnique TwinIdentity := by
  constructor
  · rintro _ _ _ ⟨_, _, ⟨key, rfl, rfl⟩, rfl, rfl⟩ ⟨_, _, ⟨key', rfl, rfl⟩, rfl, h⟩
    have hkeys := FlowKey.identity_injective h
    simp only [FlowKey.mk.injEq] at hkeys
    simp [FlowKey.identity, hkeys]
  · rintro _ _ _ ⟨_, _, ⟨key, rfl, rfl⟩, rfl, rfl⟩ ⟨_, _, ⟨key', rfl, rfl⟩, h, rfl⟩
    have hkeys := FlowKey.identity_injective h
    simp only [FlowKey.mk.injEq] at hkeys
    simp [FlowKey.identity, hkeys]

theorem flowLoop_relates :
    CounterLoop.Relates flowLoop flowLoop TwinIdentity SameAddressed where
  unique := twinIdentity_biUnique
  identity h := ⟨_, _, h.2.1, rfl, rfl⟩
  counters h := congrArg FlowValue.counters h.2.2
  zero := rfl
  add := rfl
  delta := rfl
  moved := rfl

namespace ChannelCollector

/-- With a destination the endpoint of a flow is its destination in both pipelines, so the
samples agree. -/
theorem flowSample_both {e e' : FlowEntry} (h : SameAddressed e e') (catalog : ChannelCatalog)
    (i : TwinInput) (bucketNs elapsed : ℤ) (d : FlowCounters) (unit : Str) :
    BothReturn SameRow (flowSample tcpChannel catalog i.tcp bucketNs elapsed e d unit)
      (flowSample udpChannel catalog i.udp bucketNs elapsed e' d unit) := by
  obtain ⟨⟨hip, hport⟩, ⟨key, hkey, hkey'⟩, hvalue⟩ := h
  obtain ⟨k, v⟩ := e
  obtain ⟨k', v'⟩ := e'
  obtain rfl : v = v' := hvalue
  obtain rfl : k = { key with ipProto := 6 } := hkey
  obtain rfl : k' = { key with ipProto := 17 } := hkey'
  dsimp only at hip hport
  simp only [flowSample, tcpChannel, udpChannel, TwinInput.tcp, TwinInput.udp, if_pos hip,
    if_pos hport, bind_assoc, pure_bind]
  refine BothReturn.bind_same fun dstIp => BothReturn.bind_same fun srcIp =>
    BothReturn.bind_same fun ifname => ?_
  exact .ok ⟨rfl, rfl, rfl⟩

/-- The filter looks at fields that agree. -/
theorem matchesSample_both {row row' : ChannelSample} (h : SameRow row row')
    (f : ChannelSampleFilter) : f.matchesSample row = f.matchesSample row' := by
  obtain ⟨-, -, rfl⟩ := h
  rfl

theorem emitFlow_both {tcp udp : ChannelCollector} (h : Twins tcp udp) (i : TwinInput)
    (bucketNs elapsed : ℤ) :
    CounterLoop.SameEmit SameAddressed SameRow SameRow Eq
      (tcp.emitFlow tcpChannel i.tcp bucketNs elapsed)
      (udp.emitFlow udpChannel i.udp bucketNs elapsed) := by
  rintro e e' d pidUnits _ he rfl
  have hpid : e'.value.pid = e.value.pid := by rw [he.2.2]
  have hunit : unitForPid i.udp e'.value.pid pidUnits = unitForPid i.tcp e.value.pid pidUnits := by
    rw [hpid]
    simp only [unitForPid, TwinInput.tcp, TwinInput.udp]
  simp only [emitFlow, hunit]
  rcases unitForPid i.tcp e.value.pid pidUnits with ⟨r, pidUnits'⟩
  cases r with
  | error x => exact ⟨.error x x, rfl⟩
  | ok unit =>
    have hsample := flowSample_both he tcp.catalog i bucketNs elapsed d unit
    dsimp only
    rw [← h.catalog, ← h.sampleFilter]
    generalize flowSample tcpChannel tcp.catalog i.tcp bucketNs elapsed e d unit = x,
      flowSample udpChannel tcp.catalog i.udp bucketNs elapsed e' d unit = y at hsample ⊢
    cases hsample with
    | error x y => exact ⟨.error x y, rfl⟩
    | @ok row row' hrow =>
      have hmatch := matchesSample_both hrow tcp.sampleFilter
      refine ⟨.ok ⟨hrow, ?_⟩, rfl⟩
      simp only [List.filter_cons, hmatch]
      split_ifs
      · exact .cons hrow .nil
      · exact .nil

/-- Emissions of one flow with one row, up to the protocol. -/
abbrev SameFlowEmission : FlowEmission → FlowEmission → Prop :=
  CounterLoop.SameEmission TwinIdentity SameRow SameRow

theorem readFlows_both {tcp udp : ChannelCollector} (h : Twins tcp udp) (i : TwinInput)
    (bucketNs elapsed : ℤ) :
    BothReturn (List.Forall₂ SameFlowEmission) (tcp.readFlows tcpChannel i.tcp bucketNs elapsed).1
        (udp.readFlows udpChannel i.udp bucketNs elapsed).1 ∧
      Twins (tcp.readFlows tcpChannel i.tcp bucketNs elapsed).2
        (udp.readFlows udpChannel i.udp bucketNs elapsed).2 := by
  have hemit := emitFlow_both h i bucketNs elapsed
  have hdumps : BothReturn (List.Forall₂ SameFlowEntry) i.tcp.dump i.udp.dump :=
    dumpEntries_both i.same
  have haddressed : ∀ entries, i.tcp.dump = .ok entries →
      ∀ e ∈ entries, e.key.dstIp4 ≠ 0 ∧ e.key.dstPort ≠ 0 := i.addressed
  simp only [readFlows]
  generalize i.tcp.dump = x, i.udp.dump = y at hdumps haddressed ⊢
  cases hdumps with
  | error e e' => exact ⟨.error e e', h⟩
  | @ok dump dump' hdump =>
    have hentries : List.Forall₂ SameAddressed dump dump' :=
      (List.forall₂_and_left dump dump').mpr ⟨haddressed dump rfl, hdump⟩
    have hpass := flowLoop_relates.readDump hemit hentries h.previous h.pidUnits
    exact ⟨hpass.emissions, { h with pidUnits := hpass.state, previous := hpass.previous }⟩

theorem ensureAlive_both {tcp udp : ChannelCollector} (h : Twins tcp udp) (i : TwinInput) :
    BothReturn (fun _ _ => True) (tcp.ensureAlive tcpChannel i.tcp).1
        (udp.ensureAlive udpChannel i.udp).1 ∧
      Twins (tcp.ensureAlive tcpChannel i.tcp).2 (udp.ensureAlive udpChannel i.udp).2 := by
  have hpoll : i.udp.poll = i.tcp.poll := rfl
  have hstderr : i.udp.stderr = i.tcp.stderr := rfl
  have hattachment : udp.attachment = tcp.attachment := h.attachment.symm
  simp only [ensureAlive, hattachment, hpoll, hstderr]
  split
  · exact ⟨.ok trivial, h⟩
  · exact ⟨.error _ _, h⟩
  split
  · exact ⟨.ok trivial, h⟩
  split
  · exact ⟨.error _ _, h⟩
  · refine ⟨?_, { h with attachment := rfl }⟩
    exact BothReturn.bind_same fun _ => .error _ _

/-- One checkpoint of both collectors. -/
theorem readCheckpoint_both {tcp udp : ChannelCollector} (h : Twins tcp udp) (i : TwinInput) :
    BothReturn (List.Forall₂ SameFlowEmission) (TcpChannelCollector.readCheckpoint tcp i.tcp).1
        (UdpChannelCollector.readCheckpoint udp i.udp).1 ∧
      Twins (TcpChannelCollector.readCheckpoint tcp i.tcp).2
        (UdpChannelCollector.readCheckpoint udp i.udp).2 := by
  have halive := ensureAlive_both h i
  simp only [TcpChannelCollector.readCheckpoint, UdpChannelCollector.readCheckpoint, readCheckpoint]
  generalize tcp.ensureAlive tcpChannel i.tcp = out, udp.ensureAlive udpChannel i.udp = out'
    at halive ⊢
  obtain ⟨r, tcp₁⟩ := out
  obtain ⟨r', udp₁⟩ := out'
  obtain ⟨hreturn, htwins⟩ := halive
  cases hreturn with
  | error e e' => exact ⟨.error e e', htwins⟩
  | ok _ =>
    have hstart : Twins { tcp₁ with pidUnits := ∅, lastCheckpointNs := some i.nowNs }
        { udp₁ with pidUnits := ∅, lastCheckpointNs := some i.nowNs } :=
      { htwins with pidUnits := rfl, lastCheckpointNs := rfl }
    have hbucket : udp₁.bucketMs = tcp₁.bucketMs := htwins.bucketMs.symm
    have hlast : udp₁.lastCheckpointNs = tcp₁.lastCheckpointNs := htwins.lastCheckpointNs.symm
    have hflows := readFlows_both hstart i (bucketStartNs i.nowNs tcp₁.bucketMs)
      (elapsedMs tcp₁.bucketMs tcp₁.lastCheckpointNs i.nowNs)
    simp only [TwinInput.tcp_nowNs, TwinInput.udp_nowNs, hlast]
    rw [hbucket] at hflows ⊢
    exact hflows

end ChannelCollector

/-- The rows of related checkpoints. -/
theorem sameRows {ems ems' : List FlowEmission}
    (h : List.Forall₂ ChannelCollector.SameFlowEmission ems ems') :
    List.Forall₂ SameRow (ems.flatMap Emission.rows) (ems'.flatMap Emission.rows) :=
  List.rel_flatMap h fun _ _ hem => hem.rows

theorem twins_start (catalog : ChannelCatalog) (bucketMs : ℤ) (sampleFilter : ChannelSampleFilter)
    (attachment : Option ChannelAttachment) :
    Twins { catalog, bucketMs, sampleFilter, attachment }
      { catalog, bucketMs, sampleFilter, attachment } where
  catalog := rfl
  bucketMs := rfl
  sampleFilter := rfl
  pidUnits := rfl
  attachment := rfl
  lastCheckpointNs := rfl
  previous := Dict.related_empty

/-- Of one catalog, filter and interval, and of any sequence of checkpoints, both collectors keep
the same baselines up to the protocol in their keys, return the same rows up to layer and
protocol, and raise at the same checkpoints. -/
theorem channel_pipelines_agree (catalog : ChannelCatalog) (bucketMs : ℤ)
    (sampleFilter : ChannelSampleFilter) (attachment : Option ChannelAttachment)
    (inputs : List TwinInput) :
    List.Forall₂ (fun tcp udp =>
        List.Forall₂ (fun p q => TwinIdentity p.1 q.1 ∧ p.2 = q.2) tcp.2.previous.items
          udp.2.previous.items ∧
        BothReturn (fun ems ems' => List.Forall₂ SameRow (ems.flatMap Emission.rows)
          (ems'.flatMap Emission.rows)) tcp.1 udp.1)
      (outcomes TcpChannelCollector.readCheckpoint (inputs.map TwinInput.tcp)
        { catalog, bucketMs, sampleFilter, attachment })
      (outcomes UdpChannelCollector.readCheckpoint (inputs.map TwinInput.udp)
        { catalog, bucketMs, sampleFilter, attachment }) := by
  have hinputs : List.Forall₂ (fun tcp udp => ∃ i : TwinInput, tcp = i.tcp ∧ udp = i.udp)
      (inputs.map TwinInput.tcp) (inputs.map TwinInput.udp) := by
    rw [List.forall₂_map_left_iff, List.forall₂_map_right_iff, List.forall₂_same]
    exact fun i _ => ⟨i, rfl, rfl⟩
  have hstep : ∀ (tcp udp : ChannelCollector) (input input' : ChannelInput), Twins tcp udp →
      (∃ i : TwinInput, input = i.tcp ∧ input' = i.udp) →
      BothReturn (List.Forall₂ ChannelCollector.SameFlowEmission)
          (TcpChannelCollector.readCheckpoint tcp input).1
          (UdpChannelCollector.readCheckpoint udp input').1 ∧
        Twins (TcpChannelCollector.readCheckpoint tcp input).2
          (UdpChannelCollector.readCheckpoint udp input').2 := by
    rintro tcp udp _ _ htwins ⟨i, rfl, rfl⟩
    exact ChannelCollector.readCheckpoint_both htwins i
  have hrun := outcomes_related hstep hinputs
    (twins_start catalog bucketMs sampleFilter attachment)
  exact hrun.imp fun tcp udp h => ⟨h.2.previous, h.1.imp fun _ _ => sameRows⟩

/-! Dumps of the kernel's maps are such dumps. -/

/-- A key under another protocol. -/
def ChannelKey.withProtocol (key : ChannelKey) (protocol : BitVec 8) : ChannelKey :=
  { key with ipProto := protocol }

theorem sameEntry_bpftool {n : ℕ} (entry : ChannelKey × (Fin n → ChannelValue)) :
    SameEntry (bpftoolEntry (entry.1.withProtocol 6, entry.2))
      (bpftoolEntry (entry.1.withProtocol 17, entry.2)) := by
  have hprinted : ∀ protocol : BitVec 8, hexList (packLE (entry.1.withProtocol protocol).fields) =
      .arr ((packLE (entry.1.fields.take 6)).map (fun b => .str (hexByte b)) ++
        .str (hexByte (UInt8.ofNat protocol.toNat)) ::
          (packLE (entry.1.fields.drop 7)).map fun b => .str (hexByte b)) := by
    intro protocol
    have hfields : (entry.1.withProtocol protocol).fields =
        entry.1.fields.take 6 ++ (1, protocol.toNat) :: entry.1.fields.drop 7 := rfl
    rw [hfields, packLE_append, hexList, List.map_append]
    rfl
  have hkey : SameKey (hexList (packLE (entry.1.withProtocol 6).fields))
      (hexList (packLE (entry.1.withProtocol 17).fields)) := by
    rw [hprinted, hprinted]
    refine .bytes _ _ ?_ (rawByte_printed (printsByte_hexByte _))
      (rawByte_printed (printsByte_hexByte _))
    rw [List.length_map, length_packLE]
    rfl
  have hname : "values".toList ≠ "key".toList := by decide
  refine .entry (.cons ⟨rfl, ?_⟩ (.cons ⟨rfl, ?_⟩ .nil))
  · exact (if_pos rfl).mpr hkey
  · exact (if_neg hname).mpr rfl

/-- The flows of a map: IPv4, with a cookie and a destination. -/
def Flows {n : ℕ} (entries : List (ChannelKey × (Fin n → ChannelValue))) : Prop :=
  ∀ e ∈ entries, e.1.socketCookie ≠ 0 ∧ e.1.family = 2 ∧ e.1.dstIp4 ≠ 0 ∧ e.1.dstPort ≠ 0

/-- A checkpoint over the dumps of one map, of TCP and of UDP. -/
def TwinInput.ofMap {n : ℕ} (nowNs : ℤ) (unitForPid ifIndexToName : ℤ → Except PyExc Str)
    (entries : List (ChannelKey × (Fin n → ChannelValue))) (hflows : Flows entries) :
    TwinInput where
  nowNs := nowNs
  unitForPid := unitForPid
  ifIndexToName := ifIndexToName
  tcpDump := .ok (.arr (entries.map fun e => bpftoolEntry (e.1.withProtocol 6, e.2)))
  udpDump := .ok (.arr (entries.map fun e => bpftoolEntry (e.1.withProtocol 17, e.2)))
  same := by
    refine .ok (.entries ?_)
    rw [List.forall₂_map_left_iff, List.forall₂_map_right_iff, List.forall₂_same]
    exact fun e _ => sameEntry_bpftool e
  addressed := by
    have haccepts :
        ∀ e ∈ entries.map fun e => (e.1.withProtocol 6, e.2), tcpDecoder.Accepts e.1 := by
      intro e he
      obtain ⟨entry, hentry, rfl⟩ := List.mem_map.mp he
      obtain ⟨hcookie, hfamily, -, -⟩ := hflows entry hentry
      exact ⟨hcookie, hfamily, rfl⟩
    have hread := FlowDecoder.dumpEntries_layout haccepts
    rw [List.map_map, List.map_map] at hread
    intro read hdump e he
    have hentries := hread.symm.trans hdump
    cases hentries
    obtain ⟨entry, hentry, rfl⟩ := List.mem_map.mp he
    obtain ⟨-, -, hip, hport⟩ := hflows entry hentry
    refine ⟨fun hzero => hip ?_, fun hzero => hport ?_⟩
    · exact BitVec.eq_of_toNat_eq (Int.natCast_inj.mp hzero)
    · exact BitVec.eq_of_toNat_eq (Int.natCast_inj.mp hzero)

/-- A flow that has received more bytes since the checkpoint before. -/
def twinFlow (rxBytes : BitVec 64) : List (ChannelKey × (Fin 2 → ChannelValue)) :=
  [(⟨7, 0x0A00000A, 0x0A7100CB, 40000, 443, 2, 0, 9⟩, fun _ => { rxBytes, pid := 1234 })]

theorem flows_twinFlow (rxBytes : BitVec 64) : Flows (twinFlow rxBytes) := by
  intro e he
  rw [List.mem_singleton.mp he]
  dsimp only
  decide

def twinInput (nowNs : ℤ) (rxBytes : BitVec 64) : TwinInput :=
  .ofMap nowNs (fun _ => .ok "a.service".toList) (fun _ => .error .osError) (twinFlow rxBytes)
    (flows_twinFlow rxBytes)

-- both collectors emit its row at the second checkpoint
example : (outcomes UdpChannelCollector.readCheckpoint
    ([twinInput 5000000000 100, twinInput 8000000000 300].map TwinInput.udp)
      { catalog := .ofTargets [], bucketMs := 1000 }).map (fun out => out.1.map fun ems =>
        (ems.flatMap Emission.rows).map fun row => (row.rxBytes, row.layer)) =
    [.ok [], .ok [(400, .udpChannel)]] := by
  decide +kernel

end UdpAnalyzer

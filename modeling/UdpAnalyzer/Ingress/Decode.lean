import UdpAnalyzer.Decode
import UdpAnalyzer.Ingress.Collector
import UdpAnalyzer.Ingress.Kernel

/-! Reading the dumps of the ingress map and of the delivered map (`parse_bpftool_entry` and
`parse_bpftool_delivered_entry`), and the layout of the structures the kernel programs keep
there. -/

namespace UdpAnalyzer

/-- `struct delivered_key`. -/
structure DeliveredKey where
  socketCookie : BitVec 64
  srcIp4 : BitVec 32
  dstIp4 : BitVec 32
  srcPort : BitVec 16
  dstPort : BitVec 16
  family : BitVec 8
  ipProto : BitVec 8
  deriving DecidableEq, Repr

/-- `struct delivered_value`. -/
structure DeliveredValue where
  packets : BitVec 64
  bytes : BitVec 64
  socketInode : BitVec 64
  ifindex : BitVec 32
  deriving DecidableEq, Repr

/-! ### The parsers -/

/-- The first bytes of a printed structure, unpacked; `size` is the one the message is
about. -/
def unpackStruct {α : Type} (name : String) (size : ℕ) (format : List ℕ)
    (ofFields : List ℕ → Except PyExc α) (raw : Json) : Except PyExc α := do
  let structBytes ← rawBytes raw
  if structBytes.length < size then
    .error (.runtimeError s!"unexpected {name} size from bpftool: {structBytes.length}")
  else ofFields (unpackLE format (structBytes.take size))

/-- `<BBHH2xIII`. -/
def udpKeyFormat : List ℕ := [1, 1, 2, 2, 2, 4, 4, 4]

/-- The unpacked fields of a key; the fifth is padding. -/
def UdpMapKey.ofFields : List ℕ → Except PyExc UdpMapKey
  | [family, ipProto, srcPort, dstPort, _, ifindex, srcIp4, dstIp4] =>
    .ok ⟨family, ipProto, srcPort, dstPort, ifindex, srcIp4, dstIp4⟩
  | _ => .error .structError

/-- `parse_bpftool_key`. -/
def parseBpftoolKey : Json → Except PyExc UdpMapKey
  | .obj members => do
    let family ← Json.intMember members "family"
    let ipProto ← Json.intMember members "ip_proto"
    let srcPort ← Json.intMember members "src_port"
    let dstPort ← Json.intMember members "dst_port"
    let ifindex ← Json.intMember members "ifindex"
    let srcIp4 ← Json.intMember members "src_ip4"
    let dstIp4 ← Json.intMember members "dst_ip4"
    return { family, ipProto, srcPort, dstPort, ifindex, srcIp4, dstIp4 }
  | rawKey => unpackStruct "udp_key" 20 udpKeyFormat UdpMapKey.ofFields rawKey

/-- `<QQ`. -/
def udpCountersFormat : List ℕ := [8, 8]

def UdpMapCounters.ofFields : List ℕ → Except PyExc UdpMapCounters
  | [packets, bytes] => .ok ⟨packets, bytes⟩
  | _ => .error .structError

/-- `parse_bpftool_counters` of a single record. -/
def parseUdpRecord : Json → Except PyExc UdpMapCounters
  | .obj members => do
    let packets ← Json.intMember members "packets"
    let bytes ← Json.intMember members "bytes"
    return { packets, bytes }
  | value => unpackStruct "udp_counters" 16 udpCountersFormat UdpMapCounters.ofFields value

/-- `parse_bpftool_counters`. -/
def parseBpftoolCounters (value values : Json) : Except PyExc UdpMapCounters :=
  match values with
  | .null => parseUdpRecord value
  | values => do
    let cpuValues ← values.iterate
    cpuValues.foldlM (fun acc cpuValue => do
      let value ← cpuValue.getMember "value"
      let parsed ← parseUdpRecord value
      return acc.add parsed) ⟨0, 0⟩

/-- `parse_bpftool_entry`. -/
def parseBpftoolEntry (entry : Json) : Except PyExc UdpMapEntry := do
  let rawKey ← entry.getMember "key"
  let key ← parseBpftoolKey rawKey
  let value ← entry.getMember "value"
  let values ← entry.getMember "values"
  let counters ← parseBpftoolCounters value values
  return ⟨key, counters⟩

/-- `<QIIHHBB2x`. -/
def deliveredKeyFormat : List ℕ := [8, 4, 4, 2, 2, 1, 1, 2]

/-- The unpacked fields of a key; the last is padding. -/
def DeliveredMapKey.ofFields : List ℕ → Except PyExc DeliveredMapKey
  | [socketCookie, srcIp4, dstIp4, srcPort, dstPort, family, ipProto, _] =>
    .ok ⟨socketCookie, srcIp4, dstIp4, srcPort, dstPort, family, ipProto⟩
  | _ => .error .structError

/-- `parse_bpftool_delivered_key`. -/
def parseBpftoolDeliveredKey : Json → Except PyExc DeliveredMapKey
  | .obj members => do
    let socketCookie ← Json.intMember members "socket_cookie"
    let srcIp4 ← Json.intMember members "src_ip4"
    let dstIp4 ← Json.intMember members "dst_ip4"
    let srcPort ← Json.intMember members "src_port"
    let dstPort ← Json.intMember members "dst_port"
    let family ← Json.intMember members "family"
    let ipProto ← Json.intMember members "ip_proto"
    return { socketCookie, srcIp4, dstIp4, srcPort, dstPort, family, ipProto }
  | rawKey => unpackStruct "delivered_key" 24 deliveredKeyFormat DeliveredMapKey.ofFields rawKey

/-- `<QQQI4x`. -/
def deliveredValueFormat : List ℕ := [8, 8, 8, 4, 4]

/-- The unpacked fields of a value; the last is padding. -/
def DeliveredMapValue.ofFields : List ℕ → Except PyExc DeliveredMapValue
  | [packets, bytes, socketInode, ifindex, _] => .ok ⟨packets, bytes, socketInode, ifindex⟩
  | _ => .error .structError

/-- `parse_bpftool_delivered_value` of a single record. -/
def parseDeliveredRecord : Json → Except PyExc DeliveredMapValue
  | .obj members => do
    let packets ← Json.intMember members "packets"
    let bytes ← Json.intMember members "bytes"
    let socketInode ← Json.intMemberOrZero members "socket_inode"
    let ifindex ← Json.intMemberOrZero members "ifindex"
    return { packets, bytes, socketInode, ifindex }
  | value => unpackStruct "delivered_value" 32 deliveredValueFormat DeliveredMapValue.ofFields value

/-- One more record of an entry: the counters are added, and of the socket and the interface
the first that is not zero stays. -/
def DeliveredMapValue.merge (acc parsed : DeliveredMapValue) : DeliveredMapValue where
  packets := acc.packets + parsed.packets
  bytes := acc.bytes + parsed.bytes
  socketInode := if acc.socketInode ≠ 0 then acc.socketInode else parsed.socketInode
  ifindex := if acc.ifindex ≠ 0 then acc.ifindex else parsed.ifindex

/-- `parse_bpftool_delivered_value`. -/
def parseBpftoolDeliveredValue (value values : Json) : Except PyExc DeliveredMapValue :=
  match values with
  | .null => parseDeliveredRecord value
  | values => do
    let cpuValues ← values.iterate
    cpuValues.foldlM (fun acc cpuValue => do
      let value ← cpuValue.getMember "value"
      let parsed ← parseDeliveredRecord value
      return acc.merge parsed) ⟨0, 0, 0, 0⟩

/-- `parse_bpftool_delivered_entry`. -/
def parseBpftoolDeliveredEntry (entry : Json) : Except PyExc DeliveredMapEntry := do
  let rawKey ← entry.getMember "key"
  let key ← parseBpftoolDeliveredKey rawKey
  let value ← entry.getMember "value"
  let values ← entry.getMember "values"
  let value ← parseBpftoolDeliveredValue value values
  return ⟨key, value⟩

/-! ### The layout of the kernel's structures -/

def UdpKey.members (k : UdpKey) : List Member :=
  [⟨"family", 1, k.family.toNat⟩, ⟨"ip_proto", 1, k.ipProto.toNat⟩,
    ⟨"src_port", 2, k.srcPort.toNat⟩, ⟨"dst_port", 2, k.dstPort.toNat⟩,
    ⟨"ifindex", 4, k.ifindex.toNat⟩, ⟨"src_ip4", 4, k.srcIp4.toNat⟩, ⟨"dst_ip4", 4, k.dstIp4.toNat⟩]

def UdpCounters.members (c : UdpCounters) : List Member :=
  [⟨"packets", 8, c.packets.toNat⟩, ⟨"bytes", 8, c.bytes.toNat⟩]

def DeliveredKey.members (k : DeliveredKey) (pad : BitVec 16) : List Member :=
  [⟨"socket_cookie", 8, k.socketCookie.toNat⟩, ⟨"src_ip4", 4, k.srcIp4.toNat⟩,
    ⟨"dst_ip4", 4, k.dstIp4.toNat⟩, ⟨"src_port", 2, k.srcPort.toNat⟩,
    ⟨"dst_port", 2, k.dstPort.toNat⟩, ⟨"family", 1, k.family.toNat⟩,
    ⟨"ip_proto", 1, k.ipProto.toNat⟩, ⟨"pad", 2, pad.toNat⟩]

def DeliveredValue.members (v : DeliveredValue) (pad : BitVec 32) : List Member :=
  [⟨"packets", 8, v.packets.toNat⟩, ⟨"bytes", 8, v.bytes.toNat⟩,
    ⟨"socket_inode", 8, v.socketInode.toNat⟩, ⟨"ifindex", 4, v.ifindex.toNat⟩,
    ⟨"pad", 4, pad.toNat⟩]

/-- The fields of a key as the collector sees them. -/
def UdpKey.decode (k : UdpKey) : UdpMapKey where
  family := k.family.toNat
  ipProto := k.ipProto.toNat
  srcPort := k.srcPort.toNat
  dstPort := k.dstPort.toNat
  ifindex := k.ifindex.toNat
  srcIp4 := k.srcIp4.toNat
  dstIp4 := k.dstIp4.toNat

def UdpCounters.decode (c : UdpCounters) : UdpMapCounters := ⟨c.packets.toNat, c.bytes.toNat⟩

def DeliveredKey.decode (k : DeliveredKey) : DeliveredMapKey where
  socketCookie := k.socketCookie.toNat
  srcIp4 := k.srcIp4.toNat
  dstIp4 := k.dstIp4.toNat
  srcPort := k.srcPort.toNat
  dstPort := k.dstPort.toNat
  family := k.family.toNat
  ipProto := k.ipProto.toNat

def DeliveredValue.decode (v : DeliveredValue) : DeliveredMapValue where
  packets := v.packets.toNat
  bytes := v.bytes.toNat
  socketInode := v.socketInode.toNat
  ifindex := v.ifindex.toNat

/-! ### Reading structures back -/

theorem unpackStruct_image {α : Type} {members : List Member} {format : List ℕ} {size : ℕ}
    (hfit : ∀ m ∈ members, m.value < 256 ^ m.width) (hsize : format.sum = size)
    (garbage : ℕ → UInt8) (hformat : (recordOf garbage members).map Prod.fst = format)
    (name : String) (ofFields : List ℕ → Except PyExc α) {extra : Bytes} {parts : List Json}
    (hparts : List.Forall₂ PrintsByte (image garbage members ++ extra) parts) :
    unpackStruct name size format ofFields (.arr parts) =
      ofFields ((recordOf garbage members).map Prod.snd) := by
  obtain ⟨hlength, hread⟩ := unpackLE_take_image hfit hformat extra
  rw [hsize] at hlength hread
  rw [unpackStruct, rawBytes_printed hparts, ok_bind, if_neg hlength, hread]

/-- The two bytes behind the ports are a hole. -/
theorem UdpKey.recordOf_members (k : UdpKey) (garbage : ℕ → UInt8) :
    recordOf garbage k.members =
      [(1, k.family.toNat), (1, k.ipProto.toNat), (2, k.srcPort.toNat), (2, k.dstPort.toNat),
        (2, leNat (hole garbage 6 2)), (4, k.ifindex.toNat), (4, k.srcIp4.toNat),
        (4, k.dstIp4.toNat)] := by
  simp [recordOf, paddedFrom, structAlign, holeBefore, members]

theorem UdpKey.members_fit (k : UdpKey) : ∀ m ∈ k.members, m.value < 256 ^ m.width := by
  have h := k.family.isLt
  have h₁ := k.ipProto.isLt
  have h₂ := k.srcPort.isLt
  have h₃ := k.dstPort.isLt
  have h₄ := k.ifindex.isLt
  have h₅ := k.srcIp4.isLt
  have h₆ := k.dstIp4.isLt
  simp only [members, List.forall_mem_cons]
  refine ⟨h, h₁, h₂, h₃, h₄, h₅, h₆, ?_⟩
  exact fun p hp => absurd hp List.not_mem_nil

theorem parseBpftoolKey_presented (k : UdpKey) {raw : Json} (h : Presents k.members raw) :
    parseBpftoolKey raw = .ok k.decode := by
  cases h with
  | bytes garbage extra parts hparts =>
    have hrecord := k.recordOf_members garbage
    have hformat : (recordOf garbage k.members).map Prod.fst = udpKeyFormat := by
      rw [hrecord]
      rfl
    refine (unpackStruct_image k.members_fit rfl garbage hformat "udp_key" _ hparts).trans ?_
    rw [hrecord]
    rfl
  | dict object hobject =>
    have hmember := intMember_dict hobject
    simp [UdpKey.members] at hmember
    simp only [parseBpftoolKey, hmember, ok_bind]
    rfl

theorem UdpCounters.recordOf_members (c : UdpCounters) (garbage : ℕ → UInt8) :
    recordOf garbage c.members = c.members.map fun m => (m.width, m.value) := by
  simp [recordOf, paddedFrom, structAlign, holeBefore, members]

theorem UdpCounters.members_fit (c : UdpCounters) : ∀ m ∈ c.members, m.value < 256 ^ m.width := by
  have h := c.packets.isLt
  have h₁ := c.bytes.isLt
  simp only [members, List.forall_mem_cons]
  refine ⟨h, h₁, ?_⟩
  exact fun p hp => absurd hp List.not_mem_nil

theorem parseBpftoolCounters_presented (c : UdpCounters) {raw : Json}
    (h : Presents c.members raw) : parseBpftoolCounters raw .null = .ok c.decode := by
  show parseUdpRecord raw = _
  cases h with
  | bytes garbage extra parts hparts =>
    have hrecord := c.recordOf_members garbage
    have hformat : (recordOf garbage c.members).map Prod.fst = udpCountersFormat := by
      rw [hrecord]
      rfl
    refine (unpackStruct_image c.members_fit rfl garbage hformat "udp_counters" _ hparts).trans ?_
    rw [hrecord]
    rfl
  | dict object hobject =>
    have hmember := intMember_dict hobject
    simp [UdpCounters.members] at hmember
    simp only [parseUdpRecord, hmember, ok_bind]
    rfl

theorem DeliveredKey.recordOf_members (k : DeliveredKey) (pad : BitVec 16) (garbage : ℕ → UInt8) :
    recordOf garbage (k.members pad) = (k.members pad).map fun m => (m.width, m.value) := by
  simp [recordOf, paddedFrom, structAlign, holeBefore, members]

theorem DeliveredKey.members_fit (k : DeliveredKey) (pad : BitVec 16) :
    ∀ m ∈ k.members pad, m.value < 256 ^ m.width := by
  have h := k.socketCookie.isLt
  have h₁ := k.srcIp4.isLt
  have h₂ := k.dstIp4.isLt
  have h₃ := k.srcPort.isLt
  have h₄ := k.dstPort.isLt
  have h₅ := k.family.isLt
  have h₆ := k.ipProto.isLt
  have h₇ := pad.isLt
  simp only [members, List.forall_mem_cons]
  refine ⟨h, h₁, h₂, h₃, h₄, h₅, h₆, h₇, ?_⟩
  exact fun p hp => absurd hp List.not_mem_nil

theorem parseBpftoolDeliveredKey_presented (k : DeliveredKey) {pad : BitVec 16} {raw : Json}
    (h : Presents (k.members pad) raw) : parseBpftoolDeliveredKey raw = .ok k.decode := by
  cases h with
  | bytes garbage extra parts hparts =>
    have hrecord := k.recordOf_members pad garbage
    have hformat : (recordOf garbage (k.members pad)).map Prod.fst = deliveredKeyFormat := by
      rw [hrecord]
      rfl
    refine (unpackStruct_image (k.members_fit pad) rfl garbage hformat "delivered_key" _
      hparts).trans ?_
    rw [hrecord]
    rfl
  | dict object hobject =>
    have hmember := intMember_dict hobject
    simp [DeliveredKey.members] at hmember
    simp only [parseBpftoolDeliveredKey, hmember, ok_bind]
    rfl

theorem DeliveredValue.recordOf_members (v : DeliveredValue) (pad : BitVec 32)
    (garbage : ℕ → UInt8) :
    recordOf garbage (v.members pad) = (v.members pad).map fun m => (m.width, m.value) := by
  simp [recordOf, paddedFrom, structAlign, holeBefore, members]

theorem DeliveredValue.members_fit (v : DeliveredValue) (pad : BitVec 32) :
    ∀ m ∈ v.members pad, m.value < 256 ^ m.width := by
  have h := v.packets.isLt
  have h₁ := v.bytes.isLt
  have h₂ := v.socketInode.isLt
  have h₃ := v.ifindex.isLt
  have h₄ := pad.isLt
  simp only [members, List.forall_mem_cons]
  refine ⟨h, h₁, h₂, h₃, h₄, ?_⟩
  exact fun p hp => absurd hp List.not_mem_nil

theorem parseBpftoolDeliveredValue_presented (v : DeliveredValue) {pad : BitVec 32} {raw : Json}
    (h : Presents (v.members pad) raw) : parseBpftoolDeliveredValue raw .null = .ok v.decode := by
  show parseDeliveredRecord raw = _
  cases h with
  | bytes garbage extra parts hparts =>
    have hrecord := v.recordOf_members pad garbage
    have hformat : (recordOf garbage (v.members pad)).map Prod.fst = deliveredValueFormat := by
      rw [hrecord]
      rfl
    refine (unpackStruct_image (v.members_fit pad) rfl garbage hformat "delivered_value" _
      hparts).trans ?_
    rw [hrecord]
    rfl
  | dict object hobject =>
    have hmember := intMember_dict hobject
    have hzero := intMemberOrZero_dict hobject
    simp [DeliveredValue.members] at hmember hzero
    simp only [parseDeliveredRecord, hmember, hzero, ok_bind]
    rfl

/-! ### Identities -/

theorem UdpKey.identity_decode_injective :
    Function.Injective fun k : UdpKey => k.decode.identity := by
  intro a b h
  simp only [UdpMapKey.identity, decode, Prod.mk.injEq, Int.natCast_inj, BitVec.toNat_inj] at h
  obtain ⟨h₁, h₂, h₃, h₄, h₅, h₆, h₇⟩ := h
  cases a
  cases b
  simp_all only

theorem DeliveredKey.identity_decode_injective :
    Function.Injective fun k : DeliveredKey => k.decode.identity := by
  intro a b h
  simp only [DeliveredMapKey.identity, decode, Prod.mk.injEq, Int.natCast_inj,
    BitVec.toNat_inj] at h
  obtain ⟨h₁, h₂, h₃, h₄, h₅, h₆, h₇⟩ := h
  cases a
  cases b
  simp_all only

end UdpAnalyzer

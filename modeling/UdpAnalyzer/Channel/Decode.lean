import Mathlib.Algebra.BigOperators.Fin
import UdpAnalyzer.Channel.Kernel
import UdpAnalyzer.Decode

/-! Reading the dump of a flow map (`parse_tcp_flow_entry` and its copy in
`udp_channel.py`). A dump entry carries the key and one record for each CPU, each
as the bytes of the C structure; the records of an entry are merged into one. The
second half of the module is the other direction, the layout of the kernel's
structures and the way `bpftool` prints them, and the two are inverse. -/

namespace UdpAnalyzer

/-- What the two parsers do not share. -/
structure FlowDecoder where
  /-- `TCP` or `UDP`. -/
  label : String
  /-- `tcp_flow` or `udp_flow`. -/
  struct : String
  ipProto : ℤ

def tcpDecoder : FlowDecoder := ⟨"TCP", "tcp_flow", 6⟩

def udpDecoder : FlowDecoder := ⟨"UDP", "udp_flow", 17⟩

/-- `validate_tcp_flow_key`, `validate_udp_flow_key`. -/
def FlowDecoder.validateKey (d : FlowDecoder) (key : FlowKey) : Except PyExc Unit :=
  if key.socketCookie ≤ 0 then
    .error (.runtimeError (d.label ++ " channel map contains a zero socket cookie"))
  else if key.family ≠ 2 ∨ key.ipProto ≠ d.ipProto then
    .error (.runtimeError (d.label ++ " channel map contains a non-IPv4-" ++ d.label ++
      s!" key: family={key.family} protocol={key.ipProto}"))
  else .ok ()

/-- `<QIIHHBB2xQ`. -/
def flowKeyFormat : List ℕ := [8, 4, 4, 2, 2, 1, 1, 2, 8]

/-- `<QQQQQQQIIII`. -/
def flowValueFormat : List ℕ := [8, 8, 8, 8, 8, 8, 8, 4, 4, 4, 4]

/-- The unpacked fields of a key; the eighth is padding. -/
def FlowKey.ofFields : List ℕ → Except PyExc FlowKey
  | [socketCookie, srcIp4, dstIp4, srcPort, dstPort, family, ipProto, _, cgroupId] =>
    .ok ⟨socketCookie, srcIp4, dstIp4, srcPort, dstPort, family, ipProto, cgroupId⟩
  | _ => .error .structError

/-- The unpacked fields of a record; the last is padding. -/
def FlowValue.ofFields : List ℕ → Except PyExc FlowValue
  | [txBytes, rxBytes, txCalls, rxCalls, connections, startNs, lastNs, pid, ifindex, state, _] =>
    .ok ⟨txBytes, rxBytes, txCalls, rxCalls, connections, startNs, lastNs, pid, ifindex, state⟩
  | _ => .error .structError

namespace FlowDecoder

def keyOfBytes (d : FlowDecoder) (keyBytes : Bytes) : Except PyExc FlowKey :=
  if keyBytes.length < 32 then
    .error (.runtimeError s!"unexpected {d.struct}_key size from bpftool: {keyBytes.length}")
  else FlowKey.ofFields (unpackLE flowKeyFormat (keyBytes.take 32))

def recordOfBytes (d : FlowDecoder) (valueBytes : Bytes) : Except PyExc FlowValue :=
  if valueBytes.length < 72 then
    .error (.runtimeError s!"unexpected {d.struct}_value size from bpftool: {valueBytes.length}")
  else FlowValue.ofFields (unpackLE flowValueFormat (valueBytes.take 72))

/-- The key in an object or in the first 32 bytes. -/
def readKey (d : FlowDecoder) : Json → Except PyExc FlowKey
  | .obj members => do
    let socketCookie ← Json.intMember members "socket_cookie"
    let srcIp4 ← Json.intMember members "src_ip4"
    let dstIp4 ← Json.intMember members "dst_ip4"
    let srcPort ← Json.intMember members "src_port"
    let dstPort ← Json.intMember members "dst_port"
    let family ← Json.intMember members "family"
    let ipProto ← Json.intMember members "ip_proto"
    let cgroupId ← Json.intMember members "cgroup_id"
    return { socketCookie, srcIp4, dstIp4, srcPort, dstPort, family, ipProto, cgroupId }
  | rawKey => rawBytes rawKey >>= d.keyOfBytes

/-- `parse_tcp_flow_key`, `parse_udp_flow_key`. -/
def parseKey (d : FlowDecoder) (rawKey : Json) : Except PyExc FlowKey := do
  let key ← d.readKey rawKey
  d.validateKey key
  return key

/-- `parse_tcp_flow_value` of a single record. -/
def parseRecord (d : FlowDecoder) : Json → Except PyExc FlowValue
  | .obj members => do
    let txBytes ← Json.intMember members "tx_bytes"
    let rxBytes ← Json.intMember members "rx_bytes"
    let txCalls ← Json.intMember members "tx_calls"
    let rxCalls ← Json.intMember members "rx_calls"
    let connections ← Json.intMemberOrZero members "connections"
    let startNs ← Json.intMemberOrZero members "start_ns"
    let lastNs ← Json.intMemberOrZero members "last_ns"
    let pid ← Json.intMemberOrZero members "pid"
    let ifindex ← Json.intMemberOrZero members "ifindex"
    let state ← Json.intMemberOrZero members "state"
    return { txBytes, rxBytes, txCalls, rxCalls, connections, startNs, lastNs, pid, ifindex, state }
  | value => rawBytes value >>= d.recordOfBytes

end FlowDecoder

/-- `min_nonzero`. -/
def minNonzero (left right : ℤ) : ℤ :=
  if left = 0 then right else if right = 0 then left else min left right

/-- `left or right`. -/
def orNonzero (left right : ℤ) : ℤ := if left ≠ 0 then left else right

/-- One more record of an entry. -/
def FlowValue.merge (acc parsed : FlowValue) : FlowValue where
  txBytes := acc.txBytes + parsed.txBytes
  rxBytes := acc.rxBytes + parsed.rxBytes
  txCalls := acc.txCalls + parsed.txCalls
  rxCalls := acc.rxCalls + parsed.rxCalls
  connections := acc.connections + parsed.connections
  startNs := minNonzero acc.startNs parsed.startNs
  lastNs := max acc.lastNs parsed.lastNs
  pid := orNonzero acc.pid parsed.pid
  ifindex := orNonzero acc.ifindex parsed.ifindex
  state := orNonzero acc.state parsed.state

def FlowValue.zero : FlowValue := ⟨0, 0, 0, 0, 0, 0, 0, 0, 0, 0⟩

namespace FlowDecoder

/-- `parse_tcp_flow_value`, `parse_udp_flow_value`. -/
def parseValue (d : FlowDecoder) (value values : Json) : Except PyExc FlowValue :=
  match values with
  | .null => d.parseRecord value
  | values => do
    let cpuValues ← values.iterate
    cpuValues.foldlM (fun acc cpuValue => do
      let value ← cpuValue.getMember "value"
      let parsed ← d.parseRecord value
      return acc.merge parsed) FlowValue.zero

/-- `parse_tcp_flow_entry`, `parse_udp_flow_entry`. -/
def parseEntry (d : FlowDecoder) (entry : Json) : Except PyExc FlowEntry := do
  let rawKey ← entry.getMember "key"
  let key ← d.parseKey rawKey
  let value ← entry.getMember "value"
  let values ← entry.getMember "values"
  let value ← d.parseValue value values
  return ⟨key, value⟩

/-- `dump_entries` of the map readers, on what `run_json` returned or raised. -/
def dumpEntries (d : FlowDecoder) (raw : Except PyExc Json) : Except PyExc (List FlowEntry) := do
  let rawEntries ← raw
  match rawEntries with
  | .null => return []
  | rawEntries => do
    let entries ← rawEntries.iterate
    entries.mapM d.parseEntry

end FlowDecoder

/-! ### The layout of the kernel's structures -/

def ChannelKey.fields (k : ChannelKey) : List (ℕ × ℕ) :=
  [(8, k.socketCookie.toNat), (4, k.srcIp4.toNat), (4, k.dstIp4.toNat), (2, k.srcPort.toNat),
    (2, k.dstPort.toNat), (1, k.family.toNat), (1, k.ipProto.toNat), (2, 0), (8, k.cgroupId.toNat)]

def ChannelValue.fields (v : ChannelValue) : List (ℕ × ℕ) :=
  [(8, v.txBytes.toNat), (8, v.rxBytes.toNat), (8, v.txCalls.toNat), (8, v.rxCalls.toNat),
    (8, v.connections.toNat), (8, v.startNs.toNat), (8, v.lastNs.toNat), (4, v.pid.toNat),
    (4, v.ifindex.toNat), (4, v.state.toNat), (4, 0)]

/-- `struct tcp_channel_key`, `struct udp_channel_key`. -/
def ChannelKey.members (k : ChannelKey) (pad : BitVec 16) : List Member :=
  [⟨"socket_cookie", 8, k.socketCookie.toNat⟩, ⟨"src_ip4", 4, k.srcIp4.toNat⟩,
    ⟨"dst_ip4", 4, k.dstIp4.toNat⟩, ⟨"src_port", 2, k.srcPort.toNat⟩,
    ⟨"dst_port", 2, k.dstPort.toNat⟩, ⟨"family", 1, k.family.toNat⟩,
    ⟨"ip_proto", 1, k.ipProto.toNat⟩, ⟨"pad", 2, pad.toNat⟩, ⟨"cgroup_id", 8, k.cgroupId.toNat⟩]

/-- `struct tcp_channel_value`, `struct udp_channel_value`. -/
def ChannelValue.members (v : ChannelValue) (pad : BitVec 32) : List Member :=
  [⟨"tx_bytes", 8, v.txBytes.toNat⟩, ⟨"rx_bytes", 8, v.rxBytes.toNat⟩,
    ⟨"tx_calls", 8, v.txCalls.toNat⟩, ⟨"rx_calls", 8, v.rxCalls.toNat⟩,
    ⟨"connections", 8, v.connections.toNat⟩, ⟨"start_ns", 8, v.startNs.toNat⟩,
    ⟨"last_ns", 8, v.lastNs.toNat⟩, ⟨"pid", 4, v.pid.toNat⟩, ⟨"ifindex", 4, v.ifindex.toNat⟩,
    ⟨"state", 4, v.state.toNat⟩, ⟨"pad", 4, pad.toNat⟩]

/-- The fields of a key as the collectors see them. -/
def ChannelKey.decode (k : ChannelKey) : FlowKey where
  socketCookie := k.socketCookie.toNat
  srcIp4 := k.srcIp4.toNat
  dstIp4 := k.dstIp4.toNat
  srcPort := k.srcPort.toNat
  dstPort := k.dstPort.toNat
  family := k.family.toNat
  ipProto := k.ipProto.toNat
  cgroupId := k.cgroupId.toNat

def ChannelValue.decode (v : ChannelValue) : FlowValue where
  txBytes := v.txBytes.toNat
  rxBytes := v.rxBytes.toNat
  txCalls := v.txCalls.toNat
  rxCalls := v.rxCalls.toNat
  connections := v.connections.toNat
  startNs := v.startNs.toNat
  lastNs := v.lastNs.toNat
  pid := v.pid.toNat
  ifindex := v.ifindex.toNat
  state := v.state.toNat

/-- An entry as `bpftool -j map dump` prints it, with the record of every CPU. -/
def bpftoolEntry {n : ℕ} (entry : ChannelKey × (Fin n → ChannelValue)) : Json :=
  .obj [("key".toList, hexList (packLE entry.1.fields)),
    ("values".toList, .arr (List.ofFn fun cpu => .obj [("cpu".toList, .int cpu.val),
      ("value".toList, hexList (packLE (entry.2 cpu).fields))]))]

/-- The record an entry is merged into. -/
def mergedValue {n : ℕ} (slots : Fin n → ChannelValue) : FlowValue :=
  (List.ofFn fun cpu => (slots cpu).decode).foldl FlowValue.merge FlowValue.zero

/-- The records of an entry merged in some order of the CPUs. -/
def mergedIn {n : ℕ} (slots : Fin n → ChannelValue) (order : List (Fin n)) : FlowValue :=
  (order.map fun cpu => (slots cpu).decode).foldl FlowValue.merge FlowValue.zero

/-- The records of an entry as `bpftool` prints them, in some order of the CPUs. -/
def printedValues {n : ℕ} (slots : Fin n → ChannelValue) (order : List (Fin n)) : Json :=
  .arr (order.map fun cpu => .obj [("cpu".toList, .int cpu.val),
    ("value".toList, hexList (packLE (slots cpu).fields))])

/-- An entry of the map as the parser reads it. -/
def decodedEntry {n : ℕ} (entry : ChannelKey × (Fin n → ChannelValue)) : FlowEntry :=
  ⟨entry.1.decode, mergedValue entry.2⟩

theorem ChannelKey.decode_injective : Function.Injective ChannelKey.decode := by
  intro a b h
  simp only [decode, FlowKey.mk.injEq, Int.natCast_inj, BitVec.toNat_inj] at h
  obtain ⟨h₁, h₂, h₃, h₄, h₅, h₆, h₇, h₈⟩ := h
  cases a
  cases b
  simp_all only

theorem identity_decode_injective :
    Function.Injective fun key : ChannelKey => key.decode.identity :=
  FlowKey.identity_injective.comp ChannelKey.decode_injective

/-- The members of the two structures leave no hole. -/
theorem ChannelKey.recordOf_members (k : ChannelKey) (pad : BitVec 16) (garbage : ℕ → UInt8) :
    recordOf garbage (k.members pad) = (k.members pad).map fun m => (m.width, m.value) := by
  simp [recordOf, paddedFrom, structAlign, holeBefore, members]

theorem ChannelValue.recordOf_members (v : ChannelValue) (pad : BitVec 32) (garbage : ℕ → UInt8) :
    recordOf garbage (v.members pad) = (v.members pad).map fun m => (m.width, m.value) := by
  simp [recordOf, paddedFrom, structAlign, holeBefore, members]

theorem ChannelKey.members_fit (k : ChannelKey) (pad : BitVec 16) :
    ∀ m ∈ k.members pad, m.value < 256 ^ m.width := by
  have h := k.socketCookie.isLt
  have h₁ := k.srcIp4.isLt
  have h₂ := k.dstIp4.isLt
  have h₃ := k.srcPort.isLt
  have h₄ := k.dstPort.isLt
  have h₅ := k.family.isLt
  have h₆ := k.ipProto.isLt
  have h₇ := pad.isLt
  have h₈ := k.cgroupId.isLt
  simp only [members, List.forall_mem_cons]
  refine ⟨h, h₁, h₂, h₃, h₄, h₅, h₆, h₇, h₈, ?_⟩
  exact fun p hp => absurd hp List.not_mem_nil

theorem ChannelValue.members_fit (v : ChannelValue) (pad : BitVec 32) :
    ∀ m ∈ v.members pad, m.value < 256 ^ m.width := by
  have h := v.txBytes.isLt
  have h₁ := v.rxBytes.isLt
  have h₂ := v.txCalls.isLt
  have h₃ := v.rxCalls.isLt
  have h₄ := v.connections.isLt
  have h₅ := v.startNs.isLt
  have h₆ := v.lastNs.isLt
  have h₇ := v.pid.isLt
  have h₈ := v.ifindex.isLt
  have h₉ := v.state.isLt
  have h₁₀ := pad.isLt
  simp only [members, List.forall_mem_cons]
  refine ⟨h, h₁, h₂, h₃, h₄, h₅, h₆, h₇, h₈, h₉, h₁₀, ?_⟩
  exact fun p hp => absurd hp List.not_mem_nil

namespace FlowDecoder

variable (d : FlowDecoder)

/-- The bytes of a key, whatever is in its padding and behind it. -/
theorem keyOfBytes_image (k : ChannelKey) (pad : BitVec 16) (garbage : ℕ → UInt8) (extra : Bytes) :
    d.keyOfBytes (image garbage (k.members pad) ++ extra) = .ok k.decode := by
  have hrecord := k.recordOf_members pad garbage
  have hformat : (recordOf garbage (k.members pad)).map Prod.fst = flowKeyFormat := by
    rw [hrecord]
    rfl
  obtain ⟨hlength, hread⟩ := unpackLE_take_image (k.members_fit pad) hformat extra
  have hsum : flowKeyFormat.sum = 32 := rfl
  rw [hsum] at hlength hread
  rw [keyOfBytes, if_neg hlength, hread, hrecord]
  rfl

theorem recordOfBytes_image (v : ChannelValue) (pad : BitVec 32) (garbage : ℕ → UInt8)
    (extra : Bytes) :
    d.recordOfBytes (image garbage (v.members pad) ++ extra) = .ok v.decode := by
  have hrecord := v.recordOf_members pad garbage
  have hformat : (recordOf garbage (v.members pad)).map Prod.fst = flowValueFormat := by
    rw [hrecord]
    rfl
  obtain ⟨hlength, hread⟩ := unpackLE_take_image (v.members_fit pad) hformat extra
  have hsum : flowValueFormat.sum = 72 := rfl
  rw [hsum] at hlength hread
  rw [recordOfBytes, if_neg hlength, hread, hrecord]
  rfl

theorem keyOfBytes_layout (k : ChannelKey) : d.keyOfBytes (packLE k.fields) = .ok k.decode := by
  have himage := d.keyOfBytes_image k 0 (fun _ => 0) []
  rwa [List.append_nil, image_eq_packLE, k.recordOf_members] at himage

theorem recordOfBytes_layout (v : ChannelValue) :
    d.recordOfBytes (packLE v.fields) = .ok v.decode := by
  have himage := d.recordOfBytes_image v 0 (fun _ => 0) []
  rwa [List.append_nil, image_eq_packLE, v.recordOf_members] at himage

/-- The single-record parser on a printed record. -/
theorem parseRecord_layout (v : ChannelValue) :
    d.parseRecord (hexList (packLE v.fields)) = .ok v.decode := by
  show rawBytes (hexList (packLE v.fields)) >>= d.recordOfBytes = _
  rw [rawBytes_hexList, ok_bind, recordOfBytes_layout]

/-- A key the programs build: the socket has a cookie and the protocol is the one
the parser expects. -/
structure Accepts (k : ChannelKey) : Prop where
  cookie : k.socketCookie ≠ 0
  family : k.family = 2
  ipProto : (k.ipProto.toNat : ℤ) = d.ipProto

theorem validateKey_decode {d : FlowDecoder} {k : ChannelKey} (h : d.Accepts k) :
    d.validateKey k.decode = .ok () := by
  have hcookie : 0 < k.socketCookie.toNat := Nat.pos_of_ne_zero fun h0 =>
    h.cookie (BitVec.eq_of_toNat_eq h0)
  have hpos : ¬ k.decode.socketCookie ≤ 0 := by
    show ¬ (k.socketCookie.toNat : ℤ) ≤ 0
    omega
  have hfamily : k.decode.family = 2 := by
    show (k.family.toNat : ℤ) = 2
    rw [h.family]
    rfl
  have hproto : k.decode.ipProto = d.ipProto := h.ipProto
  rw [validateKey, if_neg hpos, if_neg (by rw [hfamily, hproto]; simp)]

/-- A key that is not accepted raises. -/
theorem validateKey_error {d : FlowDecoder} {k : ChannelKey} (h : ¬ d.Accepts k) :
    ∃ message, d.validateKey k.decode = .error (.runtimeError message) := by
  unfold validateKey
  by_cases hcookie : k.decode.socketCookie ≤ 0
  · rw [if_pos hcookie]
    exact ⟨_, rfl⟩
  · rw [if_neg hcookie]
    by_cases hother : k.decode.family ≠ 2 ∨ k.decode.ipProto ≠ d.ipProto
    · rw [if_pos hother]
      exact ⟨_, rfl⟩
    · rw [not_or, not_not, not_not] at hother
      refine absurd ⟨?_, ?_, hother.2⟩ h
      · intro hzero
        apply hcookie
        show (k.socketCookie.toNat : ℤ) ≤ 0
        rw [hzero]
        decide
      · have hfamily : (k.family.toNat : ℤ) = 2 := hother.1
        apply BitVec.eq_of_toNat_eq
        show k.family.toNat = 2
        omega

theorem parseKey_layout {d : FlowDecoder} {k : ChannelKey} (h : d.Accepts k) :
    d.parseKey (hexList (packLE k.fields)) = .ok k.decode := by
  have hread : d.readKey (hexList (packLE k.fields)) = .ok k.decode := by
    show rawBytes (hexList (packLE k.fields)) >>= d.keyOfBytes = _
    rw [rawBytes_hexList, ok_bind, keyOfBytes_layout]
  rw [parseKey, hread, ok_bind, validateKey_decode h]
  rfl

theorem readKey_presented (k : ChannelKey) {pad : BitVec 16} {raw : Json}
    (h : Presents (k.members pad) raw) : d.readKey raw = .ok k.decode := by
  cases h with
  | bytes garbage extra parts hparts =>
    show rawBytes (.arr parts) >>= d.keyOfBytes = _
    rw [rawBytes_printed hparts, ok_bind, keyOfBytes_image]
  | dict object hobject =>
    have hmember := intMember_dict hobject
    simp [ChannelKey.members] at hmember
    simp only [readKey, hmember, ok_bind]
    rfl

/-- A presented key is returned if it is accepted, and otherwise the parser raises. -/
theorem parseKey_presented (k : ChannelKey) {pad : BitVec 16} {raw : Json}
    (h : Presents (k.members pad) raw) :
    (d.Accepts k → d.parseKey raw = .ok k.decode) ∧
      (¬ d.Accepts k → ∃ message, d.parseKey raw = .error (.runtimeError message)) := by
  unfold parseKey
  rw [d.readKey_presented k h, ok_bind]
  constructor
  · intro haccepts
    rw [validateKey_decode haccepts]
    rfl
  · intro hrejects
    obtain ⟨message, hmessage⟩ := validateKey_error hrejects
    rw [hmessage]
    exact ⟨message, rfl⟩

theorem parseValue_presented (v : ChannelValue) {pad : BitVec 32} {raw : Json}
    (h : Presents (v.members pad) raw) : d.parseValue raw .null = .ok v.decode := by
  show d.parseRecord raw = _
  cases h with
  | bytes garbage extra parts hparts =>
    show rawBytes (.arr parts) >>= d.recordOfBytes = _
    rw [rawBytes_printed hparts, ok_bind, recordOfBytes_image]
  | dict object hobject =>
    have hmember := intMember_dict hobject
    have hzero := intMemberOrZero_dict hobject
    simp [ChannelValue.members] at hmember hzero
    simp only [parseRecord, hmember, hzero, ok_bind]
    rfl

/-- Merging the printed records, in the order they are printed in. -/
theorem parseValue_printed {n : ℕ} (slots : Fin n → ChannelValue) (order : List (Fin n)) :
    d.parseValue .null (printedValues slots order) = .ok (mergedIn slots order) := by
  have hfold : ∀ (cpus : List (Fin n)) (acc : FlowValue),
      (cpus.map fun cpu : Fin n => Json.obj [("cpu".toList, .int cpu.val),
        ("value".toList, hexList (packLE (slots cpu).fields))]).foldlM (fun acc cpuValue => do
          let value ← cpuValue.getMember "value"
          let parsed ← d.parseRecord value
          return acc.merge parsed) acc =
        Except.ok ((cpus.map fun cpu => (slots cpu).decode).foldl FlowValue.merge acc) := by
    intro cpus
    induction cpus with
    | nil => exact fun acc => rfl
    | cons cpu rest ih =>
      intro acc
      have hmember : (Json.obj [("cpu".toList, .int cpu.val),
          ("value".toList, hexList (packLE (slots cpu).fields))]).getMember "value" =
            .ok (hexList (packLE (slots cpu).fields)) := rfl
      rw [List.map_cons, List.foldlM_cons, hmember, ok_bind, parseRecord_layout, ok_bind]
      exact ih _
  exact hfold order FlowValue.zero

theorem parseValue_layout {n : ℕ} (slots : Fin n → ChannelValue) :
    d.parseValue .null (.arr (List.ofFn fun cpu : Fin n => .obj [("cpu".toList, .int cpu.val),
      ("value".toList, hexList (packLE (slots cpu).fields))])) = .ok (mergedValue slots) := by
  rw [List.ofFn_eq_map, mergedValue, List.ofFn_eq_map]
  exact d.parseValue_printed slots (List.finRange n)

theorem parseEntry_layout {d : FlowDecoder} {n : ℕ} {entry : ChannelKey × (Fin n → ChannelValue)}
    (h : d.Accepts entry.1) : d.parseEntry (bpftoolEntry entry) = .ok (decodedEntry entry) := by
  have hkey : (bpftoolEntry entry).getMember "key" = .ok (hexList (packLE entry.1.fields)) := rfl
  have hvalue : (bpftoolEntry entry).getMember "value" = .ok .null := rfl
  have hvalues : (bpftoolEntry entry).getMember "values" = .ok (.arr (List.ofFn fun cpu : Fin n =>
      .obj [("cpu".toList, .int cpu.val),
        ("value".toList, hexList (packLE (entry.2 cpu).fields))])) := rfl
  rw [parseEntry, hkey, ok_bind, parseKey_layout h, ok_bind, hvalue, ok_bind, hvalues, ok_bind,
    parseValue_layout, ok_bind]
  rfl

/-- Reading a printed map gives its entries in the printed order. -/
theorem dumpEntries_layout {d : FlowDecoder} {n : ℕ}
    {entries : List (ChannelKey × (Fin n → ChannelValue))} (h : ∀ e ∈ entries, d.Accepts e.1) :
    d.dumpEntries (.ok (.arr (entries.map bpftoolEntry))) = .ok (entries.map decodedEntry) := by
  show (entries.map bpftoolEntry).mapM d.parseEntry = _
  induction entries with
  | nil => rfl
  | cons e rest ih =>
    rw [List.map_cons, List.mapM_cons, parseEntry_layout (h e List.mem_cons_self), ok_bind,
      ih fun e' he' => h e' (List.mem_cons_of_mem _ he')]
    rfl

end FlowDecoder

/-! ### The merged counters -/

theorem counters_foldl_merge (f : FlowField) (values : List FlowValue) (acc : FlowValue) :
    FlowCounters.field f (values.foldl FlowValue.merge acc).counters =
      FlowCounters.field f acc.counters +
        (values.map fun v => FlowCounters.field f v.counters).sum := by
  induction values generalizing acc with
  | nil => exact (add_zero _).symm
  | cons v rest ih =>
    have hmerge : FlowCounters.field f (acc.merge v).counters =
        FlowCounters.field f acc.counters + FlowCounters.field f v.counters := by
      cases f <;> rfl
    rw [List.foldl_cons, ih, hmerge, List.map_cons, List.sum_cons, add_assoc]

/-- Merging adds the counters of the slots. -/
theorem field_mergedValue {n : ℕ} (slots : Fin n → ChannelValue) (f : FlowField) :
    FlowCounters.field f (mergedValue slots).counters =
      ∑ cpu, (((slots cpu).counter f).toNat : ℤ) := by
  have hzero : FlowCounters.field f FlowValue.zero.counters = 0 := by cases f <;> rfl
  have hslot : ∀ v : ChannelValue, FlowCounters.field f v.decode.counters = ((v.counter f).toNat : ℤ) :=
    fun v => by cases f <;> rfl
  rw [mergedValue, counters_foldl_merge, hzero, zero_add, List.map_ofFn, List.sum_ofFn]
  exact Finset.sum_congr rfl fun cpu _ => hslot _

end UdpAnalyzer

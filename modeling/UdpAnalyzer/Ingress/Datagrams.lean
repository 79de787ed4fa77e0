import UdpAnalyzer.Ingress.Kernel

/-! Which frames are counted, and as what. The program asks for 82 linear bytes, those of the
longest headers, so that a frame that is shorter is not looked at; and it takes the place
of the ports and the number of bytes from fields the sender of the frame has written. -/

namespace UdpAnalyzer

/-! ### Reading the headers -/

theorem ofNat_eq_iff {w : ℕ} {x y : ℕ} (hx : x < 2 ^ w) (hy : y < 2 ^ w) :
    BitVec.ofNat w x = BitVec.ofNat w y ↔ x = y := by
  constructor
  · intro h
    have hnat := congrArg BitVec.toNat h
    rwa [BitVec.toNat_ofNat, BitVec.toNat_ofNat, Nat.mod_eq_of_lt hx, Nat.mod_eq_of_lt hy] at hnat
  · rintro rfl
    rfl

/-- The outcome of the headers of a frame of which some bytes are linear. -/
def Frame.outcome (frame : Frame) (linear : ℕ) : Except DropReason (UdpKey × BitVec 64) :=
  if linear < 14 then .error .ethBounds
  else if frame.etherType ≠ 0x0800 then .error .notIp
  else if linear < 34 then .error .ipBounds
  else if frame.protocol ≠ 17 then .error .notUdp
  else if frame.ihl < 5 then .error .ihlShort
  else if linear < frame.transport + 8 then .error .udpBounds
  else .ok (frame.ownKey, payloadBytes (BitVec.ofNat 16 frame.udpLength))

/-- The program reads the headers without a load outside the linear bytes. -/
theorem parseUdp4_eq {frame : Frame} {linear : ℕ} (h : linear ≤ frame.bytes.length) :
    parseUdp4 frame.ifindex (frame.bytes.take linear) = some (frame.outcome linear) := by
  unfold parseUdp4 Frame.outcome
  rw [length_take_of_le h]
  by_cases heth : linear < 14
  · rw [if_pos (show ethHeaderBytes > linear from heth), if_pos heth]
  rw [if_neg (show ¬ ethHeaderBytes > linear from heth), if_neg heth]
  obtain ⟨rawProto, hrawProto, hproto⟩ := load16_take (show 12 + 2 ≤ linear by omega) h
  have hether : ntohs rawProto ≠ 0x0800 ↔ frame.etherType ≠ 0x0800 := by
    rw [hproto]
    exact not_congr (ofNat_eq_iff (be16At_lt _ _) (by decide))
  rw [hrawProto]
  simp only [Option.bind_eq_bind, Option.bind_some, hether]
  by_cases hip : frame.etherType ≠ 0x0800
  · rw [if_pos hip, if_pos hip]
  rw [if_neg hip, if_neg hip]
  by_cases hipBounds : linear < 34
  · rw [if_pos (show ethHeaderBytes + ipHeaderBytes > linear from hipBounds), if_pos hipBounds]
  rw [if_neg (show ¬ ethHeaderBytes + ipHeaderBytes > linear from hipBounds), if_neg hipBounds,
    load8_take (show ethHeaderBytes + 9 + 1 ≤ linear by unfold ethHeaderBytes; omega) h]
  have hprotocol : BitVec.ofNat 8 (byteAt frame.bytes (ethHeaderBytes + 9)) ≠ 17 ↔
      frame.protocol ≠ 17 := not_congr (ofNat_eq_iff (byteAt_lt _ _) (by decide))
  simp only [Option.bind_some, hprotocol]
  by_cases hudp : frame.protocol ≠ 17
  · rw [if_pos hudp, if_pos hudp]
  rw [if_neg hudp, if_neg hudp,
    load8_take (show ethHeaderBytes + 1 ≤ linear by unfold ethHeaderBytes; omega) h]
  have hihl : (BitVec.ofNat 8 (byteAt frame.bytes ethHeaderBytes) &&& 0x0F).toNat = frame.ihl := by
    have hmask : byteAt frame.bytes ethHeaderBytes &&& 15 = byteAt frame.bytes ethHeaderBytes % 16 :=
      Nat.and_two_pow_sub_one_eq_mod _ 4
    rw [BitVec.toNat_and, BitVec.toNat_ofNat, Nat.mod_eq_of_lt (byteAt_lt _ _)]
    exact hmask
  simp only [Option.bind_some, hihl]
  by_cases hshort : frame.ihl < 5
  · rw [if_pos (show frame.ihl * 4 < ipHeaderBytes by unfold ipHeaderBytes; omega), if_pos hshort]
  rw [if_neg (show ¬ frame.ihl * 4 < ipHeaderBytes by unfold ipHeaderBytes; omega), if_neg hshort]
  have htransport : ethHeaderBytes + frame.ihl * 4 = frame.transport := by
    unfold Frame.transport ethHeaderBytes
    omega
  rw [htransport]
  by_cases hbounds : linear < frame.transport + 8
  · rw [if_pos (show frame.transport + udpHeaderBytes > linear from hbounds), if_pos hbounds]
  rw [if_neg (show ¬ frame.transport + udpHeaderBytes > linear from hbounds), if_neg hbounds]
  obtain ⟨rawLen, hrawLen, hlen⟩ := load16_take (show frame.transport + 4 + 2 ≤ linear by omega) h
  obtain ⟨rawSource, hrawSource, hsource⟩ :=
    load16_take (show frame.transport + 2 ≤ linear by omega) h
  obtain ⟨rawDest, hrawDest, hdest⟩ := load16_take (show frame.transport + 2 + 2 ≤ linear by omega) h
  rw [hrawLen, hrawSource, hrawDest,
    load32_take (show ethHeaderBytes + 12 + 4 ≤ linear by unfold ethHeaderBytes; omega) h,
    load32_take (show ethHeaderBytes + 16 + 4 ≤ linear by unfold ethHeaderBytes; omega) h]
  simp only [Option.bind_some, hlen, hsource, hdest]
  rfl

/-! ### Counting -/

section
variable {n : ℕ}

/-- The counters of a flow on a CPU, zero where it is not in the map. -/
def IngressMaps.counter (maps : IngressMaps n) (key : UdpKey) (cpu : Fin n) : UdpCounters :=
  maps.counters.slot {} key cpu

/-- The map a frame is counted in: the one there is, or the one with the key inserted. -/
def Arrival.prepared (a : Arrival n) (key : UdpKey) (maps : IngressMaps n) :
    PerCpuMap n UdpKey UdpCounters :=
  if (maps.counters.lookupElem a.cpu key).isNone then
    maps.counters.updateNoExist a.room a.cpu key {} {}
  else maps.counters

theorem slot_prepared (a : Arrival n) (key : UdpKey) (maps : IngressMaps n) (k : UdpKey)
    (c : Fin n) : (a.prepared key maps).slot {} k c = maps.counter k c := by
  unfold Arrival.prepared
  split_ifs
  · exact PerCpuMap.slot_updateNoExist _ _ _ _ _ _ _
  · rfl

theorem total_prepared {M : Type} [AddCommMonoid M] (f : UdpCounters → M) (hzero : f {} = 0)
    (a : Arrival n) (key : UdpKey) (maps : IngressMaps n) :
    (a.prepared key maps).total f = maps.counters.total f := by
  unfold Arrival.prepared
  split_ifs
  · exact PerCpuMap.total_updateNoExist f _ _ _ _ hzero
  · rfl

/-- The key is there after the first lookup and the insertion if it was there before, or if
there was room. -/
theorem lookupElem_prepared (a : Arrival n) (key : UdpKey) (maps : IngressMaps n) :
    (a.prepared key maps).lookupElem a.cpu key =
      if key ∈ maps.counters ∨ a.room = true then some (maps.counter key a.cpu) else none := by
  unfold Arrival.prepared IngressMaps.counter PerCpuMap.slot
  cases hget : maps.counters.get? key with
  | some slots =>
    have hmem : key ∈ maps.counters := Dict.get?_isSome.mp (by rw [hget]; rfl)
    rw [PerCpuMap.lookupElem_of_get? hget, Option.isNone_some, if_neg Bool.false_ne_true,
      if_pos (.inl hmem)]
    exact PerCpuMap.lookupElem_of_get? hget a.cpu
  | none =>
    have hmem : key ∉ maps.counters := Dict.get?_eq_none.mp hget
    rw [PerCpuMap.lookupElem_of_missing hget, Option.isNone_none, if_pos rfl]
    cases hroom : a.room with
    | true =>
      rw [if_pos (.inr rfl), PerCpuMap.lookupElem_of_get? (PerCpuMap.get?_updateNoExist hget _ _ _),
        Function.update_self]
      rfl
    | false =>
      have hnone : ¬ (key ∈ maps.counters ∨ false = true) := by
        rw [not_or]
        exact ⟨hmem, by decide⟩
      rw [PerCpuMap.updateNoExist_of_full, PerCpuMap.lookupElem_of_missing hget, if_neg hnone]

theorem countUdp4_eq (a : Arrival n) (key : UdpKey) (payload : BitVec 64) (maps : IngressMaps n) :
    countUdp4 a key payload maps =
      if key ∈ maps.counters ∨ a.room = true then
        let value := (maps.counter key a.cpu).count payload
        { maps with counters := (a.prepared key maps).writeSlot a.cpu key value }
      else IngressMaps.drop { maps with counters := a.prepared key maps } a.cpu .mapFull := by
  have hlookup := lookupElem_prepared a key maps
  unfold Arrival.prepared at hlookup ⊢
  unfold countUdp4
  dsimp only
  rw [hlookup]
  by_cases hroom : key ∈ maps.counters ∨ a.room = true
  · rw [if_pos hroom, if_pos hroom]
  · rw [if_neg hroom, if_neg hroom]

/-- What handling a frame does to the maps: count it under its own key, or count the reason
for which it is not. -/
def IngressMaps.handle (maps : IngressMaps n) (a : Arrival n) : IngressMaps n :=
  match a.pulled with
  | none => maps.drop a.cpu .pullFail
  | some linear =>
    match a.frame.outcome linear with
    | .error reason => maps.drop a.cpu reason
    | .ok (key, payload) => countUdp4 a key payload maps

/-- The program never loads outside `[data, data_end)`. -/
theorem udpIngress_eq (maps : IngressMaps n) (a : Arrival n) :
    udpIngress maps a = some (maps.handle a) := by
  unfold udpIngress IngressMaps.handle
  cases hpulled : a.pulled with
  | none => rfl
  | some linear =>
    dsimp only
    unfold accountUdp4
    rw [parseUdp4_eq (a.pulled_le linear hpulled)]
    cases a.frame.outcome linear <;> rfl

theorem ingressRun_eq (arrivals : List (Arrival n)) :
    ingressRun arrivals = some (arrivals.foldl IngressMaps.handle {}) := by
  unfold ingressRun
  generalize ({} : IngressMaps n) = maps
  induction arrivals generalizing maps with
  | nil => rfl
  | cons a rest ih =>
    rw [List.foldlM_cons, udpIngress_eq]
    exact ih _

/-- A counted frame changes the counters of its key on its CPU only. -/
theorem counter_countUdp4 {a : Arrival n} {key : UdpKey} {maps : IngressMaps n}
    (h : key ∈ maps.counters ∨ a.room = true) (payload : BitVec 64) (k : UdpKey) (c : Fin n) :
    (countUdp4 a key payload maps).counter k c =
      if k = key ∧ c = a.cpu then (maps.counter key a.cpu).count payload else maps.counter k c := by
  have hlookup := lookupElem_prepared a key maps
  rw [if_pos h] at hlookup
  rw [countUdp4_eq, if_pos h]
  show ((a.prepared key maps).writeSlot a.cpu key _).slot {} k c = _
  rw [PerCpuMap.slot_writeSlot hlookup, slot_prepared]

end

/-! ### Completeness -/

/-- An unfragmented UDP datagram over IPv4 whose headers are valid and in the frame. -/
structure Frame.IsDatagram (frame : Frame) : Prop where
  etherType : frame.etherType = 0x0800
  version : frame.version = 4
  ihl : 5 ≤ frame.ihl
  moreFragments : frame.moreFragments = false
  fragmentOffset : frame.fragmentOffset = 0
  protocol : frame.protocol = 17
  header : frame.transport + 8 ≤ frame.bytes.length
  udpLength : 8 ≤ frame.udpLength

section
variable {n : ℕ}

/-- `bpf_skb_pull_data` fails exactly when the frame is shorter than what is asked for, and
otherwise makes that many bytes linear. -/
structure Arrival.PullsAsDocumented (a : Arrival n) : Prop where
  fails_iff : a.pulled = none ↔ a.frame.bytes.length < udpHeadersBytes
  linear : ∀ linear ∈ a.pulled, udpHeadersBytes ≤ linear

/-- Handling the frame adds one packet and the payload by the length field to the entry of
the frame's own key, and nothing to another one. -/
def CountsOwn (maps : IngressMaps n) (a : Arrival n) : Prop :=
  ∃ maps', udpIngress maps a = some maps' ∧ ∀ key cpu, maps'.counter key cpu =
    if key = a.frame.ownKey ∧ cpu = a.cpu then
      (maps.counter key cpu).count (BitVec.ofNat 64 (a.frame.udpLength - 8))
    else maps.counter key cpu

/-- The payload by the length field, none where the field is too small. -/
theorem payloadBytes_udpLength (frame : Frame) :
    payloadBytes (BitVec.ofNat 16 frame.udpLength) = BitVec.ofNat 64 (frame.udpLength - 8) := by
  have hlt : frame.udpLength < 2 ^ 16 := be16At_lt _ _
  have hlen : (BitVec.ofNat 16 frame.udpLength).toNat = frame.udpLength := by
    rw [BitVec.toNat_ofNat, Nat.mod_eq_of_lt hlt]
  have hheader : udpHeaderBytes = 8 := rfl
  have height : (8 : BitVec 64).toNat = 8 := rfl
  unfold payloadBytes
  rw [hlen, hheader]
  apply BitVec.eq_of_toNat_eq
  split_ifs with hvalid
  · rw [BitVec.toNat_sub, BitVec.toNat_setWidth, hlen, BitVec.toNat_ofNat, height]
    omega
  · rw [BitVec.toNat_ofNat, show frame.udpLength - 8 = 0 by omega]
    rfl

/-- The longest headers are 82 bytes. -/
theorem transport_le (frame : Frame) : frame.transport + 8 ≤ udpHeadersBytes := by
  have hihl : frame.ihl < 16 := Nat.mod_lt _ (by decide)
  unfold Frame.transport udpHeadersBytes ethHeaderBytes udpHeaderBytes
  omega

/-- A datagram is counted exactly when its frame has as many bytes as the program asks for. -/
theorem countsOwn_iff {maps : IngressMaps n} {a : Arrival n} (hpull : a.PullsAsDocumented)
    (hroom : a.room = true) (hframe : a.frame.IsDatagram) :
    CountsOwn maps a ↔ udpHeadersBytes ≤ a.frame.bytes.length := by
  unfold CountsOwn
  simp only [udpIngress_eq, Option.some.injEq, exists_eq_left']
  constructor
  · intro hcounts
    by_contra hshort
    have hnone : a.pulled = none := hpull.fails_iff.mpr (by omega)
    have hown := hcounts a.frame.ownKey a.cpu
    have hsame : (maps.handle a).counter = maps.counter := by
      unfold IngressMaps.handle
      rw [hnone]
      rfl
    rw [hsame, if_pos ⟨rfl, rfl⟩] at hown
    have hpackets := congrArg UdpCounters.packets hown
    simp [UdpCounters.count] at hpackets
  · intro hlong key cpu
    have hsome : a.pulled ≠ none := fun hnone => by
      have hshort := hpull.fails_iff.mp hnone
      omega
    obtain ⟨linear, hlinear⟩ := Option.ne_none_iff_exists'.mp hsome
    have hbytes := hpull.linear linear hlinear
    have htransport := transport_le a.frame
    have hmin : 34 ≤ udpHeadersBytes := by decide
    have houtcome : a.frame.outcome linear =
        .ok (a.frame.ownKey, BitVec.ofNat 64 (a.frame.udpLength - 8)) := by
      have hihl := hframe.ihl
      unfold Frame.outcome
      rw [if_neg (by omega), if_neg (not_not.mpr hframe.etherType), if_neg (by omega),
        if_neg (not_not.mpr hframe.protocol), if_neg (by omega), if_neg (by omega),
        payloadBytes_udpLength]
    unfold IngressMaps.handle
    rw [hlinear]
    dsimp only
    rw [houtcome]
    dsimp only
    rw [counter_countUdp4 (.inr hroom)]
    split_ifs with hown
    · rw [hown.1, hown.2]
    · rfl

/-- For every sequence of frames, with pulls as documented and room in the map: every
datagram adds itself to the entry of its own key and to no other exactly when every
datagram comes in a frame of at least 82 bytes. -/
theorem datagrams_counted_iff (arrivals : List (Arrival n))
    (hkernel : ∀ a ∈ arrivals, a.PullsAsDocumented ∧ a.room = true) :
    (∀ before a after, arrivals = before ++ a :: after → a.frame.IsDatagram →
      ∃ maps, ingressRun before = some maps ∧ CountsOwn maps a) ↔
    ∀ a ∈ arrivals, a.frame.IsDatagram → udpHeadersBytes ≤ a.frame.bytes.length := by
  constructor
  · intro hall a ha hframe
    obtain ⟨before, after, rfl⟩ := List.append_of_mem ha
    obtain ⟨maps, -, hcounts⟩ := hall before a after rfl hframe
    obtain ⟨hpull, hroom⟩ := hkernel a ha
    exact (countsOwn_iff hpull hroom hframe).mp hcounts
  · rintro hlong before a after rfl hframe
    have ha : a ∈ before ++ a :: after := List.mem_append_right _ List.mem_cons_self
    obtain ⟨hpull, hroom⟩ := hkernel a ha
    exact ⟨_, ingressRun_eq before, (countsOwn_iff hpull hroom hframe).mpr (hlong a ha hframe)⟩

end

/-! Frames of one flow, without IP options. -/

/-- A frame with a fragment offset, a UDP length field and a number of payload bytes. -/
def flowFrame (offset udpLen payload : ℕ) : Frame where
  bytes := List.replicate 12 0 ++ [8, 0] ++
    [0x45, 0, 0, 0, 0, 0, UInt8.ofNat (offset / 256), UInt8.ofNat (offset % 256), 64, 17, 0, 0] ++
    [192, 0, 2, 10, 198, 51, 100, 20] ++
    [0x9C, 0x40, 0x13, 0x88, UInt8.ofNat (udpLen / 256), UInt8.ofNat (udpLen % 256), 0, 0] ++
    List.replicate payload 0
  ifindex := 2

/-- The frame arrives at a machine with one CPU, and the kernel does what it is asked. -/
def flowArrival (frame : Frame) : Arrival 1 where
  frame := frame
  cpu := 0
  pulled := if udpHeadersBytes ≤ frame.bytes.length then some frame.bytes.length else none
  pulled_le := by
    intro linear hlinear
    split_ifs at hlinear
    · exact (Option.some.inj hlinear).ge
    · cases hlinear
  room := true

theorem flowArrival_pulls (frame : Frame) : (flowArrival frame).PullsAsDocumented where
  fails_iff := by
    show (if udpHeadersBytes ≤ frame.bytes.length then _ else _) = none ↔ _
    split_ifs with hlong
    · exact ⟨fun h => (by cases h), fun h => absurd hlong (not_le.mpr h)⟩
    · exact ⟨fun _ => not_le.mp hlong, fun _ => rfl⟩
  linear := by
    intro linear hlinear
    change linear ∈ (if udpHeadersBytes ≤ frame.bytes.length then _ else _) at hlinear
    split_ifs at hlinear with hlong
    · exact hlong.trans (Option.some.inj hlinear).le
    · cases hlinear

theorem datagrams_counted_iff_long :
    ∃ maps, ingressRun [] = some maps ∧ CountsOwn maps (flowArrival (flowFrame 0 48 40)) := by
  have hiff := datagrams_counted_iff [flowArrival (flowFrame 0 48 40)] fun a ha => by
    rcases List.mem_singleton.mp ha with rfl
    exact ⟨flowArrival_pulls _, rfl⟩
  refine hiff.mpr (fun a ha _ => ?_) [] _ [] rfl ?_
  · rcases List.mem_singleton.mp ha with rfl
    decide +kernel
  · exact ⟨by decide +kernel, by decide +kernel, by decide +kernel, by decide +kernel,
      by decide +kernel, by decide +kernel, by decide +kernel, by decide +kernel⟩

/-- A datagram of 20 bytes comes in a frame of 62, and is not counted. -/
theorem short_datagram_not_counted :
    (flowFrame 0 28 20).IsDatagram ∧ (flowArrival (flowFrame 0 28 20)).PullsAsDocumented ∧
      ∃ maps, ingressRun [] = some maps ∧ ¬ CountsOwn maps (flowArrival (flowFrame 0 28 20)) := by
  have hdatagram : (flowFrame 0 28 20).IsDatagram :=
    ⟨by decide +kernel, by decide +kernel, by decide +kernel, by decide +kernel,
      by decide +kernel, by decide +kernel, by decide +kernel, by decide +kernel⟩
  refine ⟨hdatagram, flowArrival_pulls _, _, ingressRun_eq [], fun hcounts => ?_⟩
  have hlong := (countsOwn_iff (flowArrival_pulls _) rfl hdatagram).mp hcounts
  revert hlong
  decide +kernel

/-! ### Soundness -/

/-- There is a UDP header behind the IP header: the frame is IPv4, its protocol is UDP, and
it is not a later fragment. -/
structure Frame.CarriesUdp (frame : Frame) : Prop where
  etherType : frame.etherType = 0x0800
  version : frame.version = 4
  ihl : 5 ≤ frame.ihl
  protocol : frame.protocol = 17
  fragmentOffset : frame.fragmentOffset = 0
  header : frame.transport + 8 ≤ frame.bytes.length

/-- The number of bytes behind the UDP header. -/
def Frame.following (frame : Frame) : ℕ := frame.bytes.length - (frame.transport + 8)

section
variable {n : ℕ}

/-- If handling the frame changes an entry, the frame carries a UDP header, the entry is the
one of its own key, and no more bytes are added than there are. -/
def SoundlyCounted (maps : IngressMaps n) (a : Arrival n) : Prop :=
  ∀ maps', udpIngress maps a = some maps' →
    (∃ key cpu, maps'.counter key cpu ≠ maps.counter key cpu) →
    a.frame.CarriesUdp ∧ ∃ added : BitVec 64, added.toNat ≤ a.frame.following ∧
      ∀ key cpu, maps'.counter key cpu =
        if key = a.frame.ownKey ∧ cpu = a.cpu then (maps.counter key cpu).count added
        else maps.counter key cpu

/-- The headers pass the checks of the program. -/
structure Arrival.Passes (a : Arrival n) (linear : ℕ) : Prop where
  pulled : a.pulled = some linear
  etherType : a.frame.etherType = 0x0800
  ipHeader : 34 ≤ linear
  protocol : a.frame.protocol = 17
  ihl : 5 ≤ a.frame.ihl
  header : a.frame.transport + 8 ≤ linear

theorem outcome_ok_iff {frame : Frame} {linear : ℕ} {key : UdpKey} {payload : BitVec 64} :
    frame.outcome linear = .ok (key, payload) ↔
      (frame.etherType = 0x0800 ∧ 34 ≤ linear ∧ frame.protocol = 17 ∧ 5 ≤ frame.ihl ∧
        frame.transport + 8 ≤ linear) ∧
      key = frame.ownKey ∧ payload = BitVec.ofNat 64 (frame.udpLength - 8) := by
  unfold Frame.outcome
  rw [payloadBytes_udpLength]
  constructor
  · intro h
    split_ifs at h with heth hip hipBounds hudp hshort hbounds
    cases h
    exact ⟨⟨not_not.mp hip, by omega, not_not.mp hudp, by omega, by omega⟩, rfl, rfl⟩
  · rintro ⟨⟨hip, hipBounds, hudp, hihl, hbounds⟩, rfl, rfl⟩
    rw [if_neg (by omega), if_neg (not_not.mpr hip), if_neg (by omega), if_neg (not_not.mpr hudp),
      if_neg (by omega), if_neg (by omega)]

/-- A frame changes an entry only if its headers pass and its key is there or has room, and
then it is counted under its own key with the payload by its length field. -/
theorem counter_handle (maps : IngressMaps n) (a : Arrival n) :
    (∃ linear, a.Passes linear) ∧ (a.frame.ownKey ∈ maps.counters ∨ a.room = true) ∧
      (∀ key cpu, (maps.handle a).counter key cpu =
        if key = a.frame.ownKey ∧ cpu = a.cpu then
          (maps.counter key cpu).count (BitVec.ofNat 64 (a.frame.udpLength - 8))
        else maps.counter key cpu) ∨
    ¬ ((∃ linear, a.Passes linear) ∧ (a.frame.ownKey ∈ maps.counters ∨ a.room = true)) ∧
      (maps.handle a).counter = maps.counter := by
  unfold IngressMaps.handle
  cases hpulled : a.pulled with
  | none =>
    right
    refine ⟨fun h => ?_, rfl⟩
    obtain ⟨⟨linear, hpasses⟩, -⟩ := h
    rw [hpasses.pulled] at hpulled
    cases hpulled
  | some linear =>
    have hlinear : ∀ linear', a.Passes linear' → linear' = linear := by
      intro linear' hpasses
      rw [hpasses.pulled] at hpulled
      exact Option.some.inj hpulled
    dsimp only
    cases houtcome : a.frame.outcome linear with
    | error reason =>
      right
      refine ⟨fun h => ?_, rfl⟩
      obtain ⟨⟨linear', hpasses⟩, -⟩ := h
      obtain rfl := hlinear linear' hpasses
      have hok := outcome_ok_iff.mpr ⟨⟨hpasses.etherType, hpasses.ipHeader, hpasses.protocol,
        hpasses.ihl, hpasses.header⟩, rfl, rfl⟩
      rw [houtcome] at hok
      cases hok
    | ok counted =>
      obtain ⟨key, payload⟩ := counted
      obtain ⟨⟨hip, hipBounds, hudp, hihl, hbounds⟩, rfl, rfl⟩ := outcome_ok_iff.mp houtcome
      by_cases hroom : a.frame.ownKey ∈ maps.counters ∨ a.room = true
      · left
        refine ⟨⟨linear, hpulled, hip, hipBounds, hudp, hihl, hbounds⟩, hroom, fun key cpu => ?_⟩
        dsimp only
        rw [counter_countUdp4 hroom]
        split_ifs with hown
        · rw [hown.1, hown.2]
        · rfl
      · right
        refine ⟨fun h => hroom h.2, ?_⟩
        dsimp only
        rw [countUdp4_eq, if_neg hroom]
        funext key cpu
        exact slot_prepared a _ maps key cpu

/-- For every frame and every state of the maps: the count is sound exactly when a frame
whose headers pass, and whose key has an entry or room for one, is of version 4, is no
later fragment, and has a length field that does not go beyond the frame. -/
theorem soundly_counted_iff (maps : IngressMaps n) (a : Arrival n) :
    SoundlyCounted maps a ↔
      ∀ linear, a.Passes linear → a.frame.ownKey ∈ maps.counters ∨ a.room = true →
        a.frame.version = 4 ∧ a.frame.fragmentOffset = 0 ∧
          a.frame.udpLength ≤ a.frame.following + 8 := by
  have hlt : a.frame.udpLength < 2 ^ 16 := be16At_lt _ _
  have hpayload : (BitVec.ofNat 64 (a.frame.udpLength - 8)).toNat = a.frame.udpLength - 8 := by
    rw [BitVec.toNat_ofNat]
    omega
  unfold SoundlyCounted
  simp only [udpIngress_eq, Option.some.injEq, forall_eq']
  rcases counter_handle maps a with ⟨⟨linear, hpasses⟩, hroom, hcounter⟩ | ⟨hnot, hsame⟩
  · have hchanged : (maps.handle a).counter a.frame.ownKey a.cpu ≠
        maps.counter a.frame.ownKey a.cpu := by
      rw [hcounter, if_pos ⟨rfl, rfl⟩]
      intro hequal
      have hpackets := congrArg UdpCounters.packets hequal
      simp [UdpCounters.count] at hpackets
    constructor
    · intro hsound _ _ _
      obtain ⟨hcarries, added, hadded, hall⟩ := hsound ⟨_, _, hchanged⟩
      have hown := (hcounter a.frame.ownKey a.cpu).symm.trans (hall a.frame.ownKey a.cpu)
      rw [if_pos ⟨rfl, rfl⟩, if_pos ⟨rfl, rfl⟩] at hown
      have hbytes := congrArg UdpCounters.bytes hown
      have hsum : BitVec.ofNat 64 (a.frame.udpLength - 8) = added := by
        simpa [UdpCounters.count] using hbytes
      rw [← hsum, hpayload] at hadded
      exact ⟨hcarries.version, hcarries.fragmentOffset, by omega⟩
    · intro hcondition _
      obtain ⟨hversion, hfragment, hlength⟩ := hcondition linear hpasses hroom
      have hheader : a.frame.transport + 8 ≤ a.frame.bytes.length :=
        hpasses.header.trans (a.pulled_le linear hpasses.pulled)
      refine ⟨⟨hpasses.etherType, hversion, hpasses.ihl, hpasses.protocol, hfragment, hheader⟩, ?_⟩
      exact ⟨_, by omega, hcounter⟩
  · constructor
    · intro _ linear hpasses hroom
      exact absurd ⟨⟨linear, hpasses⟩, hroom⟩ hnot
    · rintro _ ⟨key, cpu, hchanged⟩
      rw [hsame] at hchanged
      exact absurd rfl hchanged

end

/-- A later fragment is counted under what its payload has in the place of ports, and a
datagram is counted with the bytes its length field claims. -/
theorem unsound_counts :
    ¬ SoundlyCounted {} (flowArrival (flowFrame 185 48 40)) ∧
      ¬ SoundlyCounted {} (flowArrival (flowFrame 0 0xFFFF 40)) := by
  constructor
  · intro hsound
    obtain ⟨hcarries, -⟩ := hsound _ (udpIngress_eq _ _)
      ⟨(flowFrame 185 48 40).ownKey, 0, by decide +kernel⟩
    have hoffset := hcarries.fragmentOffset
    revert hoffset
    decide +kernel
  · intro hsound
    obtain ⟨-, added, hadded, hall⟩ := hsound _ (udpIngress_eq _ _)
      ⟨(flowFrame 0 0xFFFF 40).ownKey, 0, by decide +kernel⟩
    have hcount := congrArg UdpCounters.bytes (hall (flowFrame 0 0xFFFF 40).ownKey 0)
    have hbytes : (IngressMaps.counter (IngressMaps.handle {} (flowArrival (flowFrame 0 0xFFFF 40)))
        (flowFrame 0 0xFFFF 40).ownKey 0).bytes = 65527 := by decide +kernel
    rw [hbytes, if_pos ⟨rfl, rfl⟩] at hcount
    have hadded' : added = 65527 := by
      rw [hcount]
      exact (BitVec.zero_add added).symm
    rw [hadded'] at hadded
    revert hadded
    decide +kernel

end UdpAnalyzer

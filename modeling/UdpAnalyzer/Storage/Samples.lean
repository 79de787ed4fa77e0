import UdpAnalyzer.DeltaLaw
import UdpAnalyzer.Ingress.Conservation
import UdpAnalyzer.Ingress.Decode
import UdpAnalyzer.Ingress.Rows
import UdpAnalyzer.Storage.Schema

/-! Which samples of the ingress collector can be stored. Ports, protocol and interface come
from the kernel's keys and have their widths; the time of a bucket, the cookie of a socket and
the counters may be wider than the columns. -/

namespace UdpAnalyzer

/-! ### Entries of the kernel's maps -/

/-- An entry of a per-CPU map as it is listed: its key and the record of every CPU. -/
structure Listing (keyMembers : List Member) (records : List (List Member)) (raw : Json) :
    Prop where
  key : ∃ rawKey, raw.getMember "key" = .ok rawKey ∧ Presents keyMembers rawKey
  values : ∃ cpuValues, raw.getMember "values" = .ok (.arr cpuValues) ∧
    List.Forall₂ (fun record cpuValue => ∃ value, Json.getMember cpuValue "value" = .ok value ∧
      Presents record value) records cpuValues

/-- The dumps of a checkpoint list entries of the kernel's maps. -/
structure FromKernel (input : IngressInput) : Prop where
  ingress : ∀ e ∈ listed input.ingressDump,
    ∃ (key : UdpKey) (counters : List UdpCounters) (raw : Json),
      Listing key.members (counters.map UdpCounters.members) raw ∧ parseBpftoolEntry raw = .ok e
  delivered : ∀ e ∈ listed input.deliveredDump,
    ∃ (key : DeliveredKey) (pad : BitVec 16) (values : List (DeliveredValue × BitVec 32))
      (raw : Json),
      Listing (key.members pad) (values.map fun v => v.1.members v.2) raw ∧
        parseBpftoolDeliveredEntry raw = .ok e

/-- The key of a listed entry is the key of the map. -/
theorem parseBpftoolEntry_key {key : UdpKey} {records : List (List Member)} {raw : Json}
    {e : UdpMapEntry} (hlisting : Listing key.members records raw)
    (h : parseBpftoolEntry raw = .ok e) : e.key = key.decode := by
  obtain ⟨rawKey, hkey, hpresents⟩ := hlisting.key
  rw [parseBpftoolEntry, hkey, ok_bind, parseBpftoolKey_presented key hpresents, ok_bind] at h
  obtain ⟨value, -, h⟩ := bind_eq_ok h
  obtain ⟨values, -, h⟩ := bind_eq_ok h
  obtain ⟨counters, -, h⟩ := bind_eq_ok h
  cases h
  rfl

/-- The record an entry is merged into. -/
def mergedDelivered (values : List DeliveredValue) : DeliveredMapValue :=
  (values.map DeliveredValue.decode).foldl DeliveredMapValue.merge ⟨0, 0, 0, 0⟩

theorem parseBpftoolDeliveredValue_listed {values : List (DeliveredValue × BitVec 32)}
    {cpuValues : List Json} (value : Json)
    (h : List.Forall₂ (fun record cpuValue => ∃ value, Json.getMember cpuValue "value" = .ok value ∧
      Presents record value) (values.map fun v => v.1.members v.2) cpuValues) :
    parseBpftoolDeliveredValue value (.arr cpuValues) =
      .ok (mergedDelivered (values.map Prod.fst)) := by
  have hfold : ∀ acc : DeliveredMapValue, cpuValues.foldlM (fun acc cpuValue => do
        let value ← Json.getMember cpuValue "value"
        let parsed ← parseDeliveredRecord value
        return acc.merge parsed) acc =
      Except.ok (((values.map Prod.fst).map DeliveredValue.decode).foldl
        DeliveredMapValue.merge acc) := by
    rw [List.forall₂_map_left_iff] at h
    induction h with
    | nil => exact fun acc => rfl
    | cons hrecord _ ih =>
      intro acc
      obtain ⟨value, hvalue, hpresents⟩ := hrecord
      have hparsed := parseBpftoolDeliveredValue_presented _ hpresents
      rw [List.foldlM_cons, hvalue, ok_bind]
      rw [show parseDeliveredRecord value = _ from hparsed, ok_bind]
      exact ih _
  exact hfold ⟨0, 0, 0, 0⟩

theorem parseBpftoolDeliveredEntry_listed {key : DeliveredKey} {pad : BitVec 16}
    {values : List (DeliveredValue × BitVec 32)} {raw : Json}
    (hlisting : Listing (key.members pad) (values.map fun v => v.1.members v.2) raw)
    {e : DeliveredMapEntry} (h : parseBpftoolDeliveredEntry raw = .ok e) :
    e = ⟨key.decode, mergedDelivered (values.map Prod.fst)⟩ := by
  obtain ⟨rawKey, hkey, hpresents⟩ := hlisting.key
  obtain ⟨cpuValues, hvalues, hrecords⟩ := hlisting.values
  rw [parseBpftoolDeliveredEntry, hkey, ok_bind, parseBpftoolDeliveredKey_presented key hpresents,
    ok_bind] at h
  obtain ⟨value, -, h⟩ := bind_eq_ok h
  rw [hvalues, ok_bind, parseBpftoolDeliveredValue_listed value hrecords] at h
  exact (Except.ok.inj h).symm

/-- The first interface that is not zero is the interface of some record. -/
theorem mergedDelivered_ifindex (values : List DeliveredValue) :
    ∃ ifindex : BitVec 32, (mergedDelivered values).ifindex = ifindex.toNat := by
  have hfold : ∀ acc : DeliveredMapValue, (∃ ifindex : BitVec 32, acc.ifindex = ifindex.toNat) →
      ∃ ifindex : BitVec 32, ((values.map DeliveredValue.decode).foldl
        DeliveredMapValue.merge acc).ifindex = ifindex.toNat := by
    induction values with
    | nil => exact fun acc hacc => hacc
    | cons v rest ih =>
      intro acc hacc
      apply ih
      by_cases hzero : acc.ifindex = 0
      · exact ⟨v.ifindex, by simp [DeliveredMapValue.merge, hzero, DeliveredValue.decode]⟩
      · obtain ⟨ifindex, hifindex⟩ := hacc
        exact ⟨ifindex, by simp [DeliveredMapValue.merge, hzero, ← hifindex]⟩
  exact hfold ⟨0, 0, 0, 0⟩ ⟨0, rfl⟩

/-! ### The fields of a row that come from its key -/

/-- The ports, the protocol and the interface of a row. -/
def UdpSample.wire (sample : UdpSample) : ℤ × ℤ × ℤ × ℤ :=
  (sample.srcPort, sample.dstPort, sample.ipProto, sample.ifindex)

/-- The widths of these fields in the kernel. -/
def UdpSample.WireWidths (sample : UdpSample) : Prop :=
  ∃ (srcPort dstPort : BitVec 16) (ipProto : BitVec 8) (ifindex : BitVec 32),
    sample.wire =
      ((srcPort.toNat : ℤ), (dstPort.toNat : ℤ), (ipProto.toNat : ℤ), (ifindex.toNat : ℤ))

theorem UdpSample.Gives.wire {sample row : UdpSample} (h : sample.Gives row) :
    row.wire = sample.wire := by
  rw [h]
  rfl

namespace EbpfIngressCollector

/-- The rows of an ingress entry have the ports, protocol and interface of its key. -/
def KeepsWire (e : UdpMapEntry) (_ : UdpMapCounters) (_ : UdpSample) (rows : List UdpSample) :
    Prop :=
  ∀ row ∈ rows, row.wire = (e.key.srcPort, e.key.dstPort, e.key.ipProto, e.key.ifindex)

/-- Those of a delivered entry have the interface of its record. -/
def KeepsDeliveredWire (e : DeliveredMapEntry) (_ : UdpMapCounters) (_ : UdpSample)
    (rows : List UdpSample) : Prop :=
  ∀ row ∈ rows, row.wire = (e.key.srcPort, e.key.dstPort, e.key.ipProto, e.value.ifindex)

theorem ingressSample_wire {input : IngressInput} {fallback : Str} {bucketNs elapsed : ℤ}
    {e : UdpMapEntry} {d : UdpMapCounters} {b : UdpSample}
    (h : ingressSample input fallback bucketNs elapsed e d = .ok b) :
    b.wire = (e.key.srcPort, e.key.dstPort, e.key.ipProto, e.key.ifindex) := by
  obtain ⟨srcIp, -, h⟩ := bind_eq_ok h
  obtain ⟨dstIp, -, h⟩ := bind_eq_ok h
  obtain ⟨ifname, -, h⟩ := bind_eq_ok h
  cases h
  rfl

theorem deliveredSample_wire {input : IngressInput} {fallback : Str} {bucketNs elapsed : ℤ}
    {e : DeliveredMapEntry} {d : UdpMapCounters} {b : UdpSample}
    (h : deliveredSample input fallback bucketNs elapsed e d = .ok b) :
    b.wire = (e.key.srcPort, e.key.dstPort, e.key.ipProto, e.value.ifindex) := by
  obtain ⟨srcIp, -, h⟩ := bind_eq_ok h
  obtain ⟨dstIp, -, h⟩ := bind_eq_ok h
  obtain ⟨ifname, -, h⟩ := bind_eq_ok h
  cases h
  rfl

theorem emitIngress_wire (c : EbpfIngressCollector) (input : IngressInput) (bucketNs elapsed : ℤ) :
    CounterLoop.EmitSpec (c.emitIngress input bucketNs elapsed) (fun _ => True) KeepsWire := by
  intro e d s b rows s' hs hemit
  obtain ⟨⟨hsample, hgives⟩, hs'⟩ :=
    emitIngress_gives c input bucketNs elapsed e d s b rows s' hs hemit
  exact ⟨fun row hrow => (hgives row hrow).wire.trans (ingressSample_wire hsample), hs'⟩

theorem emitDelivered_wire (c : EbpfIngressCollector) (input : IngressInput)
    (bucketNs elapsed : ℤ) :
    CounterLoop.EmitSpec (c.emitDelivered input bucketNs elapsed) (fun _ => True)
      KeepsDeliveredWire := by
  intro e d s b rows s' hs hemit
  obtain ⟨⟨hsample, hgives⟩, hs'⟩ :=
    emitDelivered_gives c input bucketNs elapsed e d s b rows s' hs hemit
  exact ⟨fun row hrow => (hgives row hrow).wire.trans (deliveredSample_wire hsample), hs'⟩

/-- The rows of a checkpoint over the kernel's maps have the widths of the kernel's fields. -/
theorem samples_wireWidths {c c' : EbpfIngressCollector} {input : IngressInput} {k : Checkpoint}
    (hkernel : FromKernel input) (h : c.readCheckpoint input = (.ok k, c')) {sample : UdpSample}
    (hmem : sample ∈ k.samples) : sample.WireWidths := by
  obtain ⟨c₁, n₁, n₂, hi, hd⟩ := readCheckpoint_passes h
  have hingress := (readIngress_completed (emitIngress_wire _ input _ _) hi).1
  obtain ⟨hnone, hsome, -⟩ := readDelivered_completed (emitDelivered_wire _ input _ _) hd
  rcases List.mem_append.mp hmem with hrow | hrow
  · obtain ⟨em, hem, hrow⟩ := List.mem_flatMap.mp hrow
    obtain ⟨e, d, he, -, -, hkeeps⟩ := hingress.built em hem
    obtain ⟨key, counters, raw, hlisting, hparse⟩ := hkernel.ingress e he
    have hkey := parseBpftoolEntry_key hlisting hparse
    have hwire := hkeeps sample hrow
    rw [hkey] at hwire
    exact ⟨key.srcPort, key.dstPort, key.ipProto, key.ifindex, hwire⟩
  · obtain ⟨em, hem, hrow⟩ := List.mem_flatMap.mp hrow
    have hreader : c₁.deliveredReader.isSome := by
      rw [Option.isSome_iff_ne_none]
      intro hreader
      rw [hnone hreader] at hem
      exact List.not_mem_nil hem
    obtain ⟨e, d, he, -, -, hkeeps⟩ := (hsome hreader).built em hem
    obtain ⟨key, pad, values, raw, hlisting, hparse⟩ := hkernel.delivered e he
    have hentry := parseBpftoolDeliveredEntry_listed hlisting hparse
    obtain ⟨ifindex, hifindex⟩ := mergedDelivered_ifindex (values.map Prod.fst)
    have hwire := hkeeps sample hrow
    rw [hentry] at hwire
    dsimp only at hwire
    rw [hifindex] at hwire
    exact ⟨key.srcPort, key.dstPort, key.ipProto, ifindex, hwire⟩

end EbpfIngressCollector

/-! ### What the columns hold -/

/-- A time in nanoseconds from the first seconds of the epoch to the year 2262. -/
def CurrentEpoch (ns : ℤ) : Prop := 2 ^ 31 ≤ ns ∧ ns < 2 ^ 63

/-- The integers of a row that no width in the kernel bounds by a column of SQLite. -/
def UdpSample.wideIntegers (sample : UdpSample) : List ℤ :=
  [sample.bucketMs, sample.netnsId, sample.hostPid, sample.containerPid, sample.socketId,
    sample.packets, sample.bytes]

/-- The time of a bucket does not fit 32 bits. -/
theorem not_storable_duckdb (bucketStartIso : ℤ → Str) {sample : UdpSample}
    (h : CurrentEpoch sample.bucketStartNs) : ¬ Storable bucketStartIso .duckdb sample := by
  intro hstorable
  have hholds := (storable_iff bucketStartIso .duckdb sample).mp hstorable sample.bucketStartNs
    List.mem_cons_self
  have hlow := h.1
  have hhigh := hholds.2
  simp only [Backend.integerBits] at hhigh
  omega

/-- A column of SQLite holds every unsigned field of fewer bits. -/
theorem sqlite_holds_toNat {w : ℕ} (x : BitVec w) (hw : w ≤ 63) : Backend.sqlite.Holds x.toNat := by
  have hlt : x.toNat < 2 ^ 63 := lt_of_lt_of_le x.isLt (Nat.pow_le_pow_right (by decide) hw)
  have hcast : (x.toNat : ℤ) < 2 ^ 63 := by exact_mod_cast hlt
  exact ⟨le_trans (by decide) (Int.natCast_nonneg _), hcast⟩

theorem storable_sqlite_iff (bucketStartIso : ℤ → Str) {sample : UdpSample}
    (hepoch : CurrentEpoch sample.bucketStartNs) (hwidths : sample.WireWidths) :
    Storable bucketStartIso .sqlite sample ↔ ∀ n ∈ sample.wideIntegers, Backend.sqlite.Holds n := by
  obtain ⟨srcPort, dstPort, ipProto, ifindex, hwire⟩ := hwidths
  simp only [UdpSample.wire, Prod.mk.injEq] at hwire
  obtain ⟨h₁, h₂, h₃, h₄⟩ := hwire
  have htime : Backend.sqlite.Holds sample.bucketStartNs :=
    ⟨le_trans (by decide) hepoch.1, hepoch.2⟩
  have hsrcPort := sqlite_holds_toNat srcPort (by decide)
  have hdstPort := sqlite_holds_toNat dstPort (by decide)
  have hipProto := sqlite_holds_toNat ipProto (by decide)
  have hifindex := sqlite_holds_toNat ifindex (by decide)
  rw [storable_iff]
  simp [UdpSample.integers, UdpSample.wideIntegers, h₁, h₂, h₃, h₄, htime, hsrcPort, hdstPort,
    hipProto, hifindex]

/-! ### Storing a checkpoint -/

open EbpfIngressCollector in
/-- No row a checkpoint emits at a time of the current epoch fits the columns of both databases:
DuckDB has 32 bits for the time, and every batch with the row fails there. The columns of SQLite
hold it exactly when the values no key of the kernel bounds fit 64 bits with a sign. -/
theorem emitted_sample_storable (bucketStartIso : ℤ → Str) (c c' : EbpfIngressCollector)
    (input : IngressInput) (k : Checkpoint) (sample : UdpSample) (hkernel : FromKernel input)
    (hstep : c.readCheckpoint input = (.ok k, c')) (hmem : sample ∈ k.samples)
    (hepoch : CurrentEpoch sample.bucketStartNs) :
    ¬ (∀ b, Storable bucketStartIso b sample) ∧
    (∀ rows, sample ∈ rows → ¬ Returns (Backend.duckdb.writeSamples bucketStartIso rows)) ∧
    (Storable bucketStartIso .sqlite sample ↔
      ∀ n ∈ sample.wideIntegers, Backend.sqlite.Holds n) := by
  have hduckdb := not_storable_duckdb bucketStartIso hepoch
  refine ⟨fun hall => hduckdb (hall .duckdb), ?_,
    storable_sqlite_iff bucketStartIso hepoch (samples_wireWidths hkernel hstep hmem)⟩
  intro rows hrow hreturns
  rw [writeSamples_returns_iff] at hreturns
  exact hduckdb (hreturns sample hrow)

/-! A datagram delivered to a socket whose cookie the kprobe fallback has drawn with its highest
bit set. -/

def drawnKey : DeliveredKey := ⟨0x8000000000000001, 0x0A0200C0, 0x146433C6, 40000, 5000, 2, 17⟩

def drawnValue (packets : ℕ) : DeliveredValue :=
  ⟨BitVec.ofNat 64 packets, BitVec.ofNat 64 (1316 * packets), 555, 2⟩

/-- The entry of its socket as `bpftool` lists it. -/
def drawnListing (packets : ℕ) : Json :=
  .obj [("key".toList, hexList (image (fun _ => 0) (drawnKey.members 0))),
    ("values".toList, .arr [.obj [("cpu".toList, .int 0),
      ("value".toList, hexList (image (fun _ => 0) ((drawnValue packets).members 0)))]])]

def drawnInput (nowNs : ℤ) (packets : ℕ) : IngressInput where
  nowNs := nowNs
  ingressDump := .ok []
  deliveredDump := [drawnListing packets].mapM parseBpftoolDeliveredEntry
  ifIndexToName _ := .error .osError
  sockets _ := ⟨nowNs, scan [receiverFiles 100]⟩

theorem drawnInput_fromKernel (nowNs : ℤ) (packets : ℕ) :
    FromKernel (drawnInput nowNs packets) := by
  have hbytes : ∀ members : List Member,
      Presents members (hexList (image (fun _ => 0) members)) := by
    intro members
    apply Presents.bytes (fun _ => 0) []
    rw [List.append_nil, List.forall₂_map_right_iff, List.forall₂_same]
    exact fun b _ => printsByte_hexByte b
  refine ⟨fun e he => absurd he List.not_mem_nil, fun e he => ?_⟩
  have hlisting : Listing (drawnKey.members 0)
      ([(drawnValue packets, (0 : BitVec 32))].map fun v => v.1.members v.2)
      (drawnListing packets) :=
    ⟨⟨_, rfl, hbytes _⟩, _, rfl, .cons ⟨_, rfl, hbytes _⟩ .nil⟩
  refine ⟨drawnKey, 0, [(drawnValue packets, 0)], drawnListing packets, hlisting, ?_⟩
  cases hparse : parseBpftoolDeliveredEntry (drawnListing packets) with
  | error x =>
    simp only [drawnInput, List.mapM_cons, hparse] at he
    cases he
  | ok entry =>
    simp only [drawnInput, List.mapM_cons, List.mapM_nil, hparse, listed] at he
    rw [List.mem_singleton.mp he]

/-- The row of the second checkpoint. -/
def drawnSample : UdpSample where
  bucketStartNs := 1700000003000000000
  bucketMs := 3000
  srcIp := "192.0.2.10".toList
  dstIp := "198.51.100.20".toList
  srcPort := 40000
  dstPort := 5000
  ifindex := 2
  ifname := "eth0".toList
  packets := 10
  bytes := 13160
  processName := "ffmpeg".toList
  hostPid := 100
  containerPid := 100
  socketId := 2 ^ 63 + 1
  layer := .delivered

def drawnFirst : IngressInput := drawnInput 1700000000500000000 10

def drawnLast : IngressInput := drawnInput 1700000003500000000 20

/-- The text of the time of the row. -/
def drawnIso : ℤ → Str := fun _ => "2023-11-14T22:13:23.000Z".toList

open EbpfIngressCollector in
theorem drawnRun_emits : ∃ outs c out c',
    completedRun readCheckpoint [drawnFirst] cookieCollector = some (outs, c) ∧
    c.readCheckpoint drawnLast = (.ok out, c') ∧ drawnSample ∈ out.samples := by
  have hrows : (completedRun readCheckpoint ([drawnFirst] ++ [drawnLast]) cookieCollector).map
      (fun r => r.1.map Checkpoint.samples) = some [[], [drawnSample]] := by decide +kernel
  cases hrun : completedRun readCheckpoint ([drawnFirst] ++ [drawnLast]) cookieCollector with
  | none =>
    rw [hrun] at hrows
    cases hrows
  | some r =>
    obtain ⟨outs, c, out, hfirst, hlast, hout⟩ := completedRun_concat hrun
    rw [hrun, Option.map_some, Option.some.injEq, hout] at hrows
    have hsamples : out.samples = [drawnSample] := by
      simpa using congrArg List.getLast? hrows
    exact ⟨outs, c, out, r.2, hfirst, hlast, hsamples ▸ List.mem_singleton_self _⟩

/-- Neither database stores the row: its time does not fit DuckDB, its cookie does not fit
SQLite. -/
theorem drawn_cookie_not_stored : ∃ outs c out c',
    completedRun EbpfIngressCollector.readCheckpoint [drawnFirst]
      cookieCollector = some (outs, c) ∧
    c.readCheckpoint drawnLast = (.ok out, c') ∧ FromKernel drawnLast ∧
    ∃ sample ∈ out.samples, CurrentEpoch sample.bucketStartNs ∧
      ∀ b, ¬ Storable drawnIso b sample := by
  obtain ⟨outs, c, out, c', hfirst, hlast, hmem⟩ := drawnRun_emits
  have hepoch : CurrentEpoch drawnSample.bucketStartNs := ⟨by decide, by decide⟩
  refine ⟨outs, c, out, c', hfirst, hlast, drawnInput_fromKernel _ _, drawnSample, hmem, hepoch, ?_⟩
  intro b
  cases b with
  | duckdb => exact not_storable_duckdb drawnIso hepoch
  | sqlite =>
    rw [storable_iff]
    decide +kernel

theorem emitted_sample_storable_drawn :
    ¬ (∀ b, Storable drawnIso b drawnSample) ∧
    (∀ rows, drawnSample ∈ rows → ¬ Returns (Backend.duckdb.writeSamples drawnIso rows)) ∧
    (Storable drawnIso .sqlite drawnSample ↔
      ∀ n ∈ drawnSample.wideIntegers, Backend.sqlite.Holds n) := by
  obtain ⟨outs, c, out, c', hfirst, hlast, hmem⟩ := drawnRun_emits
  exact emitted_sample_storable drawnIso c c' drawnLast out drawnSample (drawnInput_fromKernel _ _)
    hlast hmem ⟨by decide, by decide⟩

end UdpAnalyzer

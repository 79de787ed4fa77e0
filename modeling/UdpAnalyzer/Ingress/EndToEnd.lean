import UdpAnalyzer.Ingress.Printed
import UdpAnalyzer.Ingress.Receivers

/-! The ingress collector on top of its two kernel programs. Frames come in and datagrams are
delivered at any time, before the collector starts and between its checkpoints; a checkpoint
prints both maps in any order, and the collector reads what was printed. The maps outlive the
collector, so what they hold at the first checkpoint is of no known time. From the checkpoint on
that first lists a flow, the rows report every frame that is taken for it, once. -/

namespace UdpAnalyzer

open Snapshot

variable {n : ℕ}

/-- What happens from one checkpoint to the next, and what the checkpoint meets outside. -/
structure PacketInterval (n : ℕ) where
  events : List (PacketEvent n)
  ingressPrinter : MapPrinter n UdpKey.members UdpCounters.members
  deliveredPrinter : MapPrinter n (fun k => DeliveredKey.members k 0)
    (fun v => DeliveredValue.members v 0)
  nowNs : ℤ
  ifIndexToName : ℤ → Except PyExc Str
  sockets : ℕ → SocketsCall

namespace PacketInterval

/-- The checkpoint of the maps. -/
def input (i : PacketInterval n) (maps : PacketMaps n) : IngressInput where
  nowNs := i.nowNs
  ingressDump := dumpEntries parseBpftoolEntry (i.ingressPrinter.print maps.ingress.counters)
  deliveredDump := dumpEntries parseBpftoolDeliveredEntry (i.deliveredPrinter.print maps.delivered)
  ifIndexToName := i.ifIndexToName
  sockets := i.sockets

/-- Run the kernel, then read a checkpoint. -/
def step (s : PacketMaps n × EbpfIngressCollector) (i : PacketInterval n) :
    Except PyExc EbpfIngressCollector.Checkpoint × (PacketMaps n × EbpfIngressCollector) :=
  let maps := i.events.foldl PacketMaps.step s.1
  match s.2.readCheckpoint (i.input maps) with
  | (r, c) => (r, (maps, c))

end PacketInterval

/-- The maps after some events. -/
def packetMaps (events : List (PacketEvent n)) : PacketMaps n := events.foldl PacketMaps.step {}

theorem packetMaps_append (events later : List (PacketEvent n)) :
    packetMaps (events ++ later) = later.foldl PacketMaps.step (packetMaps events) :=
  List.foldl_append

/-- The events of a run: those before the collector starts, and those of its intervals. -/
def packetEvents (before : List (PacketEvent n)) (intervals : List (PacketInterval n)) :
    List (PacketEvent n) :=
  before ++ intervals.flatMap PacketInterval.events

theorem packetEvents_concat (before : List (PacketEvent n)) (intervals : List (PacketInterval n))
    (last : PacketInterval n) :
    packetEvents before (intervals ++ [last]) = packetEvents before intervals ++ last.events := by
  unfold packetEvents
  rw [List.flatMap_append, List.flatMap_singleton, List.append_assoc]

/-! ### Keys -/

/-- A key of the ingress map is of a UDP datagram over IPv4. -/
def UdpKey.IsUdp4 (key : UdpKey) : Prop := key.family = 2 ∧ key.ipProto = 17

instance (key : UdpKey) : Decidable key.IsUdp4 := inferInstanceAs (Decidable (_ ∧ _))

theorem charge_isUdp4 {a : Arrival n} {charge : UdpKey × BitVec 64} (h : a.charge = some charge) :
    charge.1.IsUdp4 := by
  obtain ⟨linear, -, h⟩ := Option.bind_eq_some_iff.mp h
  have hkey : charge.1 = a.frame.ownKey := by
    unfold Frame.outcome at h
    split_ifs at h
    all_goals cases h
    rfl
  rw [hkey]
  exact ⟨rfl, rfl⟩

theorem ingress_isUdp4 (events : List (PacketEvent n)) :
    ∀ key ∈ (packetMaps events).ingress.counters, key.IsUdp4 := by
  intro key h
  rcases (ingressTable n).mem_start_or_entry h with hstart | ⟨event, -, e, he, rfl⟩
  · exact absurd hstart List.not_mem_nil
  · cases event with
    | arrives a =>
      obtain ⟨charge, hcharge, rfl⟩ := Option.map_eq_some_iff.mp he
      exact charge_isUdp4 hcharge
    | receives program call => cases he

theorem delivered_isUdp4 (events : List (PacketEvent n)) :
    ∀ key ∈ (packetMaps events).delivered, key.IsUdp4 := by
  intro key h
  rcases (deliveredTable n).mem_start_or_entry h with hstart | ⟨event, -, e, he, rfl⟩
  · exact absurd hstart List.not_mem_nil
  · cases event with
    | arrives a => cases he
    | receives program call =>
      obtain ⟨datagram, hread, rfl⟩ := Option.map_eq_some_iff.mp he
      exact (readDelivery_spec hread).1

/-! ### Rows of a flow -/

/-- The row is of the flow at the interface. -/
def UdpSample.OfFlow (key : UdpKey) (row : UdpSample) : Prop :=
  row.layer = .ingress ∧ row.srcIp = dotted key.srcIp4 ∧ row.dstIp = dotted key.dstIp4 ∧
    row.srcPort = key.srcPort.toNat ∧ row.dstPort = key.dstPort.toNat ∧
    row.ifindex = key.ifindex.toNat

instance (key : UdpKey) (row : UdpSample) : Decidable (row.OfFlow key) :=
  inferInstanceAs (Decidable (_ ∧ _))

/-- The row is of what a socket received of a flow. -/
def UdpSample.OfDelivery (key : DeliveredKey) (row : UdpSample) : Prop :=
  row.layer = .delivered ∧ row.socketId = key.socketCookie.toNat ∧
    row.srcIp = dotted key.srcIp4 ∧ row.dstIp = dotted key.dstIp4 ∧
    row.srcPort = key.srcPort.toNat ∧ row.dstPort = key.dstPort.toNat

instance (key : DeliveredKey) (row : UdpSample) : Decidable (row.OfDelivery key) :=
  inferInstanceAs (Decidable (_ ∧ _))

/-- The columns of a process in a row. -/
def UdpSample.process (row : UdpSample) : ℤ × Str × Str × ℤ × ℤ :=
  (row.netnsId, row.containerId, row.processName, row.hostPid, row.containerPid)

/-- The row names no process. -/
def UdpSample.NoProcess (row : UdpSample) : Prop := row.process = (0, [], [], 0, 0)

/-- The row names the process. -/
def UdpSample.Names (row : UdpSample) (process : ProcessSocket) : Prop :=
  row.process = (process.netnsId, process.containerId, process.processName, process.hostPid,
    process.containerPid)

/-- What the rows of a checkpoint report of a flow. -/
def flowReport (out : EbpfIngressCollector.Checkpoint) (key : UdpKey) (f : UdpField) : ℤ :=
  ((out.samples.filter fun row => row.OfFlow key).map fun row =>
    UdpMapCounters.field f row.counters).sum

namespace EbpfIngressCollector

theorem describesIngress_decode {key : UdpKey} {e : UdpMapEntry} (he : e.key = key.decode)
    {b : UdpSample} (h : describesIngress e b) :
    b.srcIp = dotted key.srcIp4 ∧ b.dstIp = dotted key.dstIp4 ∧ b.srcPort = key.srcPort.toNat ∧
      b.dstPort = key.dstPort.toNat ∧ b.ifindex = key.ifindex.toNat := by
  obtain ⟨hsrc, hdst, hsport, hdport, -, hif⟩ := h
  rw [he] at hsrc hdst hsport hdport hif
  have hsrc' := (ipv4FromBpfInt_toNat key.srcIp4).symm.trans hsrc
  have hdst' := (ipv4FromBpfInt_toNat key.dstIp4).symm.trans hdst
  exact ⟨(Except.ok.inj hsrc').symm, (Except.ok.inj hdst').symm, hsport.symm, hdport.symm, hif.symm⟩

theorem describesDelivered_decode {key : DeliveredKey} {e : DeliveredMapEntry}
    (he : e.key = key.decode) {b : UdpSample} (h : describesDelivered e b) :
    b.srcIp = dotted key.srcIp4 ∧ b.dstIp = dotted key.dstIp4 ∧ b.srcPort = key.srcPort.toNat ∧
      b.dstPort = key.dstPort.toNat ∧ b.socketId = key.socketCookie.toNat := by
  obtain ⟨hsrc, hdst, hsport, hdport, -, hcookie⟩ := h
  rw [he] at hsrc hdst hsport hdport hcookie
  have hsrc' := (ipv4FromBpfInt_toNat key.srcIp4).symm.trans hsrc
  have hdst' := (ipv4FromBpfInt_toNat key.dstIp4).symm.trans hdst
  exact ⟨(Except.ok.inj hsrc').symm, (Except.ok.inj hdst').symm, hsport.symm, hdport.symm,
    hcookie.symm⟩

/-- The rows of the ingress layer that an emission gives without a filter: its sample. -/
theorem emitIngress_ingressRows {c : EbpfIngressCollector} (hfilter : c.sampleFilter = {})
    (input : IngressInput) (bucketNs elapsed : ℤ) :
    CounterLoop.EmitSpec (c.emitIngress input bucketNs elapsed) (fun _ => True)
      fun e d b rows => Built describesIngress elapsed e d b rows ∧ b.layer = .ingress ∧
        rows.filter (fun row => row.layer = .ingress) = [b] := by
  intro e d s b rows s' _ hemit
  have hsample := emitIngress_built hemit
  have hlayer : b.layer = .ingress := ingressSample_layer hsample
  refine ⟨⟨ingressSample_spec hsample, hlayer, ?_⟩, trivial⟩
  have hself : [b].filter (fun row => row.layer = .ingress) = [b] := by
    rw [List.filter_singleton, decide_eq_true hlayer]
    rfl
  obtain ⟨enricher, k⟩ := s
  simp only [emitIngress, hsample, filter_matchesSample hfilter] at hemit
  split at hemit
  · split at hemit
    · cases hemit
    next enriched en henrich =>
      cases hemit
      simp only [ProcessSocketEnricher.enrich] at henrich
      split at henrich
      · cases henrich
      next found en₁ hsockets =>
        cases henrich
        rw [List.filter_cons_of_pos (by simpa using hlayer)]
        refine congrArg (b :: ·) (List.filter_eq_nil_iff.mpr fun row hrow => ?_)
        obtain ⟨process, -, rfl⟩ := List.mem_map.mp hrow
        intro h
        cases of_decide_eq_true h
  · cases hemit
    exact hself

/-- The row is what is attributed to the socket of an entry, or that with the columns of a process
of its inode. -/
def AttributedRow (Known : ProcessSocket → Prop) (e : DeliveredMapEntry) (b row : UdpSample) : Prop :=
  row = ProcessSocketEnricher.attributed b e.key.socketCookie ∨
    ∃ process, Known process ∧ e.value.socketInode ≠ 0 ∧
      process.socketInode = e.value.socketInode ∧
      row = (ProcessSocketEnricher.attributed b e.key.socketCookie).withProcess process

/-- The enricher looks for processes of the name, and every process in its cache is known. -/
def KnownCache (Known : ProcessSocket → Prop) (name : Option Str)
    (enricher : Option ProcessSocketEnricher) : Prop :=
  ∀ en ∈ enricher, en.processName = name ∧ ∀ process ∈ en.cachedSockets, Known process

/-- Every process the first scans of the checkpoint find under the name is known. -/
def KnownScans (Known : ProcessSocket → Prop) (name : Option Str) (input : IngressInput)
    (scans : ℕ) : Prop :=
  ∀ k < scans, ∀ found, (input.sockets k).scan name = .ok found → ∀ process ∈ found, Known process

theorem KnownScans.mono {Known : ProcessSocket → Prop} {name : Option Str} {input : IngressInput}
    {scans more : ℕ} (h : KnownScans Known name input more) (hle : scans ≤ more) :
    KnownScans Known name input scans := fun k hk => h k (hk.trans_le hle)

theorem sockets_known {Known : ProcessSocket → Prop} {name : Option Str}
    {en en' : ProcessSocketEnricher} {input : IngressInput} {k scans : ℕ}
    {found : List ProcessSocket} (hcache : KnownCache Known name (some en))
    (hscan : KnownScans Known name input scans) (hk : k < scans)
    (h : en.sockets (input.sockets k) = (.ok found, en')) :
    (∀ process ∈ found, Known process) ∧ KnownCache Known name (some en') := by
  obtain ⟨hname, hknown⟩ := hcache en rfl
  simp only [ProcessSocketEnricher.sockets] at h
  split_ifs at h
  · split at h
    · cases h
    next found' hfound =>
      cases h
      rw [hname] at hfound
      have hfound' := hscan k hk _ hfound
      refine ⟨hfound', fun en₁ hen₁ => ?_⟩
      cases hen₁
      exact ⟨hname, hfound'⟩
  · cases h
    exact ⟨hknown, hcache⟩

/-- An emission is at most one more enrichment. -/
theorem emitDelivered_enrichments (c : EbpfIngressCollector) (input : IngressInput)
    (bucketNs elapsed : ℤ) (e : DeliveredMapEntry) (d : UdpMapCounters) (s : Enriching) :
    s.2 ≤ (c.emitDelivered input bucketNs elapsed e d s).2.2 ∧
      (c.emitDelivered input bucketNs elapsed e d s).2.2 ≤ s.2 + 1 := by
  obtain ⟨enricher, n⟩ := s
  simp only [emitDelivered]
  split
  · exact ⟨le_refl n, Nat.le_succ n⟩
  · split
    · split <;> exact ⟨Nat.le_succ n, le_refl (n + 1)⟩
    · exact ⟨le_refl n, Nat.le_succ n⟩

/-- The rows of known processes that have the inode of the entry. -/
theorem attributedRows_attributed {Known : ProcessSocket → Prop} {e : DeliveredMapEntry}
    (b : UdpSample) {matched : List ProcessSocket}
    (hmatched : ∀ process ∈ matched, Known process ∧ e.value.socketInode ≠ 0 ∧
      process.socketInode = e.value.socketInode) :
    ProcessSocketEnricher.attributedRows b e.key.socketCookie matched ≠ [] ∧
      ∀ row ∈ ProcessSocketEnricher.attributedRows b e.key.socketCookie matched,
        AttributedRow Known e b row := by
  cases matched with
  | nil => exact ⟨List.cons_ne_nil _ _, fun row hrow => .inl (List.mem_singleton.mp hrow)⟩
  | cons process rest =>
    refine ⟨List.cons_ne_nil _ _, fun row hrow => ?_⟩
    obtain ⟨process', hmem, rfl⟩ := List.mem_map.mp hrow
    obtain ⟨hknown, hinode, hsame⟩ := hmatched process' hmem
    exact .inr ⟨process', hknown, hinode, hsame, rfl⟩

theorem enrichExact_attributed {Known : ProcessSocket → Prop} {name : Option Str}
    {en en' : ProcessSocketEnricher} {input : IngressInput} {k scans : ℕ} {e : DeliveredMapEntry}
    {b : UdpSample} {rows : List UdpSample} (hcache : KnownCache Known name (some en))
    (hscan : KnownScans Known name input scans) (hk : k < scans)
    (h : en.enrichExact (input.sockets k) b e.value.socketInode e.key.socketCookie =
      (.ok rows, en')) :
    (rows ≠ [] ∧ ∀ row ∈ rows, AttributedRow Known e b row) ∧
      KnownCache Known name (some en') := by
  unfold ProcessSocketEnricher.enrichExact at h
  split_ifs at h with hinode
  · cases h
    exact ⟨attributedRows_attributed b fun process h => absurd h List.not_mem_nil, hcache⟩
  · rcases hsockets : en.sockets (input.sockets k) with ⟨r, en₁⟩
    rw [hsockets] at h
    cases r with
    | error x => cases h
    | ok found =>
      cases h
      obtain ⟨hfound, hcache'⟩ := sockets_known hcache hscan hk hsockets
      refine ⟨attributedRows_attributed b fun process hprocess => ?_, hcache'⟩
      obtain ⟨hmem, hsame⟩ := List.mem_filter.mp hprocess
      exact ⟨hfound process hmem, hinode, of_decide_eq_true hsame⟩

/-- The sample of an entry names its socket and interface and no process. -/
theorem deliveredSample_bare {input : IngressInput} {fallback : Str} {bucketNs elapsed : ℤ}
    {e : DeliveredMapEntry} {d : UdpMapCounters} {b : UdpSample}
    (h : deliveredSample input fallback bucketNs elapsed e d = .ok b) :
    b.NoProcess ∧ b.layer = .delivered ∧ b.socketId = e.key.socketCookie ∧
      b.ifindex = e.value.ifindex := by
  obtain ⟨srcIp, -, h⟩ := bind_eq_ok h
  obtain ⟨dstIp, -, h⟩ := bind_eq_ok h
  obtain ⟨ifname, -, h⟩ := bind_eq_ok h
  cases h
  exact ⟨rfl, rfl, rfl, rfl⟩

/-- What an emission of the delivered pass gives without a filter. -/
theorem emitDelivered_attributed {Known : ProcessSocket → Prop} {name : Option Str}
    {c : EbpfIngressCollector} (hfilter : c.sampleFilter = {}) {input : IngressInput} {scans : ℕ}
    (hscan : KnownScans Known name input scans) (bucketNs elapsed : ℤ) :
    CounterLoop.EmitSpecUpTo Prod.snd scans (c.emitDelivered input bucketNs elapsed)
      (fun s => KnownCache Known name s.1)
      fun e d b rows => Built describesDelivered elapsed e d b rows ∧
        (b.ifindex = e.value.ifindex ∧ b.NoProcess) ∧ rows ≠ [] ∧
        ∀ row ∈ rows, AttributedRow Known e b row := by
  intro e d s b rows s' hcache hemit hscans
  have hsample := emitDelivered_built hemit
  obtain ⟨hbare, hlayer, hsocket, hifindex⟩ := deliveredSample_bare hsample
  have hself : b = ProcessSocketEnricher.attributed b e.key.socketCookie := by
    unfold ProcessSocketEnricher.attributed
    rw [← hlayer, ← hsocket]
  suffices h : (rows ≠ [] ∧ ∀ row ∈ rows, AttributedRow Known e b row) ∧
      KnownCache Known name s'.1 from
    ⟨⟨deliveredSample_spec hsample, ⟨hifindex, hbare⟩, h.1⟩, h.2⟩
  obtain ⟨enricher, k⟩ := s
  simp only [emitDelivered, hsample, filter_matchesSample hfilter] at hemit
  cases enricher with
  | none =>
    cases hemit
    refine ⟨⟨List.cons_ne_nil _ _, fun row hrow => .inl ?_⟩, hcache⟩
    rw [List.mem_singleton.mp hrow]
    exact hself
  | some en =>
    dsimp only at hemit
    split at hemit
    · cases hemit
    next rows' en' henrich =>
      cases hemit
      exact enrichExact_attributed hcache hscan hscans henrich

/-- What the two passes of a completed checkpoint without a filter have emitted. -/
theorem readCheckpoint_rows {c c' : EbpfIngressCollector} {input : IngressInput} {k : Checkpoint}
    (hfilter : c.sampleFilter = {}) (h : c.readCheckpoint input = (.ok k, c')) :
    ingressLoop.Completed
      (fun e d b rows => Built describesIngress
          (elapsedMs c.bucketMs c.lastCheckpointNs input.nowNs) e d b rows ∧
        b.layer = .ingress ∧ rows.filter (fun row => row.layer = .ingress) = [b])
      (ingressLoop.view c.previous) (listed input.ingressDump) c'.previous k.ingress ∧
    ∀ em ∈ k.delivered, ∀ row ∈ em.rows, row.layer = .delivered := by
  obtain ⟨c₁, n₁, n₂, hi, hd⟩ := readCheckpoint_passes h
  have hclock : ({ c with lastCheckpointNs := some input.nowNs } :
      EbpfIngressCollector).sampleFilter = {} := hfilter
  obtain ⟨hingress, hc₁⟩ := readIngress_completed (emitIngress_ingressRows hclock input _ _) hi
  have hfilter₁ : c₁.sampleFilter = {} := by
    rw [hc₁]
    exact hfilter
  have hlayers : CounterLoop.EmitSpec (c₁.emitDelivered input (bucketStartNs input.nowNs c.bucketMs)
      (elapsedMs c.bucketMs c.lastCheckpointNs input.nowNs)) (fun _ => True)
      fun _ _ _ rows => ∀ row ∈ rows, row.layer = .delivered := by
    intro e d s b rows s' _ hemit
    have hscan : KnownScans (fun _ => True) (s.1.bind ProcessSocketEnricher.processName) input
        s'.2 := fun _ _ _ _ _ _ => trivial
    have hcache : KnownCache (fun _ => True) (s.1.bind ProcessSocketEnricher.processName) s.1 := by
      intro en hen
      rw [Option.mem_def.mp hen]
      exact ⟨rfl, fun _ _ => trivial⟩
    obtain ⟨⟨-, -, -, hrows⟩, -⟩ := emitDelivered_attributed hfilter₁ hscan _ _ e d s b rows s'
      hcache hemit (le_refl _)
    refine ⟨fun row hrow => ?_, trivial⟩
    rcases hrows row hrow with rfl | ⟨process, -, -, -, rfl⟩ <;> rfl
  obtain ⟨hnone, hsome, hc'⟩ := readDelivered_completed hlayers hd
  rw [hc', hc₁]
  refine ⟨hingress, fun em hem => ?_⟩
  cases hreader : c₁.deliveredReader with
  | none =>
    rw [hnone hreader] at hem
    exact absurd hem List.not_mem_nil
  | some id =>
    obtain ⟨e, d, -, -, -, hrows⟩ := (hsome (by rw [hreader]; rfl)).built em hem
    exact hrows

/-- The baselines, by the keys of the kernel. -/
def flowBaselines (c : EbpfIngressCollector) : Snapshot UdpKey UdpField :=
  fun key => ingressLoop.view c.previous key.decode.identity

def deliveredBaselines (c : EbpfIngressCollector) : Snapshot DeliveredKey UdpField :=
  fun key => deliveredLoop.view c.deliveredPrevious key.decode.identity

end EbpfIngressCollector

/-! ### One checkpoint -/

/-- A completed interval leaves the maps as the baselines. -/
theorem PacketInterval.step_baselines {s s' : PacketMaps n × EbpfIngressCollector}
    {i : PacketInterval n} {out : EbpfIngressCollector.Checkpoint} (h : i.step s = (.ok out, s')) :
    s'.1 = i.events.foldl PacketMaps.step s.1 ∧ s'.2.config = s.2.config ∧
      s'.2.deliveredReader = s.2.deliveredReader ∧
      s'.2.flowBaselines = (ingressTable n).counts s'.1 ∧
      (s.2.deliveredReader.isSome → s'.2.deliveredBaselines = (deliveredTable n).counts s'.1) := by
  obtain ⟨maps, c⟩ := s
  simp only [step] at h
  rcases hread : c.readCheckpoint (i.input (i.events.foldl PacketMaps.step maps)) with ⟨r, c'⟩
  rw [hread] at h
  cases h
  obtain ⟨hingress, hdelivered, -, hreader⟩ := EbpfIngressCollector.readCheckpoint_spec hread
  refine ⟨rfl, EbpfIngressCollector.readCheckpoint_config hread, hreader, ?_, fun hsome => ?_⟩
  · obtain ⟨dump, hdump, -, hsnapshot⟩ :=
      ingress_dump i.ingressPrinter (i.events.foldl PacketMaps.step maps)
    funext key
    show ingressLoop.view c'.previous key.decode.identity = _
    rw [hingress.baseline, ← hsnapshot key]
    exact congrArg (fun d => ingressLoop.snapshot (listed d) key.decode.identity) hdump
  · obtain ⟨dump, hdump, -, hsnapshot⟩ :=
      delivered_dump i.deliveredPrinter (i.events.foldl PacketMaps.step maps)
    funext key
    show deliveredLoop.view c'.deliveredPrevious key.decode.identity = _
    rw [(hdelivered hsome).baseline, ← hsnapshot key]
    exact congrArg (fun d => deliveredLoop.snapshot (listed d) key.decode.identity) hdump

/-- A sample of a flow's key is of that flow and of no other. -/
theorem ofFlow_iff {key key' : UdpKey} (hkey : key.IsUdp4) (hkey' : key'.IsUdp4) {b : UdpSample}
    (hlayer : b.layer = .ingress)
    (h : b.srcIp = dotted key'.srcIp4 ∧ b.dstIp = dotted key'.dstIp4 ∧
      b.srcPort = key'.srcPort.toNat ∧ b.dstPort = key'.dstPort.toNat ∧
      b.ifindex = key'.ifindex.toNat) :
    b.OfFlow key ↔ key'.decode.identity = key.decode.identity := by
  obtain ⟨hsrc, hdst, hsport, hdport, hif⟩ := h
  constructor
  · rintro ⟨-, hsrc', hdst', hsport', hdport', hif'⟩
    have h₁ := dotted_injective (hsrc.symm.trans hsrc')
    have h₂ := dotted_injective (hdst.symm.trans hdst')
    have h₃ := BitVec.eq_of_toNat_eq (Int.natCast_inj.mp (hsport.symm.trans hsport'))
    have h₄ := BitVec.eq_of_toNat_eq (Int.natCast_inj.mp (hdport.symm.trans hdport'))
    have h₅ := BitVec.eq_of_toNat_eq (Int.natCast_inj.mp (hif.symm.trans hif'))
    obtain ⟨family, ipProto, srcPort, dstPort, ifindex, srcIp4, dstIp4⟩ := key
    obtain ⟨family', ipProto', srcPort', dstPort', ifindex', srcIp4', dstIp4'⟩ := key'
    obtain ⟨rfl, rfl⟩ := hkey
    obtain ⟨rfl, rfl⟩ := hkey'
    dsimp only at h₁ h₂ h₃ h₄ h₅
    rw [h₁, h₂, h₃, h₄, h₅]
  · intro hidentity
    have heq : key' = key := UdpKey.identity_decode_injective hidentity
    subst heq
    exact ⟨hlayer, hsrc, hdst, hsport, hdport, hif⟩

/-- The emission is of a flow, and its rows of the ingress layer are its sample. -/
def EmitsFlow (em : UdpEmission) : Prop :=
  ∃ key : UdpKey, key.IsUdp4 ∧ em.identity = key.decode.identity ∧
    em.built.layer = .ingress ∧ em.rows.filter (fun row => row.layer = .ingress) = [em.built] ∧
    em.built.srcIp = dotted key.srcIp4 ∧ em.built.dstIp = dotted key.dstIp4 ∧
    em.built.srcPort = key.srcPort.toNat ∧ em.built.dstPort = key.dstPort.toNat ∧
    em.built.ifindex = key.ifindex.toNat

/-- The rows of a flow among all rows of the pass: the sample of the flow's emission. -/
theorem filter_ofFlow {key : UdpKey} (hkey : key.IsUdp4) {ems : List UdpEmission}
    (h : ∀ em ∈ ems, EmitsFlow em) :
    (ems.flatMap Emission.rows).filter (fun row => row.OfFlow key) =
      (ems.filter fun em => em.identity = key.decode.identity).map Emission.built := by
  induction ems with
  | nil => rfl
  | cons em rest ih =>
    obtain ⟨key', hkey', hidentity, hlayer, hrows, hfields⟩ := h em List.mem_cons_self
    have hsame := ofFlow_iff hkey hkey' hlayer hfields
    have hlayers : em.rows.filter (fun row => row.OfFlow key) =
        (em.rows.filter fun row => row.layer = .ingress).filter fun row => row.OfFlow key := by
      rw [List.filter_filter]
      refine List.filter_congr fun row _ => ?_
      by_cases hrow : row.OfFlow key
      · simp only [hrow, hrow.1, decide_true, Bool.and_self]
      · simp only [hrow, decide_false, Bool.false_and]
    rw [List.flatMap_cons, List.filter_append, hlayers, hrows,
      ih fun em hem => h em (List.mem_cons_of_mem _ hem)]
    by_cases hof : em.built.OfFlow key
    · have hid : em.identity = key.decode.identity := hidentity.trans (hsame.mp hof)
      rw [List.filter_singleton, decide_eq_true hof,
        List.filter_cons_of_pos (by simpa using hid)]
      rfl
    · have hid : em.identity ≠ key.decode.identity := fun h => hof (hsame.mpr (hidentity.symm.trans h))
      rw [List.filter_singleton, decide_eq_false hof,
        List.filter_cons_of_neg (by simpa using hid)]
      rfl

/-- A completed checkpoint reports of every flow the gain from the baselines to the map. -/
theorem PacketInterval.step_flowReport {s s' : PacketMaps n × EbpfIngressCollector}
    {i : PacketInterval n} {out : EbpfIngressCollector.Checkpoint}
    (hfilter : s.2.sampleFilter = {}) (h : i.step s = (.ok out, s'))
    (hkeys : ∀ key ∈ s'.1.ingress.counters, key.IsUdp4) {key : UdpKey} (hkey : key.IsUdp4)
    (f : UdpField) :
    flowReport out key f = gain s.2.flowBaselines ((ingressTable n).counts s'.1) key f := by
  obtain ⟨maps, c⟩ := s
  simp only [step] at h
  rcases hread : c.readCheckpoint (i.input (i.events.foldl PacketMaps.step maps)) with ⟨r, c'⟩
  rw [hread] at h
  cases h
  obtain ⟨hingress, hlayers⟩ := EbpfIngressCollector.readCheckpoint_rows hfilter hread
  obtain ⟨dump, hdump, hdumpKeys, hsnapshot⟩ :=
    ingress_dump i.ingressPrinter (i.events.foldl PacketMaps.step maps)
  have hlisted : listed (i.input (i.events.foldl PacketMaps.step maps)).ingressDump = dump :=
    congrArg listed hdump
  rw [hlisted] at hingress
  have hflows : ∀ em ∈ out.ingress, EmitsFlow em := by
    intro em hem
    obtain ⟨e, d, he, hidentity, -, ⟨hdescribes, -⟩, hlayer, hrows⟩ := hingress.built em hem
    obtain ⟨key', hkey', hdecode⟩ := hdumpKeys e he
    refine ⟨key', hkeys key' hkey', ?_, hlayer, hrows,
      EbpfIngressCollector.describesIngress_decode hdecode hdescribes⟩
    rw [← hidentity]
    exact congrArg UdpMapKey.identity hdecode
  have hdeliveredRows : (out.delivered.flatMap Emission.rows).filter (fun row => row.OfFlow key) = [] := by
    rw [List.filter_eq_nil_iff]
    intro row hrow hof
    obtain ⟨em, hem, hrow⟩ := List.mem_flatMap.mp hrow
    have hlayer := (of_decide_eq_true hof).1.symm.trans (hlayers em hem row hrow)
    cases hlayer
  rw [flowReport, EbpfIngressCollector.Checkpoint.samples, List.filter_append, hdeliveredRows,
    List.append_nil, filter_ofFlow hkey hflows]
  have hgain : gain c.flowBaselines ((ingressTable n).counts (i.events.foldl PacketMaps.step maps)) key f =
      gain (ingressLoop.view c.previous) (ingressLoop.snapshot dump) key.decode.identity f := by
    have hbefore : c.flowBaselines key = ingressLoop.view c.previous key.decode.identity := rfl
    exact gain_congr hbefore (hsnapshot key).symm f
  rw [hgain]
  rcases hingress.filter_identity ingressLoop key.decode.identity with
    ⟨em, hem, hid, hone⟩ | ⟨hzero, hstill⟩
  · obtain ⟨e, d, -, -, hd, ⟨-, hcounters, -⟩, -⟩ := hingress.built em hem
    rw [hone, List.map_singleton, List.map_singleton, List.sum_singleton, hcounters, ← hid, ← hd f]
    rfl
  · rw [hzero, gain_eq_zero_of_not_moved hstill]
    rfl

/-! ### Whole runs -/

/-- What a completed run leaves behind. -/
theorem completedRun_packets {before : List (PacketEvent n)} {intervals : List (PacketInterval n)}
    {c₀ : EbpfIngressCollector} (hfresh : c₀.Fresh)
    {outs : List EbpfIngressCollector.Checkpoint} {s : PacketMaps n × EbpfIngressCollector}
    (h : completedRun PacketInterval.step intervals (packetMaps before, c₀) = some (outs, s)) :
    s.1 = packetMaps (packetEvents before intervals) ∧ s.2.config = c₀.config ∧
      s.2.deliveredReader = c₀.deliveredReader ∧
      (s.2.flowBaselines = if intervals = [] then fun _ => none else (ingressTable n).counts s.1) ∧
      (c₀.deliveredReader.isSome → s.2.deliveredBaselines =
        if intervals = [] then fun _ => none else (deliveredTable n).counts s.1) := by
  induction intervals using List.reverseRecOn generalizing outs s with
  | nil =>
    cases h
    refine ⟨?_, rfl, rfl, ?_, fun _ => ?_⟩
    · rw [packetEvents, List.flatMap_nil, List.append_nil]
    · rw [if_pos rfl]
      funext key
      rw [EbpfIngressCollector.flowBaselines, hfresh.previous]
      rfl
    · rw [if_pos rfl]
      funext key
      rw [EbpfIngressCollector.deliveredBaselines, hfresh.deliveredPrevious]
      rfl
  | append_singleton intervals last ih =>
    obtain ⟨outs', s', out, hrun, hstep, -⟩ := completedRun_concat h
    obtain ⟨hmaps, hconfig, hreader, -, -⟩ := ih hrun
    obtain ⟨hmaps', hconfig', hreader', hflows, hdelivered⟩ := PacketInterval.step_baselines hstep
    have hne : intervals ++ [last] ≠ [] := List.append_ne_nil_of_right_ne_nil _ (List.cons_ne_nil _ _)
    rw [if_neg hne, if_neg hne]
    refine ⟨?_, hconfig'.trans hconfig, hreader'.trans hreader, hflows, fun hsome => hdelivered ?_⟩
    · rw [hmaps', hmaps, packetEvents_concat, packetMaps_append]
    · rw [hreader]
      exact hsome

/-- What the frames of some events come to that are taken for a flow. -/
abbrev framesTaken (events : List (PacketEvent n)) (key : UdpKey) (f : UdpField) : ℕ :=
  (ingressTable n).chargedIn key f events

/-- The last checkpoint reports of a flow the frames taken for it since the checkpoint before, if
that one has listed the flow, and else nothing. -/
theorem completedRun_flowReport {before : List (PacketEvent n)} {intervals : List (PacketInterval n)}
    {last : PacketInterval n} {c₀ : EbpfIngressCollector} (hfresh : c₀.Fresh)
    (hfilter : c₀.sampleFilter = {}) {outs : List EbpfIngressCollector.Checkpoint}
    {out : EbpfIngressCollector.Checkpoint} {s : PacketMaps n × EbpfIngressCollector}
    (h : completedRun PacketInterval.step (intervals ++ [last]) (packetMaps before, c₀) =
      some (outs ++ [out], s)) {key : UdpKey} (hkey : key.IsUdp4) {f : UdpField}
    (hfit : framesTaken (packetEvents before (intervals ++ [last])) key f < 2 ^ 64) :
    flowReport out key f =
      if intervals ≠ [] ∧ key ∈ (packetMaps (packetEvents before intervals)).ingress.counters then
        (framesTaken last.events key f : ℤ)
      else 0 := by
  obtain ⟨outs', s', out', hrun, hstep, hout⟩ := completedRun_concat h
  obtain ⟨rfl, he⟩ := List.append_inj' hout rfl
  cases he
  obtain ⟨hmaps, hconfig, -, hbaselines, -⟩ := completedRun_packets hfresh hrun
  obtain ⟨hmaps', -, -, -, -⟩ := PacketInterval.step_baselines hstep
  have hafter : s.1 = packetMaps (packetEvents before intervals ++ last.events) := by
    rw [hmaps', hmaps, packetMaps_append]
  have hkeys : ∀ key ∈ s.1.ingress.counters, key.IsUdp4 := by
    rw [hafter]
    exact ingress_isUdp4 _
  have hfilter' : s'.2.sampleFilter = {} := (congrArg Prod.fst hconfig).trans hfilter
  rw [PacketInterval.step_flowReport hfilter' hstep hkeys hkey f, hbaselines]
  by_cases hfirst : intervals = []
  · rw [if_pos hfirst, if_neg fun h => h.1 hfirst]
    exact gain_of_none rfl f
  rw [if_neg hfirst, hmaps, hafter]
  by_cases hlisted : key ∈ (packetMaps (packetEvents before intervals)).ingress.counters
  · rw [if_pos ⟨hfirst, hlisted⟩]
    rw [packetEvents_concat] at hfit
    exact (ingressTable n).gain_eq_chargedIn (s := {}) rfl hlisted hfit
  · rw [if_neg fun h => hlisted h.2]
    refine gain_of_none ?_ f
    show Option.map _ ((packetMaps (packetEvents before intervals)).ingress.counters.get? key) = none
    rw [Dict.get?_eq_none.mpr hlisted]
    rfl

/-- What the rows of all checkpoints report of a flow. -/
def flowReported (outs : List EbpfIngressCollector.Checkpoint) (key : UdpKey) (f : UdpField) : ℤ :=
  (outs.map fun out => flowReport out key f).sum

theorem flowReported_concat (outs : List EbpfIngressCollector.Checkpoint)
    (out : EbpfIngressCollector.Checkpoint) (key : UdpKey) (f : UdpField) :
    flowReported (outs ++ [out]) key f = flowReported outs key f + flowReport out key f := by
  unfold flowReported
  rw [List.map_append, List.sum_append, List.map_singleton, List.sum_singleton]

/-- A flow that is listed stays listed. -/
theorem listed_mono {before : List (PacketEvent n)} {early late : List (PacketInterval n)}
    {key : UdpKey} (h : key ∈ (packetMaps (packetEvents before early)).ingress.counters) :
    key ∈ (packetMaps (packetEvents before (early ++ late))).ingress.counters := by
  have hsplit : packetEvents before (early ++ late) =
      packetEvents before early ++ late.flatMap PacketInterval.events := by
    unfold packetEvents
    rw [List.flatMap_append, List.append_assoc]
  rw [hsplit, packetMaps_append]
  exact (ingressTable n).mem_foldl h _

theorem framesTaken_le {before : List (PacketEvent n)} (intervals : List (PacketInterval n))
    (last : PacketInterval n) (key : UdpKey) (f : UdpField) :
    framesTaken (packetEvents before intervals) key f ≤
      framesTaken (packetEvents before (intervals ++ [last])) key f := by
  rw [packetEvents_concat]
  show _ ≤ (ingressTable n).chargedIn key f _
  rw [AccountedTable.chargedIn_append]
  exact Nat.le_add_right _ _

/-- Nothing is reported of a flow up to the first checkpoint that lists it. -/
theorem flowReported_eq_zero {before : List (PacketEvent n)} {intervals : List (PacketInterval n)}
    {last : PacketInterval n} {c₀ : EbpfIngressCollector} (hfresh : c₀.Fresh)
    (hfilter : c₀.sampleFilter = {}) {outs : List EbpfIngressCollector.Checkpoint}
    {s : PacketMaps n × EbpfIngressCollector}
    (h : completedRun PacketInterval.step (intervals ++ [last]) (packetMaps before, c₀) =
      some (outs, s)) {key : UdpKey} (hkey : key.IsUdp4) {f : UdpField}
    (hfit : framesTaken (packetEvents before (intervals ++ [last])) key f < 2 ^ 64)
    (hunlisted : intervals = [] ∨
      key ∉ (packetMaps (packetEvents before intervals)).ingress.counters) :
    flowReported outs key f = 0 := by
  induction intervals using List.reverseRecOn generalizing last outs s with
  | nil =>
    obtain ⟨outs', s', out, hrun, -, rfl⟩ := completedRun_concat h
    cases hrun
    rw [flowReported_concat, completedRun_flowReport hfresh hfilter h hkey hfit,
      if_neg fun h => h.1 rfl]
    rfl
  | append_singleton intervals i ih =>
    obtain ⟨outs', s', out, hrun, -, rfl⟩ := completedRun_concat h
    have hnot : key ∉ (packetMaps (packetEvents before (intervals ++ [i]))).ingress.counters :=
      hunlisted.resolve_left (List.append_ne_nil_of_right_ne_nil _ (List.cons_ne_nil _ _))
    have hbefore := ih hrun (lt_of_le_of_lt (framesTaken_le _ last key f) hfit)
      (.inr fun hmem => hnot (listed_mono hmem))
    rw [flowReported_concat, hbefore, completedRun_flowReport hfresh hfilter h hkey hfit,
      if_neg fun h => hnot h.2]
    rfl

/-- From the checkpoint on that first lists a flow, everything that is taken for it is reported. -/
theorem flowReported_eq {before : List (PacketEvent n)} {early late : List (PacketInterval n)}
    {i : PacketInterval n} {c₀ : EbpfIngressCollector} (hfresh : c₀.Fresh)
    (hfilter : c₀.sampleFilter = {}) {outs : List EbpfIngressCollector.Checkpoint}
    {s : PacketMaps n × EbpfIngressCollector}
    (h : completedRun PacketInterval.step (early ++ i :: late) (packetMaps before, c₀) =
      some (outs, s)) {key : UdpKey} (hkey : key.IsUdp4) {f : UdpField}
    (hfit : framesTaken (packetEvents before (early ++ i :: late)) key f < 2 ^ 64)
    (hunlisted : early = [] ∨ key ∉ (packetMaps (packetEvents before early)).ingress.counters)
    (hlisted : key ∈ (packetMaps (packetEvents before (early ++ [i]))).ingress.counters) :
    flowReported outs key f = (framesTaken (late.flatMap PacketInterval.events) key f : ℤ) := by
  induction late using List.reverseRecOn generalizing outs s with
  | nil => exact flowReported_eq_zero hfresh hfilter h hkey hfit hunlisted
  | append_singleton late last ih =>
    rw [← List.cons_append, ← List.append_assoc] at h hfit
    obtain ⟨outs', s', out, hrun, -, rfl⟩ := completedRun_concat h
    have hbefore := ih hrun (lt_of_le_of_lt (framesTaken_le _ last key f) hfit)
    have hkept : key ∈
        (packetMaps (packetEvents before (early ++ i :: late))).ingress.counters := by
      rw [List.append_cons]
      exact listed_mono hlisted
    have hne : early ++ i :: late ≠ [] :=
      List.append_ne_nil_of_right_ne_nil _ (List.cons_ne_nil _ _)
    rw [flowReported_concat, hbefore, completedRun_flowReport hfresh hfilter h hkey hfit,
      if_pos ⟨hne, hkept⟩, List.flatMap_append, List.flatMap_singleton]
    show _ = (((ingressTable n).chargedIn key f (_ ++ _) : ℕ) : ℤ)
    rw [AccountedTable.chargedIn_append, Nat.cast_add]

/-- In any attribution mode and without a filter, the rows of the interface layer of a checkpoint
report of a flow the frames taken for it since the checkpoint before, when that one has listed the
flow, and else nothing; so those of a whole run come to every frame taken after the first
checkpoint that lists the flow. What was in the maps before the collector started is never
reported. -/
theorem ingress_rows_report_frames (before : List (PacketEvent n))
    (intervals : List (PacketInterval n)) (last : PacketInterval n) (c₀ : EbpfIngressCollector)
    (outs : List EbpfIngressCollector.Checkpoint) (out : EbpfIngressCollector.Checkpoint)
    (s : PacketMaps n × EbpfIngressCollector) (key : UdpKey) (f : UdpField) (hfresh : c₀.Fresh)
    (hfilter : c₀.sampleFilter = {})
    (h : completedRun PacketInterval.step (intervals ++ [last]) (packetMaps before, c₀) =
      some (outs ++ [out], s)) (hkey : key.IsUdp4)
    (hfit : framesTaken (packetEvents before (intervals ++ [last])) key f < 2 ^ 64) :
    (flowReport out key f =
      if intervals ≠ [] ∧ key ∈ (packetMaps (packetEvents before intervals)).ingress.counters then
        (framesTaken last.events key f : ℤ)
      else 0) ∧
    ∀ early i late, intervals ++ [last] = early ++ i :: late →
      (early = [] ∨ key ∉ (packetMaps (packetEvents before early)).ingress.counters) →
      key ∈ (packetMaps (packetEvents before (early ++ [i]))).ingress.counters →
      flowReported (outs ++ [out]) key f =
        (framesTaken (late.flatMap PacketInterval.events) key f : ℤ) := by
  refine ⟨completedRun_flowReport hfresh hfilter h hkey hfit, ?_⟩
  intro early i late hsplit hunlisted hlisted
  rw [hsplit] at h hfit
  exact flowReported_eq hfresh hfilter h hkey hfit hunlisted hlisted

/-! A flow whose first frame came in before the collector started, on a machine with two CPUs. -/

section
variable {K V : Type}

/-- An entry with its structures as bytes, the CPUs in order. -/
def hexEntry (keyMembers : K → List Member) (valueMembers : V → List Member)
    (item : K × (Fin n → V)) : Json :=
  .obj [("key".toList, hexList (image (fun _ => 0) (keyMembers item.1))),
    ("values".toList, .arr ((List.finRange n).map fun cpu =>
      .obj [("cpu".toList, .int cpu.val),
        ("value".toList, hexList (image (fun _ => 0) (valueMembers (item.2 cpu))))]))]

theorem presents_hexList (members : List Member) :
    Presents members (hexList (image (fun _ => 0) members)) := by
  apply Presents.bytes (fun _ => 0) []
  rw [List.append_nil, List.forall₂_map_right_iff, List.forall₂_same]
  exact fun b _ => printsByte_hexByte b

/-- A printer that keeps the order of the map. -/
def hexPrinter (n : ℕ) (keyMembers : K → List Member) (valueMembers : V → List Member) :
    MapPrinter n keyMembers valueMembers where
  print m := .arr (m.items.map (hexEntry keyMembers valueMembers))
  prints m := by
    refine .inr ⟨m.items, _, .refl _, rfl, ?_⟩
    rw [List.forall₂_map_right_iff, List.forall₂_same]
    intro item _
    refine ⟨List.finRange n, .refl _, ⟨⟨_, rfl, presents_hexList _⟩, _, rfl, ?_⟩⟩
    rw [List.forall₂_map_left_iff, List.forall₂_map_right_iff, List.forall₂_same]
    exact fun cpu _ => ⟨_, rfl, presents_hexList _⟩

end

/-- A frame of the flow with 1316 bytes in it. -/
def streamArrival (cpu : Fin 2) : PacketEvent 2 :=
  .arrives
    { frame := flowFrame 0 1324 60
      cpu
      pulled := some 82
      pulled_le := by
        rintro linear ⟨⟩
        decide
      room := true }

def streamInterval (nowNs : ℤ) (events : List (PacketEvent 2)) : PacketInterval 2 where
  events
  ingressPrinter := hexPrinter 2 _ _
  deliveredPrinter := hexPrinter 2 _ _
  nowNs
  ifIndexToName _ := .error .osError
  sockets _ := ⟨nowNs, fun _ => .ok []⟩

def streamKey : UdpKey := (flowFrame 0 1324 60).ownKey

def streamCollector : EbpfIngressCollector where
  ifname := "eth0".toList
  bucketMs := 1000

def streamFirst : PacketInterval 2 := streamInterval 1000000000 [streamArrival 0]

def streamSecond : PacketInterval 2 := streamInterval 2000000000 [streamArrival 1, streamArrival 0]

theorem ingress_rows_report_frames_stream :
    ∃ outs out s, completedRun PacketInterval.step ([streamFirst] ++ [streamSecond])
        (packetMaps [streamArrival 0], streamCollector) = some (outs ++ [out], s) ∧
      flowReport out streamKey .bytes = 2632 ∧
      flowReported (outs ++ [out]) streamKey .bytes = 2632 := by
  have hsome : (completedRun PacketInterval.step ([streamFirst] ++ [streamSecond])
      (packetMaps [streamArrival 0], streamCollector)).isSome = true := by decide +kernel
  obtain ⟨⟨all, s⟩, hrun⟩ := Option.isSome_iff_exists.mp hsome
  obtain ⟨outs, s', out, -, -, rfl⟩ := completedRun_concat hrun
  obtain ⟨hlast, hall⟩ := ingress_rows_report_frames [streamArrival 0] [streamFirst] streamSecond
    streamCollector outs out s streamKey .bytes ⟨rfl, rfl, rfl⟩ rfl hrun ⟨rfl, rfl⟩
    (by decide +kernel)
  refine ⟨outs, out, s, hrun, ?_, ?_⟩
  · rw [hlast, if_pos ⟨List.cons_ne_nil _ _, by decide +kernel⟩]
    decide +kernel
  · rw [hall [] streamFirst [streamSecond] rfl (.inl rfl) (by decide +kernel)]
    decide +kernel

end UdpAnalyzer

import UdpAnalyzer.Harness.Checks

/-! What the harness says of the analyzer's own output. The rows of the ingress collector pass
every check, whichever checkpoints they are of, and the profile of the collector only asks whether
traffic was seen; the dry run always meets its profile; rows of channels never pass. -/

namespace UdpAnalyzer

/-! ### Rows of the collectors -/

namespace ProcessSocketEnricher

theorem enrich_layer {en en' : ProcessSocketEnricher} {call : SocketsCall} {sample : UdpSample}
    {rows : List UdpSample} (h : en.enrich call sample = (.ok rows, en')) :
    ∀ row ∈ rows, row.layer = sample.layer ∨ row.layer = .delivered := by
  simp only [enrich] at h
  split at h
  · cases h
  next found en₁ hsockets =>
    cases h
    intro row hrow
    rcases List.mem_cons.mp hrow with rfl | hrow
    · exact .inl rfl
    · obtain ⟨process, -, rfl⟩ := List.mem_map.mp hrow
      exact .inr rfl

theorem attributedRows_layer {sample : UdpSample} {cookie : ℤ} {matched : List ProcessSocket} :
    ∀ row ∈ attributedRows sample cookie matched, row.layer = .delivered := by
  intro row hrow
  cases matched with
  | nil =>
    rw [attributedRows, List.mem_singleton] at hrow
    rw [hrow]
    rfl
  | cons first rest =>
    obtain ⟨process, -, rfl⟩ := List.mem_map.mp hrow
    rfl

theorem enrichExact_layer {en en' : ProcessSocketEnricher} {call : SocketsCall}
    {sample : UdpSample} {inode cookie : ℤ} {rows : List UdpSample}
    (h : en.enrichExact call sample inode cookie = (.ok rows, en')) :
    ∀ row ∈ rows, row.layer = .delivered := by
  simp only [enrichExact] at h
  split_ifs at h
  · cases h
    exact attributedRows_layer
  · split at h
    · cases h
    next found en₁ hsockets =>
      cases h
      exact attributedRows_layer

end ProcessSocketEnricher

/-- The layers of the ingress collector. -/
def UdpSample.OfIngress (row : UdpSample) : Prop := row.layer = .ingress ∨ row.layer = .delivered

namespace EbpfIngressCollector

theorem emitIngress_layer (c : EbpfIngressCollector) (input : IngressInput)
    (bucketNs elapsed : ℤ) : CounterLoop.EmitSpec (c.emitIngress input bucketNs elapsed)
      (fun _ => True) fun _ d b rows =>
        b.counters = d ∧ ∀ row ∈ rows, b.Gives row ∧ row.OfIngress := by
  intro e d s b rows s' hs hemit
  obtain ⟨⟨hsample, hgives⟩, -⟩ := emitIngress_gives c input bucketNs elapsed e d s b rows s' hs hemit
  have hlayer : b.layer = .ingress := ingressSample_layer hsample
  refine ⟨⟨(ingressSample_spec hsample).2.1, fun row hrow => ⟨hgives row hrow, ?_⟩⟩, trivial⟩
  obtain ⟨enricher, n⟩ := s
  simp only [emitIngress, hsample] at hemit
  split at hemit
  · split at hemit
    · cases hemit
    next enriched en henrich =>
      cases hemit
      rw [UdpSample.OfIngress, ← hlayer]
      exact ProcessSocketEnricher.enrich_layer henrich row (List.mem_of_mem_filter hrow)
  · cases hemit
    rw [List.mem_singleton.mp (List.mem_of_mem_filter hrow)]
    exact .inl hlayer

theorem emitDelivered_layer (c : EbpfIngressCollector) (input : IngressInput)
    (bucketNs elapsed : ℤ) : CounterLoop.EmitSpec (c.emitDelivered input bucketNs elapsed)
      (fun _ => True) fun _ d b rows =>
        b.counters = d ∧ ∀ row ∈ rows, b.Gives row ∧ row.OfIngress := by
  intro e d s b rows s' hs hemit
  obtain ⟨⟨hsample, hgives⟩, -⟩ :=
    emitDelivered_gives c input bucketNs elapsed e d s b rows s' hs hemit
  have hlayer : b.layer = .delivered := deliveredSample_layer hsample
  refine ⟨⟨(deliveredSample_spec hsample).2.1, fun row hrow => ⟨hgives row hrow, .inr ?_⟩⟩, trivial⟩
  obtain ⟨enricher, n⟩ := s
  simp only [emitDelivered, hsample] at hemit
  split at hemit
  · split at hemit
    · cases hemit
    next enriched en henrich =>
      cases hemit
      exact ProcessSocketEnricher.enrichExact_layer henrich row (List.mem_of_mem_filter hrow)
  · cases hemit
    rw [List.mem_singleton.mp (List.mem_of_mem_filter hrow)]
    exact hlayer

/-- The rows of a completed pass carry gains, which are never negative. -/
theorem rows_pass {E : Type} {L : CounterLoop E UdpIdentity UdpMapCounters UdpField}
    (hfield : L.field = UdpMapCounters.field)
    {before : Snapshot UdpIdentity UdpField} {dump : List E}
    {previous : Dict UdpIdentity UdpMapCounters} {ems : List UdpEmission}
    (h : L.Completed (fun _ d b rows => b.counters = d ∧ ∀ row ∈ rows, b.Gives row ∧ row.OfIngress)
      before dump previous ems) :
    ∀ row ∈ ems.flatMap Emission.rows, 0 ≤ row.packets ∧ 0 ≤ row.bytes ∧ row.OfIngress := by
  intro row hrow
  obtain ⟨em, hem, hrow⟩ := List.mem_flatMap.mp hrow
  obtain ⟨e, d, -, -, hgain, hcounters, hrows⟩ := h.built em hem
  obtain ⟨hgives, hlayer⟩ := hrows row hrow
  have hnonneg : ∀ f, 0 ≤ UdpMapCounters.field f row.counters := by
    intro f
    have hrow : row.counters = d := by
      rw [hgives]
      exact hcounters
    rw [hrow, ← hfield, hgain f]
    exact Snapshot.gain_nonneg _ _ _ f
  exact ⟨hnonneg .packets, hnonneg .bytes, hlayer⟩

theorem samples_pass {c c' : EbpfIngressCollector} {input : IngressInput} {k : Checkpoint}
    (h : c.readCheckpoint input = (.ok k, c')) :
    ∀ row ∈ k.samples, 0 ≤ row.packets ∧ 0 ≤ row.bytes ∧ row.OfIngress := by
  obtain ⟨c₁, n₁, n₂, hi, hd⟩ := readCheckpoint_passes h
  have hingress := (readIngress_completed (emitIngress_layer _ input _ _) hi).1
  obtain ⟨hnone, hsome, -⟩ := readDelivered_completed (emitDelivered_layer _ input _ _) hd
  intro row hrow
  rcases List.mem_append.mp hrow with hrow | hrow
  · exact rows_pass rfl hingress row hrow
  · have hreader : c₁.deliveredReader.isSome := by
      rw [Option.isSome_iff_ne_none]
      intro hreader
      rw [hnone hreader] at hrow
      exact List.not_mem_nil hrow
    exact rows_pass rfl (hsome hreader) row hrow

end EbpfIngressCollector

/-! ### Verdicts -/

variable (floatOf : List Char → JsonFloat) (bucketStartIso : ℤ → Str)

theorem Layer.text_ingress {layer : Layer} : layer.text = "ingress".toList ↔ layer = .ingress := by
  cases layer <;> decide

theorem Layer.text_delivered {layer : Layer} :
    layer.text = "delivered".toList ↔ layer = .delivered := by
  cases layer <;> decide

/-- The rows that are read of a file of printed rows are the rows, in their order, each with the
columns of its sample. -/
def ReadsBack {α : Type} (toDict : α → List (String × ColumnValue)) (batches : List (List α)) :
    Prop :=
  ∃ file rows, printedFile toDict batches = .ok file ∧ readRows floatOf file = .ok rows ∧
    List.Forall₂ (fun sample row => HasColumns (toDict sample) row) batches.flatten rows

theorem readsBack {α : Type} {toDict : α → List (String × ColumnValue)}
    (hnodup : ∀ sample, ((toDict sample).map Prod.fst).Nodup) (batches : List (List α)) :
    ReadsBack floatOf toDict batches := by
  refine ⟨_, _, printedFile_eq toDict batches, readRows_printedFile toDict floatOf _, ?_⟩
  rw [List.forall₂_map_right_iff]
  exact List.forall₂_same.mpr fun sample _ => hasColumns_sortedMembers (hnodup sample)

/-- What is printed of samples, over any number of calls, is read back as the samples: no text of
a row breaks its line or adds to it. -/
theorem emitted_rows_read_back :
    (∀ batches, ReadsBack floatOf (UdpSample.toDict bucketStartIso) batches) ∧
      ∀ batches, ReadsBack floatOf (ChannelSample.toDict bucketStartIso) batches :=
  ⟨readsBack floatOf (UdpSample.nodup_toDict bucketStartIso),
    readsBack floatOf (ChannelSample.nodup_toDict bucketStartIso)⟩

/-- The rows of a checkpoint of an ingress collector. -/
def IsIngressBatch (batch : List UdpSample) : Prop :=
  ∃ (c c' : EbpfIngressCollector) (input : IngressInput) (k : EbpfIngressCollector.Checkpoint),
    c.readCheckpoint input = (.ok k, c') ∧ batch = k.samples

theorem IsIngressBatch.passes {batches : List (List UdpSample)}
    (h : ∀ batch ∈ batches, IsIngressBatch batch) :
    ∀ row ∈ batches.flatten, PassesChecks row.packets row.bytes row.layer.text := by
  intro row hrow
  obtain ⟨batch, hbatch, hrow⟩ := List.mem_flatten.mp hrow
  obtain ⟨c, c', input, k, hread, rfl⟩ := h batch hbatch
  obtain ⟨hpackets, hbytes, hlayer⟩ := EbpfIngressCollector.samples_pass hread row hrow
  exact ⟨hpackets, hbytes, hlayer.imp Layer.text_ingress.mpr Layer.text_delivered.mpr⟩

/-- What the ingress collector prints, over any of its checkpoints, is accepted as soon as there is
a row, and for the profile of the collector when some row is of the ingress layer and some row
counts a packet. -/
theorem ingress_output_accepted (allowEmpty : Bool) (batches : List (List UdpSample))
    (h : ∀ batch ∈ batches, IsIngressBatch batch) :
    ∃ file, printedFile (UdpSample.toDict bucketStartIso) batches = .ok file ∧
      (∀ n, assertOutput floatOf .generic allowEmpty file = .ok n ↔
        n = batches.flatten.length ∧ (batches.flatten = [] → allowEmpty = true)) ∧
      (∀ n, assertOutput floatOf .ebpf allowEmpty file = .ok n ↔
        n = batches.flatten.length ∧ ((allowEmpty = true ∧ batches.flatten = []) ∨
          (∃ row ∈ batches.flatten, row.layer = .ingress) ∧
            ∃ row ∈ batches.flatten, 0 < row.packets)) := by
  have hrow := UdpSample.isRow bucketStartIso
  have hpasses := IsIngressBatch.passes h
  refine ⟨_, printedFile_eq _ batches, fun n => ?_, fun n => ?_⟩
  · rw [assertOutput_ok_iff, validateRows_ok_iff hrow]
    exact ⟨fun ⟨hn, ⟨hempty, _⟩, _⟩ => ⟨hn, hempty⟩, fun ⟨hn, hempty⟩ => ⟨hn, ⟨hempty, hpasses⟩, rfl⟩⟩
  · rw [assertOutput_ok_iff, validateRows_ok_iff hrow, validateProfile, validateEbpf_ok_iff hrow]
    simp only [Layer.text_ingress]
    constructor
    · rintro ⟨hn, -, hebpf⟩
      exact ⟨hn, hebpf⟩
    · rintro ⟨hn, hebpf⟩
      refine ⟨hn, ⟨fun hnil => ?_, hpasses⟩, hebpf⟩
      rcases hebpf with hempty | ⟨⟨row, hrow, -⟩, -⟩
      · exact hempty.1
      · rw [hnil] at hrow
        exact absurd hrow List.not_mem_nil

/-- The rows of the second of two checkpoints of a flow. -/
def splitFlowBatch : List UdpSample :=
  match ((freshIngress.readCheckpoint (splitFlowInput 5000000000 100 200)).2.readCheckpoint
      (splitFlowInput 8000000000 150 720)).1 with
  | .ok k => k.samples
  | .error _ => []

theorem ingress_output_accepted_split_flow :
    ∃ file, printedFile (UdpSample.toDict fun _ => ['"', '\n']) [[], splitFlowBatch] = .ok file ∧
      assertOutput (fun _ => .nan) .ebpf false file = .ok 1 := by
  have hbatch : IsIngressBatch splitFlowBatch :=
    ⟨(freshIngress.readCheckpoint (splitFlowInput 5000000000 100 200)).2, _,
      splitFlowInput 8000000000 150 720, _, rfl, rfl⟩
  have hempty : IsIngressBatch [] :=
    ⟨freshIngress, _, splitFlowInput 5000000000 100 200, _, rfl, rfl⟩
  obtain ⟨file, hfile, -, haccept⟩ := ingress_output_accepted (fun _ => .nan) (fun _ => ['"', '\n'])
    false [[], splitFlowBatch]
    (List.forall_mem_cons.mpr ⟨hempty, List.forall_mem_singleton.mpr hbatch⟩)
  have hrows : (∃ row ∈ splitFlowBatch, row.layer = .ingress) ∧
      ∃ row ∈ splitFlowBatch, 0 < row.packets := by decide +kernel
  exact ⟨file, hfile, (haccept 1).mpr ⟨rfl, .inr hrows⟩⟩

/-! ### The dry run -/

/-- The row has the values of an expected one. -/
def UdpSample.IsExpected (expected : ExpectedRow) (row : UdpSample) : Prop :=
  row.srcIp = expected.1.toList ∧ row.dstPort = expected.2.1 ∧
    row.layer.text = expected.2.2.1.toList ∧ row.processName = expected.2.2.2.toList

theorem validateDryRun_ok_iff (samples : List UdpSample) :
    validateDryRun (samples.map fun sample => rowOf (sample.toDict bucketStartIso)) = .ok () ↔
      ∀ expected ∈ expectedRows, ∃ row ∈ samples, row.IsExpected expected := by
  have hpresent : (samples.map fun sample => rowOf (sample.toDict bucketStartIso)).mapM presentRow =
      .ok (samples.map fun row => (Json.str row.srcIp, Json.int row.dstPort,
        Json.str row.layer.text, Json.str row.processName)) := by
    refine mapM_map_eq_ok (fun row => ?_) samples
    have hnodup := row.nodup_toDict bucketStartIso
    have hsrc := item_rowOf hnodup
      (show (row.toDict bucketStartIso).lookup "src_ip" = some (.text row.srcIp) from rfl)
    have hport := item_rowOf hnodup
      (show (row.toDict bucketStartIso).lookup "dst_port" = some (.int row.dstPort) from rfl)
    have hlayer := item_rowOf hnodup
      (show (row.toDict bucketStartIso).lookup "layer" = some (.text row.layer.text) from rfl)
    have hname := item_rowOf hnodup
      (show (row.toDict bucketStartIso).lookup "process_name" = some (.text row.processName) from rfl)
    rw [presentRow, hsrc, ok_bind, hport, ok_bind, hlayer, ok_bind, hname]
    rfl
  have hexpected : ∀ expected : ExpectedRow, ((samples.map fun row => (Json.str row.srcIp,
      Json.int row.dstPort, Json.str row.layer.text, Json.str row.processName)).any
        (isExpected expected) = true) ↔ ∃ row ∈ samples, row.IsExpected expected := by
    intro expected
    rw [List.any_map, List.any_eq_true]
    refine exists_congr fun row => and_congr_right fun _ => ?_
    simp only [Function.comp_apply, isExpected, Json.equalsText, Bool.and_eq_true,
      UdpSample.IsExpected, and_assoc, decide_eq_true_eq]
    exact Iff.rfl
  have hmissing : (expectedRows.filter fun expected => !(samples.map fun row => (Json.str row.srcIp,
      Json.int row.dstPort, Json.str row.layer.text, Json.str row.processName)).any
        (isExpected expected)) = [] ↔
      ∀ expected ∈ expectedRows, ∃ row ∈ samples, row.IsExpected expected := by
    rw [List.filter_eq_nil_iff]
    refine forall₂_congr fun expected _ => ?_
    rw [Bool.not_eq_true', Bool.not_eq_false, hexpected]
  rw [validateDryRun, hpresent, raising, ok_bind, ← hmissing]
  dsimp only
  split_ifs with hnil
  · exact ⟨fun _ => hnil, fun _ => rfl⟩
  · refine ⟨fun h => ?_, fun h => absurd h hnil⟩
    cases h

namespace DryRunCollector

/-- Whether a filter lets the rows of a stream through does not depend on the checkpoint. -/
def keeps (f : SampleFilter) (stream : DryRunStream) : Bool :=
  wants f.srcIp stream.srcIp && wants f.dstIp stream.dstIp && wants f.srcPort stream.srcPort &&
    wants f.dstPort stream.dstPort && wants f.ifname stream.ifname &&
    wants f.processName stream.processName && wants f.layer stream.layer

/-- The rows of a checkpoint of the dry run with a filter. -/
def IsBatch (f : SampleFilter) (batch : List UdpSample) : Prop :=
  ∃ (c : DryRunCollector) (bucketNs : ℤ), 0 ≤ c.tick ∧
    batch = (streams.zipIdx.map fun p => c.streamSample bucketNs p.1 p.2).filter f.matchesSample

theorem run_batches (clock : List ℤ) : ∀ c : DryRunCollector, 0 ≤ c.tick → ∃ outs c',
    completedRun readCheckpoint clock c = some (outs, c') ∧ outs.length = clock.length ∧
      ∀ batch ∈ outs, IsBatch c.sampleFilter batch := by
  induction clock with
  | nil => exact fun c _ => ⟨[], c, rfl, rfl, fun _ h => nomatch h⟩
  | cons nowNs clock ih =>
    intro c htick
    obtain ⟨outs, c', hrun, hlength, hbatches⟩ := ih { c with tick := c.tick + 1 } (by
      show 0 ≤ c.tick + 1
      omega)
    have hbatch : IsBatch c.sampleFilter ((streams.zipIdx.map fun p =>
        ({ c with tick := c.tick + 1 } : DryRunCollector).streamSample
          (bucketStartNs nowNs c.bucketMs) p.1 p.2).filter c.sampleFilter.matchesSample) :=
      ⟨_, _, by show 0 ≤ c.tick + 1; omega, rfl⟩
    refine ⟨_ :: outs, c', ?_, by rw [List.length_cons, hlength, List.length_cons],
      List.forall_mem_cons.mpr ⟨hbatch, hbatches⟩⟩
    show (completedRun readCheckpoint clock _).map _ = _
    rw [hrun]
    rfl

theorem IsBatch.mem_iff {f : SampleFilter} {batch : List UdpSample} (h : IsBatch f batch) :
    ∃ (c : DryRunCollector) (bucketNs : ℤ), 0 ≤ c.tick ∧ ∀ row, row ∈ batch ↔
      ∃ p ∈ streams.zipIdx, keeps f p.1 = true ∧ row = c.streamSample bucketNs p.1 p.2 := by
  obtain ⟨c, bucketNs, htick, rfl⟩ := h
  refine ⟨c, bucketNs, htick, fun row => ?_⟩
  rw [List.mem_filter, List.mem_map]
  constructor
  · rintro ⟨⟨p, hp, rfl⟩, hkeeps⟩
    exact ⟨p, hp, hkeeps, rfl⟩
  · rintro ⟨p, hp, hkeeps, rfl⟩
    exact ⟨⟨p, hp, rfl⟩, hkeeps⟩

/-- With a filter that keeps every stream a checkpoint has three rows. -/
theorem IsBatch.length {f : SampleFilter} {batch : List UdpSample} (h : IsBatch f batch)
    (hkeeps : ∀ stream ∈ streams, keeps f stream = true) : batch.length = 3 := by
  obtain ⟨c, bucketNs, -, rfl⟩ := h
  rw [List.filter_eq_self.mpr, List.length_map]
  · rfl
  · intro row hrow
    obtain ⟨p, hp, rfl⟩ := List.mem_map.mp hrow
    exact hkeeps p.1 (List.fst_mem_of_mem_zipIdx hp)

/-- The expected rows are the ones of the streams, whatever the checkpoint. -/
theorem expectedRows_streams : List.Forall₂ (fun expected stream =>
    ∀ (c : DryRunCollector) (bucketNs : ℤ) (index : ℕ),
      (c.streamSample bucketNs stream index).IsExpected expected) expectedRows streams := by
  refine .cons (fun _ _ _ => ?_) (.cons (fun _ _ _ => ?_) (.cons (fun _ _ _ => ?_) .nil))
  all_goals exact ⟨rfl, rfl, rfl, rfl⟩

/-- A stream is known by the port its rows go to. -/
theorem eq_of_dstPort {stream stream' : DryRunStream} (h : stream ∈ streams) (h' : stream' ∈ streams)
    (hport : stream.dstPort = stream'.dstPort) : stream = stream' := by
  have hnodup : (streams.map DryRunStream.dstPort).Nodup := by
    show [(5000 : ℤ), 5001, 5999].Nodup
    decide
  exact List.inj_on_of_nodup_map hnodup h h' hport

theorem streams_pass : ∀ p ∈ streams.zipIdx, 0 ≤ p.1.packetBase ∧ 0 ≤ p.1.payloadSize ∧
    (p.1.layer = .ingress ∨ p.1.layer = .delivered) := by decide

theorem IsBatch.passes {f : SampleFilter} {batch : List UdpSample} (h : IsBatch f batch) :
    ∀ row ∈ batch, PassesChecks row.packets row.bytes row.layer.text := by
  obtain ⟨c, bucketNs, htick, hmem⟩ := h.mem_iff
  intro row hrow
  obtain ⟨p, hp, -, rfl⟩ := (hmem row).mp hrow
  obtain ⟨hbase, hsize, hlayer⟩ := streams_pass p hp
  have hpackets : 0 ≤ p.1.packetBase + c.tick + p.2 := by omega
  exact ⟨hpackets, mul_nonneg hpackets hsize,
    hlayer.imp Layer.text_ingress.mpr Layer.text_delivered.mpr⟩

/-- The expected rows are all there if and only if the filter keeps every stream. -/
theorem expected_iff {f : SampleFilter} {outs : List (List UdpSample)}
    (h : ∀ batch ∈ outs, IsBatch f batch) :
    (∀ expected ∈ expectedRows, ∃ row ∈ outs.flatten, row.IsExpected expected) ↔
      outs ≠ [] ∧ ∀ stream ∈ streams, keeps f stream = true := by
  constructor
  · intro hall
    constructor
    · rintro rfl
      obtain ⟨row, hrow, -⟩ := hall _ List.mem_cons_self
      exact List.not_mem_nil hrow
    · intro stream hstream
      obtain ⟨expected, hexpected, hshows⟩ := exists_of_forall₂ expectedRows_streams.flip hstream
      obtain ⟨row, hrow, hrowIs⟩ := hall expected hexpected
      obtain ⟨batch, hbatch, hrow⟩ := List.mem_flatten.mp hrow
      obtain ⟨c, bucketNs, -, hmem⟩ := (h batch hbatch).mem_iff
      obtain ⟨p, hp, hkeeps, rfl⟩ := (hmem row).mp hrow
      have hport : stream.dstPort = p.1.dstPort :=
        (hshows c bucketNs 0).2.1.trans hrowIs.2.1.symm
      rw [eq_of_dstPort hstream (List.fst_mem_of_mem_zipIdx hp) hport]
      exact hkeeps
  · rintro ⟨hne, hkeeps⟩ expected hexpected
    obtain ⟨batch, outs, rfl⟩ := List.exists_cons_of_ne_nil hne
    obtain ⟨stream, hstream, hshows⟩ := exists_of_forall₂ expectedRows_streams hexpected
    obtain ⟨index, hindex⟩ := List.mem_iff_getElem?.mp hstream
    obtain ⟨c, bucketNs, -, hmem⟩ := (h batch List.mem_cons_self).mem_iff
    have hrow : c.streamSample bucketNs stream index ∈ batch :=
      (hmem _).mpr ⟨(stream, index), List.mk_mem_zipIdx_iff_getElem?.mpr hindex,
        hkeeps stream hstream, rfl⟩
    exact ⟨_, List.mem_flatten.mpr ⟨batch, List.mem_cons_self, hrow⟩, hshows c bucketNs index⟩

/-- A run of the dry run meets its profile if and only if it has a checkpoint and its filter keeps
every stream. -/
theorem dry_run_output_accepted (bucketMs : ℤ) (f : SampleFilter) (clock : List ℤ)
    (allowEmpty : Bool) : ∃ outs c' file,
      completedRun readCheckpoint clock ⟨bucketMs, f, 0⟩ = some (outs, c') ∧
      printedFile (UdpSample.toDict bucketStartIso) outs = .ok file ∧
      ∀ n, assertOutput floatOf .dryRun allowEmpty file = .ok n ↔
        n = 3 * clock.length ∧ clock ≠ [] ∧ ∀ stream ∈ streams, keeps f stream = true := by
  obtain ⟨outs, c', hrun, hlength, hbatches⟩ := run_batches clock ⟨bucketMs, f, 0⟩ (le_refl 0)
  refine ⟨outs, c', _, hrun, printedFile_eq _ outs, fun n => ?_⟩
  have hpasses : ∀ row ∈ outs.flatten, PassesChecks row.packets row.bytes row.layer.text := by
    intro row hrow
    obtain ⟨batch, hbatch, hrow⟩ := List.mem_flatten.mp hrow
    exact (hbatches batch hbatch).passes row hrow
  have hclock : outs ≠ [] ↔ clock ≠ [] := by
    rw [← List.length_pos_iff, hlength, List.length_pos_iff]
  rw [assertOutput_ok_iff, validateRows_ok_iff (UdpSample.isRow bucketStartIso), validateProfile,
    validateDryRun_ok_iff, expected_iff hbatches, hclock]
  have hcount : (∀ stream ∈ streams, keeps f stream = true) →
      outs.flatten.length = 3 * clock.length := by
    intro hkeeps
    rw [List.length_flatten, List.map_congr_left fun batch hbatch =>
      (hbatches batch hbatch).length hkeeps, List.map_const', List.sum_replicate, hlength]
    exact Nat.mul_comm clock.length 3
  constructor
  · rintro ⟨hn, -, hne, hkeeps⟩
    exact ⟨hn.trans (hcount hkeeps), hne, hkeeps⟩
  · rintro ⟨hn, hne, hkeeps⟩
    refine ⟨hn.trans (hcount hkeeps).symm, ⟨fun hnil => ?_, hpasses⟩, hne, hkeeps⟩
    have hzero := hcount hkeeps
    rw [hnil, List.length_nil] at hzero
    have hpos := List.length_pos_iff.mpr hne
    omega

end DryRunCollector

/-! ### Channels -/

/-- The rows of a checkpoint of a channel collector. -/
def IsChannelBatch (batch : List ChannelSample) : Prop :=
  ∃ kind, (kind = tcpChannel ∨ kind = udpChannel) ∧ ∃ (c c' : ChannelCollector)
    (input : ChannelInput) (ems : List FlowEmission),
      c.readCheckpoint kind input = (.ok ems, c') ∧ batch = ems.flatMap Emission.rows

namespace ChannelCollector

theorem emitFlow_layer (kind : ChannelKind) (c : ChannelCollector) (input : ChannelInput)
    (bucketNs elapsed : ℤ) : CounterLoop.EmitSpec (c.emitFlow kind input bucketNs elapsed)
      (fun _ => True) fun _ d _ rows => ∀ row ∈ rows, row.counters = d ∧ row.layer = kind.layer := by
  intro e d s b rows s' _ hemit
  obtain ⟨unit, -, hsample, rfl⟩ := emitFlow_built hemit
  have hlayer : b.layer = kind.layer := by
    obtain ⟨⟨ip, port⟩, -, h⟩ := bind_eq_ok hsample
    obtain ⟨srcIp, -, h⟩ := bind_eq_ok h
    obtain ⟨ifname, -, h⟩ := bind_eq_ok h
    cases h
    rfl
  refine ⟨fun row hrow => ?_, trivial⟩
  rw [List.mem_singleton.mp (List.mem_of_mem_filter hrow)]
  exact ⟨(flowSample_spec hsample).2.1, hlayer⟩

theorem rows_layer {kind : ChannelKind} {c c' : ChannelCollector} {input : ChannelInput}
    {ems : List FlowEmission} (h : c.readCheckpoint kind input = (.ok ems, c')) :
    ∀ row ∈ ems.flatMap Emission.rows, (∀ f, 0 ≤ FlowCounters.field f row.counters) ∧
      row.layer = kind.layer := by
  obtain ⟨hdone, -⟩ := readFlows_spec (emitFlow_layer kind _ input _ _) trivial
    (readCheckpoint_spec h)
  intro row hrow
  obtain ⟨em, hem, hrow⟩ := List.mem_flatMap.mp hrow
  obtain ⟨e, d, -, -, hgain, hrows⟩ := hdone.built em hem
  obtain ⟨hcounters, hlayer⟩ := hrows row hrow
  refine ⟨fun f => ?_, hlayer⟩
  rw [hcounters]
  exact le_of_le_of_eq (Snapshot.gain_nonneg _ _ em.identity f) (hgain f).symm

end ChannelCollector

/-- Rows of channels are refused, at the first of them and for its layer, whatever the profile. -/
theorem channel_output_refused (profile : HarnessProfile) (allowEmpty : Bool)
    (batches : List (List ChannelSample)) (h : ∀ batch ∈ batches, IsChannelBatch batch) :
    ∃ file, printedFile (ChannelSample.toDict bucketStartIso) batches = .ok file ∧
      ∀ row rest, batches.flatten = row :: rest →
        assertOutput floatOf profile allowEmpty file =
          .error (.unexpectedLayer 0 (.str row.layer.text)) := by
  refine ⟨_, printedFile_eq _ batches, fun row rest hrows => ?_⟩
  have hmem : row ∈ batches.flatten := by
    rw [hrows]
    exact List.mem_cons_self
  obtain ⟨batch, hbatch, hrow⟩ := List.mem_flatten.mp hmem
  obtain ⟨kind, hkind, c, c', input, ems, hread, rfl⟩ := h batch hbatch
  obtain ⟨hcounters, hlayer⟩ := ChannelCollector.rows_layer hread row hrow
  have hpackets : 0 ≤ row.rxCalls + row.txCalls :=
    add_nonneg (hcounters .rxCalls) (hcounters .txCalls)
  have hbytes : 0 ≤ row.txBytes + row.rxBytes :=
    add_nonneg (hcounters .txBytes) (hcounters .rxBytes)
  have hunknown : ¬ (row.layer.text = "ingress".toList ∨ row.layer.text = "delivered".toList) := by
    rw [Layer.text_ingress, Layer.text_delivered, hlayer]
    rcases hkind with rfl | rfl <;> decide
  rw [hrows, assertOutput, readRows_printedFile, ok_bind, List.map_cons, validateRows,
    if_neg fun hempty => List.cons_ne_nil _ _ hempty.1, validateRowsFrom,
    (row.isRow bucketStartIso).validateRow, if_neg (by omega), if_neg hunknown]
  rfl

/-- The rows of the second of two checkpoints of a channel. -/
def channelFlowBatch : List ChannelSample :=
  match ((freshChannel.readCheckpoint tcpChannel
      (channelFlowInput tcpChannel 5000000000 1000)).2.readCheckpoint tcpChannel
        (channelFlowInput tcpChannel 8000000000 4000)).1 with
  | .ok ems => ems.flatMap Emission.rows
  | .error _ => []

theorem channel_output_refused_flow :
    ∃ file, printedFile (ChannelSample.toDict fun _ => []) [channelFlowBatch] = .ok file ∧
      assertOutput (fun _ => .nan) .generic true file =
        .error (.unexpectedLayer 0 (.str "tcp_channel".toList)) := by
  have hbatch : IsChannelBatch channelFlowBatch :=
    ⟨tcpChannel, .inl rfl, (freshChannel.readCheckpoint tcpChannel
      (channelFlowInput tcpChannel 5000000000 1000)).2, _,
        channelFlowInput tcpChannel 8000000000 4000, _, rfl, rfl⟩
  obtain ⟨file, hfile, hrefuse⟩ := channel_output_refused (fun _ => .nan) (fun _ => []) .generic
    true [channelFlowBatch] (List.forall_mem_singleton.mpr hbatch)
  exact ⟨file, hfile, hrefuse _ [] rfl⟩

end UdpAnalyzer

import UdpAnalyzer.DeltaLaw

/-! The rows of a sample. An enricher writes the columns of a process, the cookie of the socket
and the layer; everything else a row has from its sample. -/

namespace UdpAnalyzer

/-- The row is the sample but for the columns an enricher writes. -/
def UdpSample.Gives (sample row : UdpSample) : Prop :=
  row = { sample with
    netnsId := row.netnsId
    containerId := row.containerId
    processName := row.processName
    hostPid := row.hostPid
    containerPid := row.containerPid
    socketId := row.socketId
    layer := row.layer }

theorem UdpSample.gives_refl (sample : UdpSample) : sample.Gives sample := rfl

namespace ProcessSocketEnricher

theorem enrich_gives {en en' : ProcessSocketEnricher} {call : SocketsCall} {sample : UdpSample}
    {rows : List UdpSample} (h : en.enrich call sample = (.ok rows, en')) :
    ∀ row ∈ rows, sample.Gives row := by
  simp only [enrich] at h
  split at h
  · cases h
  next found en₁ hsockets =>
    cases h
    intro row hrow
    rcases List.mem_cons.mp hrow with rfl | hrow
    · exact row.gives_refl
    · obtain ⟨process, -, rfl⟩ := List.mem_map.mp hrow
      rfl

theorem attributedRows_gives {sample : UdpSample} {cookie : ℤ} {matched : List ProcessSocket} :
    ∀ row ∈ attributedRows sample cookie matched, sample.Gives row := by
  intro row hrow
  cases matched with
  | nil =>
    rw [attributedRows, List.mem_singleton] at hrow
    rw [hrow]
    rfl
  | cons first rest =>
    obtain ⟨process, -, rfl⟩ := List.mem_map.mp hrow
    rfl

theorem enrichExact_gives {en en' : ProcessSocketEnricher} {call : SocketsCall}
    {sample : UdpSample} {inode cookie : ℤ} {rows : List UdpSample}
    (h : en.enrichExact call sample inode cookie = (.ok rows, en')) :
    ∀ row ∈ rows, sample.Gives row := by
  simp only [enrichExact] at h
  split_ifs at h
  · cases h
    exact attributedRows_gives
  · split at h
    · cases h
    next found en₁ hsockets =>
      cases h
      exact attributedRows_gives

end ProcessSocketEnricher

namespace EbpfIngressCollector

theorem filter_gives {sample : UdpSample} {rows : List UdpSample} (f : SampleFilter)
    (h : ∀ row ∈ rows, sample.Gives row) :
    ∀ row ∈ rows.filter f.matchesSample, sample.Gives row :=
  fun row hrow => h row (List.mem_of_mem_filter hrow)

/-- The rows of an emission are rows of the sample it has built. -/
theorem emitIngress_gives (c : EbpfIngressCollector) (input : IngressInput)
    (bucketNs elapsed : ℤ) : CounterLoop.EmitSpec (c.emitIngress input bucketNs elapsed)
      (fun _ => True) fun e d b rows =>
        ingressSample input c.ifname bucketNs elapsed e d = .ok b ∧ ∀ row ∈ rows, b.Gives row := by
  intro e d s b rows s' _ hemit
  obtain ⟨enricher, n⟩ := s
  have hsample := emitIngress_built hemit
  refine ⟨⟨hsample, ?_⟩, trivial⟩
  simp only [emitIngress, hsample] at hemit
  split at hemit
  · split at hemit
    · cases hemit
    next enriched en henrich =>
      cases hemit
      exact filter_gives _ (ProcessSocketEnricher.enrich_gives henrich)
  · cases hemit
    refine filter_gives _ fun row hrow => ?_
    rw [List.mem_singleton.mp hrow]
    exact b.gives_refl

theorem emitDelivered_gives (c : EbpfIngressCollector) (input : IngressInput)
    (bucketNs elapsed : ℤ) : CounterLoop.EmitSpec (c.emitDelivered input bucketNs elapsed)
      (fun _ => True) fun e d b rows =>
        deliveredSample input c.ifname bucketNs elapsed e d = .ok b ∧
          ∀ row ∈ rows, b.Gives row := by
  intro e d s b rows s' _ hemit
  obtain ⟨enricher, n⟩ := s
  have hsample := emitDelivered_built hemit
  refine ⟨⟨hsample, ?_⟩, trivial⟩
  simp only [emitDelivered, hsample] at hemit
  split at hemit
  · split at hemit
    · cases hemit
    next enriched en henrich =>
      cases hemit
      exact filter_gives _ (ProcessSocketEnricher.enrichExact_gives henrich)
  · cases hemit
    refine filter_gives _ fun row hrow => ?_
    rw [List.mem_singleton.mp hrow]
    exact b.gives_refl

end EbpfIngressCollector

end UdpAnalyzer

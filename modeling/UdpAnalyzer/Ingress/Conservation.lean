import UdpAnalyzer.DeltaLaw
import UdpAnalyzer.Ingress.Inventory
import UdpAnalyzer.Lib.Multiplicity

/-! Delivered rows and the counts of the kernel. In cookie mode a delivered increment
becomes one row for each process that holds the socket, each with the full counts,
so the rows of a key add up to its increment exactly when at most one process of
the inventory that is consulted holds the socket. -/

namespace UdpAnalyzer

namespace EbpfIngressCollector

/-- The processes that hold the socket of an entry, in the inventory the enricher
consults for it. -/
def holders (input : IngressInput) (s : Enriching) (entry : DeliveredMapEntry) :
    List ProcessSocket :=
  match s with
  | (none, _) => []
  | (some en, n) =>
    if entry.value.socketInode = 0 then []
    else
      match (en.sockets (input.sockets n)).1 with
      | .ok found => findInodeMatches found entry.value.socketInode
      | .error _ => []

/-- One increment of the delivered pass, as far as the enricher is concerned. -/
def enrichStep (c : EbpfIngressCollector) (input : IngressInput) (s : Enriching)
    (inc : CounterLoop.Increment DeliveredMapEntry UdpIdentity UdpMapCounters) : Enriching :=
  (c.emitDelivered input (bucketStartNs input.nowNs c.bucketMs)
    (elapsedMs c.bucketMs c.lastCheckpointNs input.nowNs) inc.first inc.delta s).2

/-- At most one process holds the socket of the key when its increment is enriched. -/
def SingleHolder (input : IngressInput) (key : UdpIdentity) (s : Enriching)
    (inc : CounterLoop.Increment DeliveredMapEntry UdpIdentity UdpMapCounters) : Prop :=
  inc.identity = key → (holders input s inc.first).length ≤ 1

instance (input : IngressInput) (key : UdpIdentity) (s : Enriching)
    (inc : CounterLoop.Increment DeliveredMapEntry UdpIdentity UdpMapCounters) :
    Decidable (SingleHolder input key s inc) :=
  inferInstanceAs (Decidable (_ → _))

/-- A count of the rows a delivered key was emitted with. -/
def deliveredTotal (out : Checkpoint) (key : UdpIdentity) (f : UdpField) : ℤ :=
  rowSum out.delivered key fun row => UdpMapCounters.field f row.counters

/-- The rows of an increment are its sample once for each holder, and once when there
is none. -/
theorem attributedRows_sum (sample : UdpSample) (cookie : ℤ) (matched : List ProcessSocket)
    (f : UdpField) :
    ((ProcessSocketEnricher.attributedRows sample cookie matched).map fun row =>
      UdpMapCounters.field f row.counters).sum =
      (max 1 matched.length : ℕ) * UdpMapCounters.field f sample.counters := by
  have hcopies : ∀ l : List ProcessSocket,
      ((l.map (ProcessSocketEnricher.attributed sample cookie).withProcess).map fun row =>
        UdpMapCounters.field f row.counters).sum =
        (l.length : ℤ) * UdpMapCounters.field f sample.counters := by
    intro l
    induction l with
    | nil => simp
    | cons p l ih =>
      have hrow : UdpMapCounters.field f
          ((ProcessSocketEnricher.attributed sample cookie).withProcess p).counters =
            UdpMapCounters.field f sample.counters := by cases f <;> rfl
      rw [List.map_cons, List.map_cons, List.sum_cons, ih, hrow, List.length_cons, Nat.cast_succ,
        add_mul, one_mul, add_comm]
  cases matched with
  | nil =>
    show UdpMapCounters.field f sample.counters + 0 = _
    rw [add_zero]
    exact (one_mul _).symm
  | cons p rest =>
    have hlength : max 1 (p :: rest).length = (p :: rest).length := by
      rw [List.length_cons]
      omega
    rw [hlength]
    exact hcopies (p :: rest)

/-- Without a filter a delivered emission repeats its increment for every holder. -/
theorem emitDelivered_repeats {c : EbpfIngressCollector} (hfilter : c.sampleFilter = {})
    (input : IngressInput) (bucketNs elapsed : ℤ) :
    deliveredLoop.Repeats (c.emitDelivered input bucketNs elapsed)
      (fun f row => UdpMapCounters.field f row.counters) (fun s e => (holders input s e).length) := by
  intro e d s b rows s' hemit f
  obtain ⟨-, hcounters, -⟩ := deliveredSample_spec (emitDelivered_built hemit)
  have hd : deliveredLoop.field f d = UdpMapCounters.field f b.counters := by
    rw [hcounters]
    rfl
  rw [hd]
  have hsample := emitDelivered_built hemit
  obtain ⟨enricher, n⟩ := s
  simp only [emitDelivered, hsample, filter_matchesSample hfilter] at hemit
  cases enricher with
  | none =>
    cases hemit
    show UdpMapCounters.field f b.counters + 0 = (1 : ℕ) * _
    rw [add_zero, Nat.cast_one, one_mul]
  | some en =>
    dsimp only at hemit
    unfold ProcessSocketEnricher.enrichExact at hemit
    unfold holders
    dsimp only
    split_ifs at hemit ⊢ with hinode
    · cases hemit
      exact attributedRows_sum b e.key.socketCookie [] f
    · rcases hsockets : en.sockets (input.sockets n) with ⟨r, en'⟩
      rw [hsockets] at hemit
      cases r with
      | error x => cases hemit
      | ok found =>
        cases hemit
        exact attributedRows_sum b e.key.socketCookie _ f

/-! ### From the run to the delivered pass -/

/-- In cookie mode the ingress pass leaves the enricher alone. -/
theorem readIngress_enricher {c c' : EbpfIngressCollector} {input : IngressInput} {n n' : ℕ}
    {bucketNs elapsed : ℤ} {ems : List UdpEmission} (hcookie : c.deliveryAttribution = .cookie)
    (h : c.readIngress input n bucketNs elapsed = (.ok ems, c', n')) :
    c'.processEnricher = c.processEnricher ∧ n' = n := by
  simp only [readIngress] at h
  cases hd : input.ingressDump with
  | error e => rw [hd] at h; cases h
  | ok dump =>
    rw [hd] at h
    rcases hr : ingressLoop.readDump (c.emitIngress input bucketNs elapsed) dump c.previous
        (c.processEnricher, n) with ⟨r, previous, s'⟩
    dsimp only at h
    rw [hr] at h
    cases h
    have hkeep : ∀ e d s b rows s', c.emitIngress input bucketNs elapsed e d s =
        (.ok (b, rows), s') → s' = s := by
      intro e d s b rows s' hemit
      obtain ⟨enricher, k⟩ := s
      have hsample := emitIngress_built hemit
      simp only [emitIngress, hsample, hcookie] at hemit
      cases hemit
      rfl
    have hstate : s' = (c.processEnricher, n) :=
      CounterLoop.emits_state hkeep (ingressLoop.readDump_emits hr)
    subst hstate
    exact ⟨rfl, rfl⟩

/-- The delivered pass of a completed checkpoint in cookie mode: it starts with the
enricher the checkpoint started with. -/
theorem readCheckpoint_delivered {c c' : EbpfIngressCollector} {input : IngressInput}
    {k : Checkpoint} (hcookie : c.deliveryAttribution = .cookie) (hreader : c.deliveredReader.isSome)
    (h : c.readCheckpoint input = (.ok k, c')) :
    ∃ s', CounterLoop.Emits (c.emitDelivered input (bucketStartNs input.nowNs c.bucketMs)
        (elapsedMs c.bucketMs c.lastCheckpointNs input.nowNs))
      (deliveredLoop.dumpIncrements c.deliveredPrevious (listed input.deliveredDump))
      (c.processEnricher, 0) k.delivered s' := by
  obtain ⟨c₁, n₁, n₂, hi, hd⟩ := readCheckpoint_passes h
  obtain ⟨-, hc₁⟩ := readIngress_completed (emitIngress_spec _ input _ _) hi
  have hmode : ({ c with lastCheckpointNs := some input.nowNs } :
      EbpfIngressCollector).deliveryAttribution = .cookie := hcookie
  obtain ⟨henricher, hn⟩ := readIngress_enricher hmode hi
  subst hn
  obtain ⟨id, hid⟩ := Option.isSome_iff_exists.mp hreader
  rw [hc₁, henricher] at hd
  simp only [readDelivered, hid] at hd
  cases hdump : input.deliveredDump with
  | error e => rw [hdump] at hd; cases hd
  | ok dump =>
    rw [hdump] at hd
    rcases hr : deliveredLoop.readDump (c.emitDelivered input (bucketStartNs input.nowNs c.bucketMs)
        (elapsedMs c.bucketMs c.lastCheckpointNs input.nowNs)) dump c.deliveredPrevious
        (c.processEnricher, 0) with ⟨r, previous, s'⟩
    have hok : r = .ok k.delivered := (congrArg Prod.fst hr).symm.trans (congrArg Prod.fst hd)
    subst hok
    exact ⟨s', deliveredLoop.readDump_emits hr⟩

/-- The configuration of a collector. -/
def config (c : EbpfIngressCollector) : SampleFilter × DeliveryAttribution :=
  (c.sampleFilter, c.deliveryAttribution)

theorem readCheckpoint_config {c c' : EbpfIngressCollector} {input : IngressInput} {k : Checkpoint}
    (h : c.readCheckpoint input = (.ok k, c')) : c'.config = c.config := by
  obtain ⟨c₁, n₁, n₂, hi, hd⟩ := readCheckpoint_passes h
  obtain ⟨-, hc₁⟩ := readIngress_completed (emitIngress_spec _ input _ _) hi
  obtain ⟨-, -, hc'⟩ := readDelivered_completed (emitDelivered_spec _ input _ _) hd
  rw [hc', hc₁]
  rfl

theorem completedRun_config {inputs : List IngressInput} {c₀ c : EbpfIngressCollector}
    {outs : List Checkpoint} (h : completedRun readCheckpoint inputs c₀ = some (outs, c)) :
    c.config = c₀.config := by
  induction inputs using List.reverseRecOn generalizing outs c with
  | nil => cases h; rfl
  | append_singleton inputs last ih =>
    obtain ⟨outs', c', out, hrun, hstep, -⟩ := completedRun_concat h
    rw [readCheckpoint_config hstep, ih hrun]

/-- The kernel's increment of a delivered key at the checkpoint after a run. -/
def deliveredDelta (inputs : List IngressInput) (last : IngressInput) (key : UdpIdentity)
    (f : UdpField) : ℤ :=
  Snapshot.gain
    (leftBy deliveredLoop (inputs.getLast?.map fun a => (a.nowNs, listed a.deliveredDump)))
    (deliveredLoop.snapshot (listed last.deliveredDump)) key f

end EbpfIngressCollector

open EbpfIngressCollector in
/-- The delivered rows of a key carry the kernel's increment exactly when at most one
process of the inventory consulted for the key holds its socket. -/
theorem delivered_rows_conserve_iff (c₀ c c' : EbpfIngressCollector) (inputs : List IngressInput)
    (last : IngressInput) (outs : List Checkpoint) (out : Checkpoint) (key : UdpIdentity)
    (hfresh : c₀.Fresh) (hcookie : c₀.deliveryAttribution = .cookie)
    (hreader : c₀.deliveredReader.isSome) (hfilter : c₀.sampleFilter = {})
    (hrun : completedRun readCheckpoint inputs c₀ = some (outs, c))
    (hstep : c.readCheckpoint last = (.ok out, c')) :
    (∀ f, deliveredTotal out key f = deliveredDelta inputs last key f) ↔
      Along (enrichStep c last) (SingleHolder last key) (c.processEnricher, 0)
        (deliveredLoop.dumpIncrements c.deliveredPrevious (listed last.deliveredDump)) := by
  obtain ⟨-, hview, -, hreader'⟩ := completedRun_state hfresh hrun
  obtain ⟨hfilter', hcookie'⟩ := Prod.mk.inj (completedRun_config hrun)
  obtain ⟨s', hemits⟩ := readCheckpoint_delivered (hcookie'.trans hcookie)
    (by rw [hreader']; exact hreader) hstep
  have hrepeats := emitDelivered_repeats (hfilter'.trans hfilter) last
    (bucketStartNs last.nowNs c.bucketMs) (elapsedMs c.bucketMs c.lastCheckpointNs last.nowNs)
  have hiff := (deliveredLoop.rowSum_eq_iff hrepeats (fun _ => deliveredLoop.increment_pos)
    hemits key).2
  have hdelta : ∀ f, deliveredLoop.incrementSum (deliveredLoop.dumpIncrements c.deliveredPrevious
      (listed last.deliveredDump)) key f = deliveredDelta inputs last key f := by
    intro f
    rw [deliveredLoop.incrementSum_dumpIncrements, hview hreader]
    rfl
  simp only [hdelta] at hiff
  exact hiff

/-! A receiver that forked: both processes hold the socket when its ten datagrams are
delivered. -/

def receiverFiles (pid : ℤ) : ProcessFiles where
  pid := pid
  comm := .ok "ffmpeg\n".toList
  fds := .ok [.ok "socket:[555]".toList]
  udp := .ok ("  sl local_address rem_address st queues tr retrnsmt uid timeout inode\n" ++
    "   0: 00000000:1388 00000000:0000 07 0:0 0:0 0 1000 0 555 2\n").toList

def deliveredKey : DeliveredMapKey := ⟨99, 0x0A0200C0, 0x146433C6, 40000, 5000, 2, 17⟩

def deliveredInput (processes : List ProcessFiles) (nowNs packets : ℤ) : IngressInput where
  nowNs := nowNs
  ingressDump := .ok []
  deliveredDump := .ok [⟨deliveredKey, ⟨packets, 1316 * packets, 555, 2⟩⟩]
  ifIndexToName _ := .error .osError
  sockets _ := ⟨nowNs, scan processes⟩

def cookieCollector : EbpfIngressCollector where
  ifname := "eth0".toList
  bucketMs := 1000
  processEnricher := some {}
  deliveryAttribution := .cookie
  deliveredReader := some 78

def forkedFirst : IngressInput :=
  deliveredInput [receiverFiles 100, receiverFiles 101] 5000000000 10

def forkedLast : IngressInput :=
  deliveredInput [receiverFiles 100, receiverFiles 101] 8000000000 20

open EbpfIngressCollector in
theorem forked_receiver_counted_twice :
    ((completedRun readCheckpoint [forkedFirst, forkedLast] cookieCollector).map fun (outs, _) =>
      outs.map fun out => deliveredTotal out deliveredKey.identity .packets) = some [0, 20] ∧
    deliveredDelta [forkedFirst] forkedLast deliveredKey.identity .packets = 10 := by
  decide +kernel

def singleFirst : IngressInput := deliveredInput [receiverFiles 100] 5000000000 10

def singleLast : IngressInput := deliveredInput [receiverFiles 100] 8000000000 20

/-- The checkpoint and the collector after it, of a receiver on its own. -/
def singleRun : List EbpfIngressCollector.Checkpoint × EbpfIngressCollector :=
  (completedRun EbpfIngressCollector.readCheckpoint [singleFirst] cookieCollector).get
    (by decide +kernel)

open EbpfIngressCollector in
theorem delivered_rows_conserve_iff_single : ∃ out c',
    singleRun.2.readCheckpoint singleLast = (.ok out, c') ∧
    ∀ f, deliveredTotal out deliveredKey.identity f =
      deliveredDelta [singleFirst] singleLast deliveredKey.identity f := by
  have hsome : (completedRun readCheckpoint [singleFirst] cookieCollector).isSome = true := by
    decide +kernel
  have hrun : completedRun readCheckpoint [singleFirst] cookieCollector =
      some (singleRun.1, singleRun.2) := (Option.some_get hsome).symm
  have hcompletes : (singleRun.2.readCheckpoint singleLast).1.isOk = true := by decide +kernel
  rcases hstep : singleRun.2.readCheckpoint singleLast with ⟨r, c'⟩
  cases r with
  | error e =>
    rw [hstep] at hcompletes
    cases hcompletes
  | ok out =>
    refine ⟨out, c', rfl, ?_⟩
    apply (delivered_rows_conserve_iff cookieCollector singleRun.2 c' [singleFirst] singleLast
      singleRun.1 out deliveredKey.identity ⟨rfl, rfl, rfl⟩ rfl rfl rfl hrun hstep).mpr
    decide +kernel

end UdpAnalyzer

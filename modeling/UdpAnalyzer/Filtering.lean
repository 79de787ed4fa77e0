import UdpAnalyzer.Channel.Collector
import UdpAnalyzer.DryRun
import UdpAnalyzer.Ingress.Collector
import UdpAnalyzer.Lib.Related

/-! The filter of a collector is a view of what the collector does without one. A filter is
asked about a row after everything else about it is decided, so two collectors that differ in
their filters only go through the same states. -/

namespace UdpAnalyzer

open CounterLoop (Selects select rows_select readDump_select)

/-! ### The ingress collector -/

namespace EbpfIngressCollector

/-- The collector with another filter. -/
def withFilter (f : SampleFilter) (c : EbpfIngressCollector) : EbpfIngressCollector :=
  { c with sampleFilter := f }

/-- The emissions of a checkpoint with the rows that match. -/
def Checkpoint.select (f : SampleFilter) (k : Checkpoint) : Checkpoint :=
  ⟨k.ingress.map (CounterLoop.select f.matchesSample),
    k.delivered.map (CounterLoop.select f.matchesSample)⟩

theorem samples_select (f : SampleFilter) (k : Checkpoint) :
    (k.select f).samples = k.samples.filter f.matchesSample := by
  simp only [Checkpoint.samples, Checkpoint.select, rows_select, List.filter_append]

theorem filter_matches_empty (rows : List UdpSample) :
    rows.filter (SampleFilter.matchesSample {}) = rows := by
  simp

variable (f : SampleFilter) {c : EbpfIngressCollector} (hc : c.sampleFilter = {})
  (input : IngressInput)

include hc

theorem emitIngress_selects (bucketNs elapsed : ℤ) :
    Selects f.matchesSample ((c.withFilter f).emitIngress input bucketNs elapsed)
      (c.emitIngress input bucketNs elapsed) := by
  rintro entry delta ⟨enricher, n⟩
  simp only [emitIngress, withFilter, hc]
  cases ingressSample input c.ifname bucketNs elapsed entry delta with
  | error e => rfl
  | ok sample =>
    dsimp only
    split
    · next en _ =>
      rcases en.enrich (input.sockets n) sample with ⟨_ | rows, en'⟩
      · rfl
      · simp only [filter_matches_empty]
        rfl
    · simp only [filter_matches_empty]
      rfl

theorem emitDelivered_selects (bucketNs elapsed : ℤ) :
    Selects f.matchesSample ((c.withFilter f).emitDelivered input bucketNs elapsed)
      (c.emitDelivered input bucketNs elapsed) := by
  rintro entry delta ⟨enricher, n⟩
  simp only [emitDelivered, withFilter, hc]
  cases deliveredSample input c.ifname bucketNs elapsed entry delta with
  | error e => rfl
  | ok sample =>
    cases enricher with
    | none =>
      simp only [filter_matches_empty]
      rfl
    | some en =>
      dsimp only
      rcases en.enrichExact (input.sockets n) sample entry.value.socketInode
        entry.key.socketCookie with ⟨_ | rows, en'⟩
      · rfl
      · simp only [filter_matches_empty]
        rfl

omit hc in
/-- What reading one of the maps comes to under a filter. -/
def selected (out : Except PyExc (List UdpEmission) × EbpfIngressCollector × ℕ) :
    Except PyExc (List UdpEmission) × EbpfIngressCollector × ℕ :=
  (out.1.map (List.map (select f.matchesSample)), out.2.1.withFilter f, out.2.2)

theorem readIngress_select (n : ℕ) (bucketNs elapsed : ℤ) :
    (c.withFilter f).readIngress input n bucketNs elapsed =
        selected f (c.readIngress input n bucketNs elapsed) ∧
      (c.readIngress input n bucketNs elapsed).2.1.sampleFilter = {} := by
  simp only [readIngress]
  cases input.ingressDump with
  | error e => exact ⟨rfl, hc⟩
  | ok dump =>
    dsimp only
    rw [readDump_select (emitIngress_selects f hc input bucketNs elapsed)]
    exact ⟨rfl, hc⟩

theorem readDelivered_select (n : ℕ) (bucketNs elapsed : ℤ) :
    (c.withFilter f).readDelivered input n bucketNs elapsed =
      selected f (c.readDelivered input n bucketNs elapsed) := by
  have hreader : (c.withFilter f).deliveredReader = c.deliveredReader := rfl
  simp only [readDelivered, hreader]
  cases c.deliveredReader with
  | none => rfl
  | some mapId =>
    cases input.deliveredDump with
    | error e => rfl
    | ok dump =>
      dsimp only
      rw [readDump_select (emitDelivered_selects f hc input bucketNs elapsed)]
      rfl

theorem readCheckpoint_select :
    (c.withFilter f).readCheckpoint input =
      Prod.map (Except.map (Checkpoint.select f)) (withFilter f) (c.readCheckpoint input) := by
  obtain ⟨hread, hkept⟩ := @readIngress_select f { c with lastCheckpointNs := some input.nowNs } hc
    input 0 (bucketStartNs input.nowNs c.bucketMs)
    (elapsedMs c.bucketMs c.lastCheckpointNs input.nowNs)
  unfold readCheckpoint
  dsimp only [withFilter] at hread hkept ⊢
  rw [hread]
  revert hkept
  generalize readIngress _ input 0 _ _ = out
  intro hkept
  obtain ⟨_ | ingress, c₁, n⟩ := out
  · rfl
  · dsimp only [selected, Except.map]
    rw [readDelivered_select f hkept]
    generalize c₁.readDelivered input n _ _ = out
    obtain ⟨_ | delivered, c₂, n'⟩ := out
    · rfl
    · rfl

end EbpfIngressCollector

/-! ### The channel collectors -/

namespace ChannelCollector

/-- The collector with another filter. -/
def withFilter (f : ChannelSampleFilter) (c : ChannelCollector) : ChannelCollector :=
  { c with sampleFilter := f }

theorem filter_matches_empty (rows : List ChannelSample) :
    rows.filter (ChannelSampleFilter.matchesSample {}) = rows := by
  simp

variable (kind : ChannelKind) (f : ChannelSampleFilter) {c : ChannelCollector}
  (hc : c.sampleFilter = {}) (input : ChannelInput)

theorem ensureAlive_select (c : ChannelCollector) :
    (c.withFilter f).ensureAlive kind input =
      ((c.ensureAlive kind input).1, (c.ensureAlive kind input).2.withFilter f) := by
  have hattachment : (c.withFilter f).attachment = c.attachment := rfl
  simp only [ensureAlive, hattachment]
  split
  · rfl
  · rfl
  · split
    · rfl
    · split <;> rfl

theorem sampleFilter_ensureAlive (c : ChannelCollector) :
    (c.ensureAlive kind input).2.sampleFilter = c.sampleFilter := by
  unfold ensureAlive
  split
  · rfl
  · rfl
  · split
    · rfl
    · split <;> rfl

include hc

theorem emitFlow_selects (bucketNs elapsed : ℤ) :
    Selects f.matchesSample ((c.withFilter f).emitFlow kind input bucketNs elapsed)
      (c.emitFlow kind input bucketNs elapsed) := by
  intro entry delta pidUnits
  simp only [emitFlow, withFilter, hc]
  rcases unitForPid input entry.value.pid pidUnits with ⟨_ | unit, pidUnits'⟩
  · rfl
  · dsimp only
    cases flowSample kind c.catalog input bucketNs elapsed entry delta unit with
    | error e => rfl
    | ok sample =>
      simp only [filter_matches_empty]
      rfl

theorem readFlows_select (bucketNs elapsed : ℤ) :
    readFlows kind (c.withFilter f) input bucketNs elapsed =
      Prod.map (Except.map (List.map (select f.matchesSample))) (withFilter f)
        (readFlows kind c input bucketNs elapsed) := by
  simp only [readFlows]
  cases input.dump with
  | error e => rfl
  | ok dump =>
    dsimp only
    rw [readDump_select (emitFlow_selects kind f hc input bucketNs elapsed)]
    rfl

theorem readCheckpoint_select :
    (c.withFilter f).readCheckpoint kind input =
      Prod.map (Except.map (List.map (select f.matchesSample))) (withFilter f)
        (c.readCheckpoint kind input) := by
  have hkept := (sampleFilter_ensureAlive kind input c).trans hc
  simp only [readCheckpoint, ensureAlive_select]
  generalize c.ensureAlive kind input = out at hkept ⊢
  obtain ⟨_ | _, c₁⟩ := out
  · rfl
  · exact @readFlows_select kind f
      { c₁ with pidUnits := ∅, lastCheckpointNs := some input.nowNs } hkept input _ _

end ChannelCollector

/-! ### The collectors without a kernel -/

def DryRunCollector.withFilter (f : SampleFilter) (c : DryRunCollector) : DryRunCollector :=
  { c with sampleFilter := f }

def ChannelDryRunCollector.withFilter (f : ChannelSampleFilter) (c : ChannelDryRunCollector) :
    ChannelDryRunCollector :=
  { c with sampleFilter := f }

theorem DryRunCollector.readCheckpoint_select (f : SampleFilter) {c : DryRunCollector}
    (hc : c.sampleFilter = {}) (nowNs : ℤ) :
    (c.withFilter f).readCheckpoint nowNs =
      Prod.map (Except.map (List.filter f.matchesSample)) (withFilter f)
        (c.readCheckpoint nowNs) := by
  simp only [readCheckpoint, hc, EbpfIngressCollector.filter_matches_empty]
  rfl

theorem ChannelDryRunCollector.checkpoint_select (demoTarget : ChannelTarget)
    (row : ChannelDryRunCollector → ℤ → ChannelTarget → ChannelSample) (f : ChannelSampleFilter)
    (hrow : ∀ c bucketNs target, row (c.withFilter f) bucketNs target = row c bucketNs target)
    {c : ChannelDryRunCollector} (hc : c.sampleFilter = {}) (nowNs : ℤ) :
    checkpoint demoTarget row (c.withFilter f) nowNs =
      Prod.map (Except.map (List.filter f.matchesSample)) (withFilter f)
        (checkpoint demoTarget row c nowNs) := by
  simp only [checkpoint, hc, ChannelCollector.filter_matches_empty]
  have hsample := hrow { c with tick := c.tick + 1 } (bucketStartNs nowNs c.bucketMs)
    (c.catalog.targets.head?.getD demoTarget)
  dsimp only [withFilter] at hsample ⊢
  rw [hsample]
  simp only [hc]
  rfl

/-! ### Runs -/

/-- Two runs over the same inputs, of which the second is not filtered: after every checkpoint
the states differ in the filter only, both checkpoints raise the same exception or none, and
the rows of the first are those of the second that match, in their order. -/
def IsView {σ α β R : Type} (step : σ → α → Except PyExc β × σ) (rows : β → List R)
    (keep : R → Bool) (withFilter : σ → σ) (inputs : List α) (filtered unfiltered : σ) : Prop :=
  List.Forall₂ (fun out out₀ => out.1.map rows = out₀.1.map (fun b => (rows b).filter keep) ∧
      out.2 = withFilter out₀.2)
    (outcomes step inputs filtered) (outcomes step inputs unfiltered)

/-- A step that commutes with the filter of a collector makes a run that does. -/
theorem isView_of_step {σ φ α β R : Type} {step : σ → α → Except PyExc β × σ} {rows : β → List R}
    {keep : φ → R → Bool} {withFilter : φ → σ → σ} (select : φ → β → β) (empty : φ)
    (hrows : ∀ f b, rows (select f b) = (rows b).filter (keep f))
    (hstep : ∀ f s a, withFilter empty s = s →
      step (withFilter f s) a = Prod.map (Except.map (select f)) (withFilter f) (step s a))
    (f : φ) (inputs : List α) (s : σ) (hs : withFilter empty s = s) :
    IsView step rows (keep f) (withFilter f) inputs (withFilter f s) s := by
  induction inputs generalizing s with
  | nil => exact .nil
  | cons a rest ih =>
    -- without a filter the state that is left has none either
    have hnext : withFilter empty (step s a).2 = (step s a).2 := by
      have hsame := hstep empty s a hs
      rw [hs] at hsame
      exact (congrArg Prod.snd hsame).symm
    have hfiltered : (step (withFilter f s) a).2 = withFilter f (step s a).2 := by
      rw [hstep f s a hs]
      rfl
    refine .cons ⟨?_, hfiltered⟩ ?_
    · rw [hstep f s a hs]
      generalize step s a = out
      obtain ⟨_ | b, s'⟩ := out
      · rfl
      · exact congrArg Except.ok (hrows f b)
    · rw [hfiltered]
      exact ih _ hnext

theorem EbpfIngressCollector.isView (f : SampleFilter) (inputs : List IngressInput)
    (c : EbpfIngressCollector) :
    IsView readCheckpoint Checkpoint.samples f.matchesSample (withFilter f) inputs (c.withFilter f)
      (c.withFilter {}) := by
  have hstep : ∀ f s input, withFilter {} s = s → readCheckpoint (withFilter f s) input =
      Prod.map (Except.map (Checkpoint.select f)) (withFilter f) (s.readCheckpoint input) :=
    fun f s input hs => readCheckpoint_select f (congrArg sampleFilter hs).symm input
  exact isView_of_step Checkpoint.select {} samples_select hstep f inputs
    (c.withFilter {}) rfl

theorem ChannelCollector.isView (kind : ChannelKind) (f : ChannelSampleFilter)
    (inputs : List ChannelInput) (c : ChannelCollector) :
    IsView (readCheckpoint kind) (List.flatMap Emission.rows) f.matchesSample (withFilter f) inputs
      (c.withFilter f) (c.withFilter {}) := by
  have hstep : ∀ f s input, withFilter {} s = s → readCheckpoint kind (withFilter f s) input =
      Prod.map (Except.map (List.map (select f.matchesSample))) (withFilter f)
        (s.readCheckpoint kind input) :=
    fun f s input hs => readCheckpoint_select kind f (congrArg sampleFilter hs).symm input
  exact isView_of_step (fun f => List.map (select f.matchesSample)) {}
    (fun f => rows_select f.matchesSample) hstep f inputs (c.withFilter {}) rfl

theorem DryRunCollector.isView (f : SampleFilter) (clock : List ℤ) (c : DryRunCollector) :
    IsView readCheckpoint id f.matchesSample (withFilter f) clock (c.withFilter f)
      (c.withFilter {}) := by
  have hstep : ∀ f s nowNs, withFilter {} s = s → readCheckpoint (withFilter f s) nowNs =
      Prod.map (Except.map (List.filter f.matchesSample)) (withFilter f) (s.readCheckpoint nowNs) :=
    fun f s nowNs hs => readCheckpoint_select f (congrArg sampleFilter hs).symm nowNs
  exact isView_of_step (fun f => List.filter f.matchesSample) {} (fun _ _ => rfl) hstep f clock
    (c.withFilter {}) rfl

theorem ChannelDryRunCollector.isView (demoTarget : ChannelTarget)
    {row : ChannelDryRunCollector → ℤ → ChannelTarget → ChannelSample}
    (hrow : ∀ f c bucketNs target, row (withFilter f c) bucketNs target = row c bucketNs target)
    (f : ChannelSampleFilter) (clock : List ℤ) (c : ChannelDryRunCollector) :
    IsView (checkpoint demoTarget row) id f.matchesSample (withFilter f) clock (c.withFilter f)
      (c.withFilter {}) := by
  have hstep : ∀ f s nowNs, withFilter {} s = s →
      checkpoint demoTarget row (withFilter f s) nowNs =
        Prod.map (Except.map (List.filter f.matchesSample)) (withFilter f)
          (checkpoint demoTarget row s nowNs) :=
    fun f s nowNs hs =>
      checkpoint_select demoTarget row f (hrow f) (congrArg sampleFilter hs).symm nowNs
  exact isView_of_step (fun f => List.filter f.matchesSample) {} (fun _ _ => rfl) hstep f clock
    (c.withFilter {}) rfl

/-- Of every collector, filter and run: a filter changes neither the states nor the exceptions,
and selects the rows of each checkpoint. -/
theorem filter_only_selects (f : SampleFilter) (g : ChannelSampleFilter)
    (inputs : List IngressInput) (flows : List ChannelInput) (clock : List ℤ) :
    (∀ c : EbpfIngressCollector, IsView EbpfIngressCollector.readCheckpoint
      EbpfIngressCollector.Checkpoint.samples f.matchesSample (.withFilter f) inputs
        (c.withFilter f) (c.withFilter {})) ∧
    (∀ c : ChannelCollector, IsView TcpChannelCollector.readCheckpoint
      (List.flatMap Emission.rows) g.matchesSample (.withFilter g) flows
        (c.withFilter g) (c.withFilter {})) ∧
    (∀ c : ChannelCollector, IsView UdpChannelCollector.readCheckpoint
      (List.flatMap Emission.rows) g.matchesSample (.withFilter g) flows
        (c.withFilter g) (c.withFilter {})) ∧
    (∀ c : DryRunCollector, IsView DryRunCollector.readCheckpoint id f.matchesSample
      (.withFilter f) clock (c.withFilter f) (c.withFilter {})) ∧
    (∀ c : ChannelDryRunCollector, IsView TcpChannelDryRunCollector.readCheckpoint id
      g.matchesSample (.withFilter g) clock (c.withFilter g) (c.withFilter {})) ∧
    (∀ c : ChannelDryRunCollector, IsView UdpChannelDryRunCollector.readCheckpoint id
      g.matchesSample (.withFilter g) clock (c.withFilter g) (c.withFilter {})) :=
  ⟨EbpfIngressCollector.isView f inputs, ChannelCollector.isView tcpChannel g flows,
    ChannelCollector.isView udpChannel g flows, DryRunCollector.isView f clock,
    ChannelDryRunCollector.isView TcpChannelDryRunCollector.demoTarget (fun _ _ _ _ => rfl) g clock,
    ChannelDryRunCollector.isView UdpChannelDryRunCollector.demoTarget (fun _ _ _ _ => rfl) g clock⟩

end UdpAnalyzer

import UdpAnalyzer.Ingress.Rows
import UdpAnalyzer.Lib.Windows

/-! The windows of time the rows are labelled with. A row starts at the configured bucket the
clock is in and is as long as the time since the checkpoint before, so the windows of successive
checkpoints need not lie apart. -/

namespace UdpAnalyzer

/-! ### The windows of a run -/

/-- The window a checkpoint labels its rows with. -/
def checkpointWindow (bucketMs : ℤ) (previousNs : Option ℤ) (nowNs : ℤ) : Window where
  start := bucketStartNs nowNs bucketMs
  length := elapsedMs bucketMs previousNs nowNs * 1000000

/-- The windows of checkpoints at successive readings of the clock. -/
def windowsFrom (bucketMs : ℤ) : Option ℤ → List ℤ → List Window
  | _, [] => []
  | previousNs, nowNs :: rest =>
    checkpointWindow bucketMs previousNs nowNs :: windowsFrom bucketMs (some nowNs) rest

def UdpSample.window (row : UdpSample) : Window := ⟨row.bucketStartNs, row.bucketMs * 1000000⟩

def ChannelSample.window (row : ChannelSample) : Window := ⟨row.bucketStartNs, row.bucketMs * 1000000⟩

/-- Successive readings are at least the configured interval apart. -/
def SpacedBy (bucketMs : ℤ) (readings : List ℤ) : Prop :=
  readings.IsChain fun previous now => previous + bucketMs * 1000000 ≤ now

/-- The number of the configured bucket a reading falls into. -/
def bucketIndex (bucketMs nowNs : ℤ) : ℤ := nowNs / (bucketMs * 1000000)

/-- Every interval but the last is, in whole milliseconds, at most as long as the buckets that
begin in the next one. -/
def Steady (bucketMs : ℤ) : List ℤ → Prop
  | a :: b :: c :: rest =>
    (b - a) / 1000000 ≤ bucketMs * (bucketIndex bucketMs c - bucketIndex bucketMs b) ∧
      Steady bucketMs (b :: c :: rest)
  | _ => True

theorem bucketStartNs_eq {bucketMs : ℤ} (h : 1 ≤ bucketMs) (nowNs : ℤ) :
    bucketStartNs nowNs bucketMs = bucketIndex bucketMs nowNs * bucketMs * 1000000 := by
  have hdiv : Int.fdiv nowNs (bucketMs * 1000000) = nowNs / (bucketMs * 1000000) :=
    Int.fdiv_eq_ediv_of_nonneg _ (by omega)
  rw [bucketStartNs, hdiv, bucketIndex, Int.mul_assoc]

/-- The window of a checkpoint after the first. -/
theorem checkpointWindow_measured {bucketMs previous now : ℤ} (hbucket : 1 ≤ bucketMs)
    (h : previous + bucketMs * 1000000 ≤ now) : checkpointWindow bucketMs (some previous) now =
      ⟨bucketIndex bucketMs now * bucketMs * 1000000, (now - previous) / 1000000 * 1000000⟩ := by
  rw [checkpointWindow, bucketStartNs_eq hbucket, elapsedMs_measured _ (by omega)]

theorem measured_pos {bucketMs previous now : ℤ} (hbucket : 1 ≤ bucketMs)
    (h : previous + bucketMs * 1000000 ≤ now) :
    0 < (checkpointWindow bucketMs (some previous) now).length := by
  rw [checkpointWindow_measured hbucket h]
  show 0 < (now - previous) / 1000000 * 1000000
  omega

/-- Two successive windows lie apart exactly when the buckets that begin in between make up for
the measured length of the first. -/
theorem before_next_iff {bucketMs a b c : ℤ} (hbucket : 1 ≤ bucketMs)
    (hab : a + bucketMs * 1000000 ≤ b) (hbc : b + bucketMs * 1000000 ≤ c) :
    (checkpointWindow bucketMs (some a) b).Before (checkpointWindow bucketMs (some b) c) ↔
      (b - a) / 1000000 ≤ bucketMs * (bucketIndex bucketMs c - bucketIndex bucketMs b) := by
  rw [Window.before_iff (measured_pos hbucket hab) (measured_pos hbucket hbc),
    checkpointWindow_measured hbucket hab, checkpointWindow_measured hbucket hbc, Window.stop]
  have hproduct : bucketMs * (bucketIndex bucketMs c - bucketIndex bucketMs b) =
      bucketIndex bucketMs c * bucketMs - bucketIndex bucketMs b * bucketMs := by
    rw [Int.mul_sub, Int.mul_comm bucketMs, Int.mul_comm bucketMs]
  rw [hproduct]
  dsimp only
  omega

theorem windowsFrom_pos {bucketMs : ℤ} (hbucket : 1 ≤ bucketMs) {previous : ℤ} {readings : List ℤ}
    (h : SpacedBy bucketMs (previous :: readings)) :
    ∀ w ∈ windowsFrom bucketMs (some previous) readings, 0 < w.length := by
  induction readings generalizing previous with
  | nil => exact fun w hw => absurd hw List.not_mem_nil
  | cons now rest ih =>
    obtain ⟨hfirst, hrest⟩ := List.isChain_cons_cons.mp h
    rw [windowsFrom, List.forall_mem_cons]
    exact ⟨measured_pos hbucket hfirst, ih hrest⟩

/-- The windows after the first lie apart and in order exactly in a steady run. -/
theorem windows_ordered_iff {bucketMs : ℤ} (hbucket : 1 ≤ bucketMs) {previous : ℤ}
    {readings : List ℤ} (h : SpacedBy bucketMs (previous :: readings)) :
    (windowsFrom bucketMs (some previous) readings).IsChain Window.Before ↔
      Steady bucketMs (previous :: readings) := by
  induction readings generalizing previous with
  | nil => exact ⟨fun _ => trivial, fun _ => .nil⟩
  | cons now rest ih =>
    obtain ⟨hfirst, hrest⟩ := List.isChain_cons_cons.mp h
    cases rest with
    | nil => exact ⟨fun _ => trivial, fun _ => .singleton _⟩
    | cons next rest =>
      obtain ⟨hsecond, -⟩ := List.isChain_cons_cons.mp hrest
      rw [windowsFrom, windowsFrom, List.isChain_cons_cons, before_next_iff hbucket hfirst hsecond,
        Steady]
      exact and_congr_right fun _ => ih hrest

/-! ### The rows of a run -/

section Runs

variable {σ ι β ρ : Type}

/-- What the labels of a run say: every row has the window of its checkpoint, the windows after
the first lie apart and in order exactly when the run is steady, and then so do the rows of any
two of its checkpoints. -/
structure Labelled (rows : β → List ρ) (window : ρ → Window) (bucketMs : ℤ) (readings : List ℤ)
    (outs : List β) : Prop where
  labels : List.Forall₂ (fun out w => ∀ row ∈ rows out, window row = w) outs
    (windowsFrom bucketMs none readings)
  ordered_iff : (windowsFrom bucketMs none readings).tail.IsChain Window.Before ↔
    Steady bucketMs readings
  rows_ordered : Steady bucketMs readings → outs.tail.Pairwise fun out out' =>
    ∀ row ∈ rows out, ∀ row' ∈ rows out', (window row).Before (window row')

/-- Steps that label their rows, store the clock and keep the configuration. -/
theorem completedRun_labels {step : σ → ι → Except PyExc β × σ} {nowNs : ι → ℤ}
    {bucketMs : σ → ℤ} {clock : σ → Option ℤ} {rows : β → List ρ} {window : ρ → Window}
    (hstep : ∀ s i out s', step s i = (.ok out, s') →
      bucketMs s' = bucketMs s ∧ clock s' = some (nowNs i) ∧
        ∀ row ∈ rows out, window row = checkpointWindow (bucketMs s) (clock s) (nowNs i))
    {inputs : List ι} {s s' : σ} {outs : List β} (h : completedRun step inputs s = some (outs, s')) :
    List.Forall₂ (fun out w => ∀ row ∈ rows out, window row = w) outs
      (windowsFrom (bucketMs s) (clock s) (inputs.map nowNs)) := by
  induction inputs generalizing s outs with
  | nil =>
    cases h
    exact .nil
  | cons i rest ih =>
    rcases hi : step s i with ⟨_ | out, t⟩
    · simp [completedRun, hi] at h
    · simp only [completedRun, hi, Option.map_eq_some_iff, Prod.mk.injEq] at h
      obtain ⟨⟨outs', t'⟩, hrest, rfl, rfl⟩ := h
      obtain ⟨hbucket, hclock, hrows⟩ := hstep s i out t hi
      have htail := ih hrest
      rw [hbucket, hclock] at htail
      exact .cons hrows htail

/-- Rows with windows in order. -/
theorem pairwise_rows {rows : β → List ρ} {window : ρ → Window} {outs : List β} {ws : List Window}
    (h : List.Forall₂ (fun out w => ∀ row ∈ rows out, window row = w) outs ws)
    (hws : ws.Pairwise Window.Before) : outs.Pairwise fun out out' =>
      ∀ row ∈ rows out, ∀ row' ∈ rows out', (window row).Before (window row') := by
  induction h with
  | nil => exact .nil
  | @cons out w outs ws hout houts ih =>
    obtain ⟨hfirst, hrest⟩ := List.pairwise_cons.mp hws
    refine .cons (fun out' hout' row hrow row' hrow' => ?_) (ih hrest)
    obtain ⟨w', hw', hlabel⟩ := exists_of_forall₂ houts hout'
    rw [hout row hrow, hlabel row' hrow']
    exact hfirst w' hw'

theorem labelled_of_labels {rows : β → List ρ} {window : ρ → Window} {bucketMs : ℤ}
    {readings : List ℤ} {outs : List β} (hbucket : 1 ≤ bucketMs) (hspaced : SpacedBy bucketMs readings)
    (h : List.Forall₂ (fun out w => ∀ row ∈ rows out, window row = w) outs
      (windowsFrom bucketMs none readings)) : Labelled rows window bucketMs readings outs := by
  cases readings with
  | nil =>
    cases h
    exact ⟨.nil, ⟨fun _ => trivial, fun _ => .nil⟩, fun _ => .nil⟩
  | cons first rest =>
    have hiff := windows_ordered_iff hbucket hspaced
    refine ⟨h, hiff, fun hsteady => ?_⟩
    cases h with
    | cons _ htail =>
      exact pairwise_rows htail (Window.pairwise_before (windowsFrom_pos hbucket hspaced)
        (hiff.mpr hsteady))

end Runs

namespace EbpfIngressCollector

theorem ingressSample_window {input : IngressInput} {fallback : Str} {bucketNs elapsed : ℤ}
    {e : UdpMapEntry} {d : UdpMapCounters} {b : UdpSample}
    (h : ingressSample input fallback bucketNs elapsed e d = .ok b) :
    b.window = ⟨bucketNs, elapsed * 1000000⟩ := by
  obtain ⟨srcIp, -, h⟩ := bind_eq_ok h
  obtain ⟨dstIp, -, h⟩ := bind_eq_ok h
  obtain ⟨ifname, -, h⟩ := bind_eq_ok h
  cases h
  rfl

theorem deliveredSample_window {input : IngressInput} {fallback : Str} {bucketNs elapsed : ℤ}
    {e : DeliveredMapEntry} {d : UdpMapCounters} {b : UdpSample}
    (h : deliveredSample input fallback bucketNs elapsed e d = .ok b) :
    b.window = ⟨bucketNs, elapsed * 1000000⟩ := by
  obtain ⟨srcIp, -, h⟩ := bind_eq_ok h
  obtain ⟨dstIp, -, h⟩ := bind_eq_ok h
  obtain ⟨ifname, -, h⟩ := bind_eq_ok h
  cases h
  rfl

theorem gives_window {sample row : UdpSample} (h : sample.Gives row) : row.window = sample.window := by
  rw [h]
  rfl

/-- A completed checkpoint labels its rows, stores the clock and keeps the interval. -/
theorem readCheckpoint_labels {c c' : EbpfIngressCollector} {input : IngressInput} {k : Checkpoint}
    (h : c.readCheckpoint input = (.ok k, c')) :
    c'.bucketMs = c.bucketMs ∧ c'.lastCheckpointNs = some input.nowNs ∧
      ∀ row ∈ k.samples, row.window = checkpointWindow c.bucketMs c.lastCheckpointNs input.nowNs := by
  obtain ⟨c₁, n₁, n₂, hi, hd⟩ := readCheckpoint_passes h
  obtain ⟨hingress, hc₁⟩ := readIngress_completed (emitIngress_gives _ input _ _) hi
  obtain ⟨hnone, hsome, hc'⟩ := readDelivered_completed (emitDelivered_gives _ input _ _) hd
  refine ⟨by rw [hc', hc₁], by rw [hc', hc₁], fun row hrow => ?_⟩
  rcases List.mem_append.mp hrow with hrow | hrow
  · obtain ⟨em, hem, hrow⟩ := List.mem_flatMap.mp hrow
    obtain ⟨e, d, -, -, -, hsample, hgives⟩ := hingress.built em hem
    rw [gives_window (hgives row hrow), ingressSample_window hsample, checkpointWindow]
  · obtain ⟨em, hem, hrow⟩ := List.mem_flatMap.mp hrow
    have hreader : c₁.deliveredReader.isSome := by
      rw [Option.isSome_iff_ne_none]
      intro hreader
      rw [hnone hreader] at hem
      exact List.not_mem_nil hem
    obtain ⟨e, d, -, -, -, hsample, hgives⟩ := (hsome hreader).built em hem
    rw [gives_window (hgives row hrow), deliveredSample_window hsample, checkpointWindow]

end EbpfIngressCollector

namespace ChannelCollector

theorem flowSample_window {kind : ChannelKind} {catalog : ChannelCatalog} {input : ChannelInput}
    {bucketNs elapsed : ℤ} {e : FlowEntry} {d : FlowCounters} {unit : Str} {b : ChannelSample}
    (h : flowSample kind catalog input bucketNs elapsed e d unit = .ok b) :
    b.window = ⟨bucketNs, elapsed * 1000000⟩ := by
  obtain ⟨⟨ip, port⟩, -, h⟩ := bind_eq_ok h
  obtain ⟨srcIp, -, h⟩ := bind_eq_ok h
  obtain ⟨ifname, -, h⟩ := bind_eq_ok h
  cases h
  rfl

theorem emitFlow_window (kind : ChannelKind) (c : ChannelCollector) (input : ChannelInput)
    (bucketNs elapsed : ℤ) : CounterLoop.EmitSpec (c.emitFlow kind input bucketNs elapsed)
      (fun _ => True) fun _ _ _ rows => ∀ row ∈ rows, row.window = ⟨bucketNs, elapsed * 1000000⟩ := by
  intro e d s b rows s' _ hemit
  obtain ⟨unit, -, hsample, rfl⟩ := emitFlow_built hemit
  refine ⟨fun row hrow => ?_, trivial⟩
  rw [List.mem_singleton.mp (List.mem_of_mem_filter hrow), flowSample_window hsample]

/-- The rows of a checkpoint. -/
def rowsOf (ems : List FlowEmission) : List ChannelSample := ems.flatMap Emission.rows

theorem readCheckpoint_labels {kind : ChannelKind} {c c' : ChannelCollector} {input : ChannelInput}
    {ems : List FlowEmission} (h : c.readCheckpoint kind input = (.ok ems, c')) :
    c'.bucketMs = c.bucketMs ∧ c'.lastCheckpointNs = some input.nowNs ∧
      ∀ row ∈ rowsOf ems, row.window =
        checkpointWindow c.bucketMs c.lastCheckpointNs input.nowNs := by
  obtain ⟨hdone, hc'⟩ := readFlows_spec (emitFlow_window kind _ input _ _) trivial
    (readCheckpoint_spec h)
  refine ⟨by rw [hc'], by rw [hc'], fun row hrow => ?_⟩
  obtain ⟨em, hem, hrow⟩ := List.mem_flatMap.mp hrow
  obtain ⟨e, d, -, -, -, hwindow⟩ := hdone.built em hem
  exact hwindow row hrow

end ChannelCollector

open EbpfIngressCollector (Checkpoint) in
/-- In every run of a collector whose clock moves by the configured interval at least, every row
has the window of its checkpoint; the windows after the first lie apart and in order exactly when
the run is steady, and in a steady run so do the rows of any two checkpoints. -/
theorem bucket_windows_ordered_iff (kind : ChannelKind) :
    (∀ (c₀ c : EbpfIngressCollector) (inputs : List IngressInput) (outs : List Checkpoint),
      c₀.Fresh → 1 ≤ c₀.bucketMs → SpacedBy c₀.bucketMs (inputs.map IngressInput.nowNs) →
      completedRun EbpfIngressCollector.readCheckpoint inputs c₀ = some (outs, c) →
      Labelled Checkpoint.samples UdpSample.window c₀.bucketMs (inputs.map IngressInput.nowNs)
        outs) ∧
    ∀ (c₀ c : ChannelCollector) (inputs : List ChannelInput) (outs : List (List FlowEmission)),
      c₀.Fresh → 1 ≤ c₀.bucketMs → SpacedBy c₀.bucketMs (inputs.map ChannelInput.nowNs) →
      completedRun (ChannelCollector.readCheckpoint kind) inputs c₀ = some (outs, c) →
      Labelled ChannelCollector.rowsOf ChannelSample.window c₀.bucketMs
        (inputs.map ChannelInput.nowNs) outs := by
  refine ⟨fun c₀ c inputs outs hfresh hbucket hspaced h => ?_,
    fun c₀ c inputs outs hfresh hbucket hspaced h => ?_⟩
  · have hlabels := completedRun_labels
      (fun _ _ _ _ hstep => EbpfIngressCollector.readCheckpoint_labels hstep) h
    rw [hfresh.clock] at hlabels
    exact labelled_of_labels hbucket hspaced hlabels
  · have hlabels := completedRun_labels
      (fun _ _ _ _ hstep => ChannelCollector.readCheckpoint_labels hstep) h
    rw [hfresh.clock] at hlabels
    exact labelled_of_labels hbucket hspaced hlabels

/-! ### A checkpoint that comes late

The second checkpoint comes twelve seconds after the first, the third in time: its window begins
while that of the second has eleven seconds to go. -/

/-- One flow that carries packets between any two readings. -/
def lateInputs : List IngressInput :=
  [splitFlowInput 1700000000000000000 100 200, splitFlowInput 1700000012000000000 150 720,
    splitFlowInput 1700000013000000000 160 730]

/-- The windows of the two rows of the flow overlap. -/
theorem late_checkpoint_overlaps :
    SpacedBy freshIngress.bucketMs (lateInputs.map IngressInput.nowNs) ∧
    (completedRun EbpfIngressCollector.readCheckpoint lateInputs freshIngress).map
      (fun run => run.1.map fun k => k.samples.map UdpSample.window) =
        some [[], [⟨1700000012000000000, 12000000000⟩], [⟨1700000013000000000, 1000000000⟩]] ∧
    ¬ ((windowsFrom freshIngress.bucketMs none (lateInputs.map IngressInput.nowNs)).tail.IsChain
      Window.Before) := by
  refine ⟨by simp [SpacedBy, lateInputs, freshIngress, splitFlowInput], by decide +kernel,
    fun h => ?_⟩
  have hfirst := (List.isChain_cons_cons.mp h).1
  exact lt_irrefl _ (hfirst 1700000013000000000 ⟨by decide, by decide⟩ 1700000013000000000
    ⟨by decide, by decide⟩)

/-- Checkpoints exactly a second apart, for both kinds of collector. -/
theorem bucket_windows_ordered_iff_punctual :
    (∃ outs c, completedRun EbpfIngressCollector.readCheckpoint
        [splitFlowInput 5000000000 100 200, splitFlowInput 6000000000 150 720,
          splitFlowInput 7000000000 160 730] freshIngress = some (outs, c) ∧
      Labelled EbpfIngressCollector.Checkpoint.samples UdpSample.window 1000
        [5000000000, 6000000000, 7000000000] outs) ∧
    ∃ outs c, completedRun (ChannelCollector.readCheckpoint tcpChannel)
        [channelFlowInput tcpChannel 5000000000 1000, channelFlowInput tcpChannel 6000000000 4000,
          channelFlowInput tcpChannel 7000000000 5000] freshChannel = some (outs, c) ∧
      Labelled ChannelCollector.rowsOf ChannelSample.window 1000
        [5000000000, 6000000000, 7000000000] outs := by
  have hspaced : SpacedBy 1000 [5000000000, 6000000000, 7000000000] := by simp [SpacedBy]
  refine ⟨⟨_, _, rfl, ?_⟩, _, _, rfl, ?_⟩
  · exact (bucket_windows_ordered_iff tcpChannel).1 freshIngress _
      [splitFlowInput 5000000000 100 200, splitFlowInput 6000000000 150 720,
        splitFlowInput 7000000000 160 730] _ ⟨rfl, rfl, rfl⟩ (by decide) hspaced rfl
  · exact (bucket_windows_ordered_iff tcpChannel).2 freshChannel _
      [channelFlowInput tcpChannel 5000000000 1000, channelFlowInput tcpChannel 6000000000 4000,
        channelFlowInput tcpChannel 7000000000 5000] _ ⟨rfl, rfl⟩ (by decide) hspaced rfl

end UdpAnalyzer

import UdpAnalyzer.DeltaLaw

/-! Checkpoints that raise. The clock is stored before the dumps are taken and the baseline of a
flow before its row is built, so what an exception leaves behind depends on how far the
checkpoint came. The accounts of a collector are what the rows of its next checkpoint are
measured against: the baselines and the time of the last checkpoint. -/

namespace UdpAnalyzer

/-! ### The channel collectors -/

namespace ChannelCollector

/-- The baselines and the clock. -/
def accounts (c : ChannelCollector) : (FlowIdentity → Option FlowCounters) × Option ℤ :=
  (c.previous.get?, c.lastCheckpointNs)

/-- `ensure_alive` returns: no loader is attached, or it is owned and runs. -/
def Alive (c : ChannelCollector) (input : ChannelInput) : Prop :=
  ∀ a, c.attachment = some a → a.owned = true ∧ input.poll = none

/-- The loader is gone, or the dump fails at the very time the clock has stored. -/
def FailsClean (c : ChannelCollector) (input : ChannelInput) : Prop :=
  ¬ c.Alive input ∨ c.lastCheckpointNs = some input.nowNs ∧ ∃ e, input.dump = .error e

variable {kind : ChannelKind} {c : ChannelCollector} {input : ChannelInput}

theorem ensureAlive_of_alive (h : c.Alive input) : c.ensureAlive kind input = (.ok (), c) := by
  unfold ensureAlive
  split
  · rfl
  · next ha => exact absurd (h _ ha).1 Bool.false_ne_true
  · next ha => rw [(h _ ha).2]

theorem ensureAlive_of_not_alive (h : ¬ c.Alive input) :
    ∃ e c', c.ensureAlive kind input = (.error e, c') ∧ c'.accounts = c.accounts := by
  unfold ensureAlive
  split
  · next ha =>
    refine absurd (fun a ha' => ?_) h
    rw [ha] at ha'
    cases ha'
  · exact ⟨_, c, rfl, rfl⟩
  · next ha =>
    split
    · next hpoll =>
      refine absurd (fun a ha' => ?_) h
      rw [ha] at ha'
      cases ha'
      exact ⟨rfl, hpoll⟩
    · cases input.stderr.text with
      | error e => exact ⟨e, c, rfl, rfl⟩
      | ok detail =>
        cases input.stderr.close with
        | error e => exact ⟨e, _, rfl, rfl⟩
        | ok _ => exact ⟨_, _, rfl, rfl⟩

/-- Whatever becomes of the dump, the clock is stored; only a failing dump leaves the
baselines. -/
theorem readFlows_accounts {bucketNs elapsed : ℤ} {e : PyExc}
    (h : (c.readFlows kind input bucketNs elapsed).1 = .error e) :
    (c.readFlows kind input bucketNs elapsed).2.lastCheckpointNs = c.lastCheckpointNs ∧
    ((c.readFlows kind input bucketNs elapsed).2.previous.get? = c.previous.get? ↔
      ∃ e, input.dump = .error e) := by
  unfold readFlows at h ⊢
  cases hdump : input.dump with
  | error e' => exact ⟨rfl, fun _ => ⟨e', rfl⟩, fun _ => rfl⟩
  | ok dump =>
    rw [hdump] at h
    dsimp only at h ⊢
    rcases hread : flowLoop.readDump (c.emitFlow kind input bucketNs elapsed) dump c.previous
        c.pidUnits with ⟨_ | ems, previous, pidUnits⟩
    · refine ⟨rfl, fun heq => absurd heq (flowLoop.readDump_error_ne hread), ?_⟩
      rintro ⟨e', he'⟩
      cases he'
    · rw [hread] at h
      cases h

/-- A checkpoint that raises spares the accounts exactly when it fails clean. -/
theorem accounts_after_raise (h : Raises (readCheckpoint kind) c input) :
    (c.readCheckpoint kind input).2.accounts = c.accounts ↔ c.FailsClean input := by
  obtain ⟨e, h⟩ := h
  unfold readCheckpoint at h ⊢
  by_cases halive : c.Alive input
  · rw [ensureAlive_of_alive halive] at h ⊢
    dsimp only at h ⊢
    obtain ⟨hclock, hprevious⟩ := readFlows_accounts h
    rw [accounts, accounts, Prod.mk.injEq, hclock, hprevious, FailsClean]
    constructor
    · rintro ⟨hdump, hstored⟩
      exact .inr ⟨hstored.symm, hdump⟩
    · rintro (hnot | ⟨hstored, hdump⟩)
      · exact absurd halive hnot
      · exact ⟨hdump, hstored.symm⟩
  · obtain ⟨e', c', hensure, haccounts⟩ := @ensureAlive_of_not_alive kind c input halive
    rw [hensure]
    exact ⟨fun _ => .inl halive, fun _ => haccounts⟩

theorem spares_accounts_iff :
    Spares accounts (readCheckpoint kind) c input ↔
      (Raises (readCheckpoint kind) c input → c.FailsClean input) :=
  forall_congr' fun h => accounts_after_raise h

/-- What the accounts of a collector are after its last completed checkpoint. -/
structure LeftBy (last : Option ChannelInput) (c : ChannelCollector) : Prop where
  baselines : flowLoop.view c.previous = leftBy flowLoop (last.map fun a => (a.nowNs, listed a.dump))
  clock : c.lastCheckpointNs = last.map ChannelInput.nowNs

/-- The rows of a completed checkpoint are the increments since the last completed one, and
their interval is the one since it. -/
def Resumes (kind : ChannelKind) (last : Option ChannelInput) (c : ChannelCollector)
    (input : ChannelInput) : Prop :=
  ∀ ems c', c.readCheckpoint kind input = (.ok ems, c') →
    flowLoop.Completed (fun e d b _ => describesFlow kind e b ∧ b.counters = d ∧
        b.bucketMs = elapsedMs c.bucketMs (last.map ChannelInput.nowNs) input.nowNs)
      (leftBy flowLoop (last.map fun a => (a.nowNs, listed a.dump))) (listed input.dump)
      c'.previous ems

theorem LeftBy.resumes {last : Option ChannelInput} (h : LeftBy last c) (input : ChannelInput) :
    c.Resumes kind last input := by
  intro ems c' hread
  obtain ⟨hdone, -⟩ := readFlows_spec (emitFlow_spec _ _ _ _ _) trivial (readCheckpoint_spec hread)
  rw [h.clock] at hdone
  rw [← h.baselines]
  exact hdone

theorem LeftBy.of_completed {c' : ChannelCollector}
    {ems : List FlowEmission} (hread : c.readCheckpoint kind input = (.ok ems, c')) :
    LeftBy (some input) c' := by
  obtain ⟨hdone, hkept⟩ := readFlows_spec (emitFlow_spec _ _ _ _ _) trivial
    (readCheckpoint_spec hread)
  exact ⟨hdone.baseline, by rw [hkept]; rfl⟩

theorem LeftBy.of_accounts {last : Option ChannelInput} (h : LeftBy last c)
    {c' : ChannelCollector} (haccounts : c'.accounts = c.accounts) : LeftBy last c' := by
  obtain ⟨hprevious, hclock⟩ := Prod.mk.inj haccounts
  have hprevious : c'.previous.get? = c.previous.get? := hprevious
  refine ⟨?_, hclock.trans h.clock⟩
  rw [← h.baselines]
  unfold CounterLoop.view
  rw [hprevious]

/-- In a run that spares the accounts the next checkpoint is measured against the last
completed one. -/
theorem spared_run {c₀ : ChannelCollector} {inputs : List ChannelInput} (hfresh : c₀.Fresh)
    (h : Along (leaves (readCheckpoint kind))
      (Spares accounts (readCheckpoint kind)) c₀ inputs) :
    LeftBy (lastCompleted (readCheckpoint kind) inputs c₀)
      (inputs.foldl (leaves (readCheckpoint kind)) c₀) := by
  have hstart : LeftBy none c₀ := ⟨by rw [hfresh.previous]; rfl, hfresh.clock⟩
  have hend := along_lastCompleted (fun _ _ _ _ _ _ hstep => LeftBy.of_completed hstep)
    (fun _ _ _ hleft hspares hraises => hleft.of_accounts (hspares hraises)) h hstart
  rwa [Option.or_none] at hend

end ChannelCollector

/-! ### The ingress collector -/

namespace EbpfIngressCollector

/-- The baselines of the two maps and the clock. -/
def accounts (c : EbpfIngressCollector) :
    (UdpIdentity → Option UdpMapCounters) × (UdpIdentity → Option UdpMapCounters) × Option ℤ :=
  (c.previous.get?, c.deliveredPrevious.get?, c.lastCheckpointNs)

/-- At the very time the clock has stored, the ingress dump fails, or it lists what the
baselines are already and the delivered dump fails. -/
def FailsClean (c : EbpfIngressCollector) (input : IngressInput) : Prop :=
  c.lastCheckpointNs = some input.nowNs ∧
    ((∃ e, input.ingressDump = .error e) ∨
      ∃ dump e, input.ingressDump = .ok dump ∧ ingressLoop.totals dump = c.previous.get? ∧
        c.deliveredReader.isSome ∧ input.deliveredDump = .error e)

variable {c : EbpfIngressCollector} {input : IngressInput} {n : ℕ} {bucketNs elapsed : ℤ}

theorem readIngress_raise {e : PyExc} (h : (c.readIngress input n bucketNs elapsed).1 = .error e) :
    ∃ previous enricher n', (c.readIngress input n bucketNs elapsed).2 =
        ({ c with previous := previous, processEnricher := enricher }, n') ∧
      (previous.get? = c.previous.get? ↔ ∃ e, input.ingressDump = .error e) := by
  unfold readIngress at h ⊢
  cases hdump : input.ingressDump with
  | error e' => exact ⟨c.previous, c.processEnricher, n, rfl, fun _ => ⟨e', rfl⟩, fun _ => rfl⟩
  | ok dump =>
    rw [hdump] at h
    dsimp only at h ⊢
    rcases hread : ingressLoop.readDump (c.emitIngress input bucketNs elapsed) dump c.previous
        (c.processEnricher, n) with ⟨_ | ems, previous, enricher, n'⟩
    · refine ⟨previous, enricher, n', rfl, ?_, ?_⟩
      · exact fun heq => absurd heq (ingressLoop.readDump_error_ne hread)
      · rintro ⟨e', he'⟩
        cases he'
    · rw [hread] at h
      cases h

theorem readIngress_ok {ems : List UdpEmission} {c' : EbpfIngressCollector} {n' : ℕ}
    (h : c.readIngress input n bucketNs elapsed = (.ok ems, c', n')) :
    ∃ dump, input.ingressDump = .ok dump ∧ c'.previous.get? = ingressLoop.totals dump ∧
      c' = { c with previous := c'.previous, processEnricher := c'.processEnricher } := by
  unfold readIngress at h
  cases hdump : input.ingressDump with
  | error e' =>
    rw [hdump] at h
    cases h
  | ok dump =>
    rw [hdump] at h
    dsimp only at h
    rcases hread : ingressLoop.readDump (c.emitIngress input bucketNs elapsed) dump c.previous
        (c.processEnricher, n) with ⟨r, previous, enricher, n'⟩
    rw [hread] at h
    cases h
    exact ⟨dump, rfl, ingressLoop.readDump_totals hread, rfl⟩

theorem readDelivered_raise {e : PyExc}
    (h : (c.readDelivered input n bucketNs elapsed).1 = .error e) :
    c.deliveredReader.isSome ∧
    ∃ previous enricher n', (c.readDelivered input n bucketNs elapsed).2 =
        ({ c with deliveredPrevious := previous, processEnricher := enricher }, n') ∧
      (previous.get? = c.deliveredPrevious.get? ↔ ∃ e, input.deliveredDump = .error e) := by
  unfold readDelivered at h ⊢
  cases hreader : c.deliveredReader with
  | none =>
    rw [hreader] at h
    cases h
  | some mapId =>
    rw [hreader] at h
    refine ⟨rfl, ?_⟩
    cases hdump : input.deliveredDump with
    | error e' =>
      refine ⟨c.deliveredPrevious, c.processEnricher, n, ?_, fun _ => ⟨e', rfl⟩, fun _ => rfl⟩
      dsimp only
      rw [← hreader]
    | ok dump =>
      rw [hdump] at h
      dsimp only at h ⊢
      rcases hread : deliveredLoop.readDump (c.emitDelivered input bucketNs elapsed) dump
          c.deliveredPrevious (c.processEnricher, n) with ⟨_ | ems, previous, enricher, n'⟩
      · refine ⟨previous, enricher, n', by rw [← hreader], ?_, ?_⟩
        · exact fun heq => absurd heq (deliveredLoop.readDump_error_ne hread)
        · rintro ⟨e', he'⟩
          cases he'
      · rw [hread] at h
        cases h

/-- A checkpoint that raises spares the accounts exactly when it fails clean: the clock must
not move, nor the ingress baselines before a delivered dump that fails. -/
theorem accounts_after_raise (h : Raises readCheckpoint c input) :
    (c.readCheckpoint input).2.accounts = c.accounts ↔ c.FailsClean input := by
  obtain ⟨e, h⟩ := h
  unfold readCheckpoint at h ⊢
  dsimp only at h ⊢
  rcases hread : readIngress { c with lastCheckpointNs := some input.nowNs } input 0
      (bucketStartNs input.nowNs c.bucketMs) (elapsedMs c.bucketMs c.lastCheckpointNs input.nowNs)
    with ⟨_ | ingress, c₁, n⟩
  · -- the ingress map is not read to the end
    obtain ⟨previous, enricher, n', hout, hprevious⟩ := readIngress_raise (congrArg Prod.fst hread)
    rw [hread] at hout
    obtain ⟨rfl, rfl⟩ := Prod.mk.inj hout
    dsimp only
    rw [accounts, accounts, Prod.mk.injEq, Prod.mk.injEq, hprevious, FailsClean]
    constructor
    · rintro ⟨hdump, -, hclock⟩
      exact ⟨hclock.symm, .inl hdump⟩
    · rintro ⟨hclock, hdump | ⟨dump, e', hdump, htotals, -⟩⟩
      · exact ⟨hdump, rfl, hclock.symm⟩
      · -- a dump that lists the baselines has no identity to raise at
        exfalso
        unfold readIngress at hread
        rw [hdump] at hread
        dsimp only at hread
        rcases hloop : ingressLoop.readDump (emitIngress { c with
            lastCheckpointNs := some input.nowNs } input (bucketStartNs input.nowNs c.bucketMs)
            (elapsedMs c.bucketMs c.lastCheckpointNs input.nowNs)) dump c.previous
            (c.processEnricher, 0) with ⟨_ | ems, st⟩
        · obtain ⟨i, total, p, htotal, hp, hmoved, -⟩ := ingressLoop.readDump_error hloop
          rw [htotals, hp, Option.some.injEq] at htotal
          exact ingressLoop.not_moved_self total (htotal ▸ hmoved)
        · rw [hloop] at hread
          cases hread
  · -- the ingress baselines are stored when the delivered map is read
    obtain ⟨dump, hdump, hprevious, hc₁⟩ := readIngress_ok hread
    rw [hread] at h
    dsimp only at h ⊢
    rcases hread' : c₁.readDelivered input n (bucketStartNs input.nowNs c.bucketMs)
        (elapsedMs c.bucketMs c.lastCheckpointNs input.nowNs) with ⟨_ | delivered, c₂, n'⟩
    · obtain ⟨hreader, previous, enricher, n'', hout, hdelivered⟩ :=
        readDelivered_raise (congrArg Prod.fst hread')
      rw [hread'] at hout
      obtain ⟨rfl, rfl⟩ := Prod.mk.inj hout
      rw [hc₁] at hdelivered hreader
      dsimp only
      rw [accounts, accounts, Prod.mk.injEq, Prod.mk.injEq, hprevious, FailsClean]
      rw [hc₁]
      dsimp only
      rw [hdelivered]
      constructor
      · rintro ⟨htotals, ⟨e', he'⟩, hclock⟩
        exact ⟨hclock.symm, .inr ⟨dump, e', hdump, htotals, hreader, he'⟩⟩
      · rintro ⟨hclock, ⟨e', he'⟩ | ⟨dump', e', hdump', htotals, -, he'⟩⟩
        · rw [hdump] at he'
          cases he'
        · rw [hdump, Except.ok.injEq] at hdump'
          exact ⟨hdump' ▸ htotals, ⟨e', he'⟩, hclock.symm⟩
    · rw [hread'] at h
      cases h

theorem spares_accounts_iff :
    Spares accounts readCheckpoint c input ↔
      (Raises readCheckpoint c input → c.FailsClean input) :=
  forall_congr' fun h => accounts_after_raise h

/-- By what a collector attributes, and the map of delivered datagrams it reads. -/
def delivery (c : EbpfIngressCollector) : DeliveryAttribution × Option ℤ :=
  (c.deliveryAttribution, c.deliveredReader)

theorem readIngress_delivery (c : EbpfIngressCollector) (input : IngressInput) (n : ℕ)
    (bucketNs elapsed : ℤ) : (c.readIngress input n bucketNs elapsed).2.1.delivery = c.delivery := by
  unfold readIngress
  cases input.ingressDump <;> rfl

theorem readDelivered_delivery (c : EbpfIngressCollector) (input : IngressInput) (n : ℕ)
    (bucketNs elapsed : ℤ) :
    (c.readDelivered input n bucketNs elapsed).2.1.delivery = c.delivery := by
  unfold readDelivered
  split
  · rfl
  · cases input.deliveredDump <;> rfl

/-- The attribution of a collector is the same all along. -/
theorem readCheckpoint_delivery (c : EbpfIngressCollector) (input : IngressInput) :
    (c.readCheckpoint input).2.delivery = c.delivery := by
  have hfirst := readIngress_delivery { c with lastCheckpointNs := some input.nowNs } input 0
    (bucketStartNs input.nowNs c.bucketMs) (elapsedMs c.bucketMs c.lastCheckpointNs input.nowNs)
  unfold readCheckpoint
  dsimp only at hfirst ⊢
  revert hfirst
  generalize readIngress _ input 0 _ _ = out
  intro hfirst
  obtain ⟨_ | ingress, c₁, n⟩ := out
  · exact hfirst
  · have hsecond := readDelivered_delivery c₁ input n (bucketStartNs input.nowNs c.bucketMs)
      (elapsedMs c.bucketMs c.lastCheckpointNs input.nowNs)
    dsimp only
    revert hsecond
    generalize c₁.readDelivered input n _ _ = out
    intro hsecond
    obtain ⟨_ | delivered, c₂, n'⟩ := out
    · exact hsecond.trans hfirst
    · exact hsecond.trans hfirst

theorem readCheckpoint_deliveredReader (c : EbpfIngressCollector) (input : IngressInput) :
    (c.readCheckpoint input).2.deliveredReader = c.deliveredReader :=
  congrArg Prod.snd (readCheckpoint_delivery c input)

/-- Whatever becomes of its checkpoints. -/
theorem run_delivery (c : EbpfIngressCollector) (inputs : List IngressInput) :
    (inputs.foldl (leaves readCheckpoint) c).delivery = c.delivery := by
  induction inputs generalizing c with
  | nil => rfl
  | cons input rest ih => exact (ih _).trans (readCheckpoint_delivery c input)

/-- What the accounts of a collector are after its last completed checkpoint. -/
structure LeftBy (last : Option IngressInput) (c : EbpfIngressCollector) : Prop where
  baselines : ingressLoop.view c.previous =
    leftBy ingressLoop (last.map fun a => (a.nowNs, listed a.ingressDump))
  delivered : c.deliveredReader.isSome → deliveredLoop.view c.deliveredPrevious =
    leftBy deliveredLoop (last.map fun a => (a.nowNs, listed a.deliveredDump))
  clock : c.lastCheckpointNs = last.map IngressInput.nowNs

/-- The rows of a completed checkpoint are the increments since the last completed one, and
their interval is the one since it. -/
def Resumes (last : Option IngressInput) (c : EbpfIngressCollector) (input : IngressInput) : Prop :=
  ∀ k c', c.readCheckpoint input = (.ok k, c') →
    let elapsed := elapsedMs c.bucketMs (last.map IngressInput.nowNs) input.nowNs
    ingressLoop.Completed (Built describesIngress elapsed)
      (leftBy ingressLoop (last.map fun a => (a.nowNs, listed a.ingressDump)))
      (listed input.ingressDump) c'.previous k.ingress ∧
    (c.deliveredReader.isSome → deliveredLoop.Completed (Built describesDelivered elapsed)
      (leftBy deliveredLoop (last.map fun a => (a.nowNs, listed a.deliveredDump)))
      (listed input.deliveredDump) c'.deliveredPrevious k.delivered)

theorem LeftBy.resumes {last : Option IngressInput} (h : LeftBy last c) (input : IngressInput) :
    c.Resumes last input := by
  intro k c' hread
  obtain ⟨hingress, hdelivered, -, -⟩ := readCheckpoint_spec hread
  rw [h.clock] at hingress hdelivered
  refine ⟨?_, fun hreader => ?_⟩
  · rw [← h.baselines]
    exact hingress
  · rw [← h.delivered hreader]
    exact hdelivered hreader

theorem LeftBy.of_completed {c' : EbpfIngressCollector} {k : Checkpoint}
    (hread : c.readCheckpoint input = (.ok k, c')) : LeftBy (some input) c' := by
  obtain ⟨hingress, hdelivered, hclock, hreader⟩ := readCheckpoint_spec hread
  rw [← hreader] at hdelivered
  exact ⟨hingress.baseline, fun h => (hdelivered h).baseline, hclock⟩

theorem LeftBy.of_accounts {last : Option IngressInput} (h : LeftBy last c)
    {c' : EbpfIngressCollector} (haccounts : c'.accounts = c.accounts)
    (hreader : c'.deliveredReader = c.deliveredReader) : LeftBy last c' := by
  obtain ⟨hprevious, hrest⟩ := Prod.mk.inj haccounts
  obtain ⟨hdelivered, hclock⟩ := Prod.mk.inj hrest
  have hprevious : c'.previous.get? = c.previous.get? := hprevious
  have hdelivered : c'.deliveredPrevious.get? = c.deliveredPrevious.get? := hdelivered
  refine ⟨?_, fun hr => ?_, hclock.trans h.clock⟩
  · rw [← h.baselines]
    unfold CounterLoop.view
    rw [hprevious]
  · rw [← h.delivered (hreader ▸ hr)]
    unfold CounterLoop.view
    rw [hdelivered]

/-- In a run that spares the accounts the next checkpoint is measured against the last
completed one. -/
theorem spared_run {c₀ : EbpfIngressCollector} {inputs : List IngressInput} (hfresh : c₀.Fresh)
    (h : Along (leaves readCheckpoint) (Spares accounts readCheckpoint) c₀
      inputs) :
    LeftBy (lastCompleted readCheckpoint inputs c₀)
      (inputs.foldl (leaves readCheckpoint) c₀) := by
  have hstart : LeftBy none c₀ := by
    refine ⟨?_, fun _ => ?_, hfresh.clock⟩
    · rw [hfresh.previous]; rfl
    · rw [hfresh.deliveredPrevious]; rfl
  have hend := along_lastCompleted (fun _ _ _ _ _ _ hstep => LeftBy.of_completed hstep)
    (fun _ c a hleft hspares hraises => hleft.of_accounts (hspares hraises)
      (readCheckpoint_deliveredReader c a)) h hstart
  rwa [Option.or_none] at hend

end EbpfIngressCollector

/-! ### Runs that go on after a checkpoint that raises -/

/-- In a run every checkpoint that raises spares the accounts exactly when every one of them
fails clean; the rows of the next one that completes are then measured against the last one
that did. -/
theorem raising_checkpoints_spare_iff (kind : ChannelKind) (_ : kind ∈ [tcpChannel, udpChannel]) :
    (∀ (c₀ : EbpfIngressCollector) (inputs : List IngressInput),
      (Along (leaves EbpfIngressCollector.readCheckpoint)
          (Spares EbpfIngressCollector.accounts EbpfIngressCollector.readCheckpoint) c₀ inputs ↔
        Along (leaves EbpfIngressCollector.readCheckpoint) (fun c input =>
          Raises EbpfIngressCollector.readCheckpoint c input → c.FailsClean input) c₀ inputs) ∧
      (c₀.Fresh → Along (leaves EbpfIngressCollector.readCheckpoint)
          (Spares EbpfIngressCollector.accounts EbpfIngressCollector.readCheckpoint) c₀ inputs →
        ∀ input, EbpfIngressCollector.Resumes
          (lastCompleted EbpfIngressCollector.readCheckpoint inputs c₀)
          (inputs.foldl (leaves EbpfIngressCollector.readCheckpoint) c₀) input)) ∧
    ∀ (c₀ : ChannelCollector) (inputs : List ChannelInput),
      (Along (leaves (ChannelCollector.readCheckpoint kind))
          (Spares ChannelCollector.accounts (ChannelCollector.readCheckpoint kind)) c₀ inputs ↔
        Along (leaves (ChannelCollector.readCheckpoint kind)) (fun c input =>
          Raises (ChannelCollector.readCheckpoint kind) c input → c.FailsClean input) c₀ inputs) ∧
      (c₀.Fresh → Along (leaves (ChannelCollector.readCheckpoint kind))
          (Spares ChannelCollector.accounts (ChannelCollector.readCheckpoint kind)) c₀ inputs →
        ∀ input, ChannelCollector.Resumes kind
          (lastCompleted (ChannelCollector.readCheckpoint kind) inputs c₀)
          (inputs.foldl (leaves (ChannelCollector.readCheckpoint kind)) c₀) input) := by
  constructor
  · intro c₀ inputs
    refine ⟨along_congr fun c input => EbpfIngressCollector.spares_accounts_iff, ?_⟩
    exact fun hfresh h => (EbpfIngressCollector.spared_run hfresh h).resumes
  · intro c₀ inputs
    refine ⟨along_congr fun c input => ChannelCollector.spares_accounts_iff, ?_⟩
    exact fun hfresh h => (ChannelCollector.spared_run hfresh h).resumes

/-! A flow seeded at five seconds, a dump that fails, and the flow read again at nine. -/

def failedDump (nowNs : ℤ) : ChannelInput :=
  { channelFlowInput tcpChannel nowNs 0 with dump := .error (.runtimeError "bpftool") }

def failedRun (failedNs : ℤ) : List ChannelInput :=
  [channelFlowInput tcpChannel 5000000000 1000, failedDump failedNs]

/-- The bytes and the interval of the rows of the checkpoint after a run. -/
def rowsAfter (inputs : List ChannelInput) (input : ChannelInput) : Option (List (ℤ × ℤ)) :=
  match (inputs.foldl (leaves (ChannelCollector.readCheckpoint tcpChannel))
      freshChannel).readCheckpoint tcpChannel input with
  | (.error _, _) => none
  | (.ok ems, _) => some ((ems.flatMap Emission.rows).map fun row => (row.rxBytes, row.bucketMs))

theorem raising_checkpoints_spare_iff_flow :
    (Along (leaves (ChannelCollector.readCheckpoint tcpChannel))
        (Spares ChannelCollector.accounts (ChannelCollector.readCheckpoint tcpChannel)) freshChannel
        (failedRun 5000000000) ∧
      ChannelCollector.Resumes tcpChannel
        (lastCompleted (ChannelCollector.readCheckpoint tcpChannel) (failedRun 5000000000)
          freshChannel)
        ((failedRun 5000000000).foldl (leaves (ChannelCollector.readCheckpoint tcpChannel))
          freshChannel) (channelFlowInput tcpChannel 9000000000 4000)) ∧
    rowsAfter (failedRun 5000000000) (channelFlowInput tcpChannel 9000000000 4000) =
      some [(3000, 4000)] := by
  have hiff := (raising_checkpoints_spare_iff tcpChannel List.mem_cons_self).2 freshChannel
    (failedRun 5000000000)
  have hspares := hiff.1.mpr ⟨?_, ?_, trivial⟩
  · exact ⟨⟨hspares, hiff.2 ⟨rfl, rfl⟩ hspares _⟩, rfl⟩
  · rintro ⟨e, he⟩
    cases he
  · exact fun _ => .inr ⟨rfl, _, rfl⟩

/-- The clock moves with a dump that fails: a second is reported for bytes of four. -/
theorem failed_dump_moves_clock :
    ¬ Along (leaves TcpChannelCollector.readCheckpoint)
        (Spares ChannelCollector.accounts TcpChannelCollector.readCheckpoint) freshChannel
        (failedRun 8000000000) ∧
    rowsAfter (failedRun 8000000000) (channelFlowInput tcpChannel 9000000000 4000) =
      some [(3000, 1000)] := by
  refine ⟨?_, rfl⟩
  rintro ⟨-, hfailed, -⟩
  have hclock := congrArg Prod.snd (hfailed ⟨_, rfl⟩)
  revert hclock
  decide +kernel

end UdpAnalyzer

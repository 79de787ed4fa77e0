import UdpAnalyzer.Ingress.Freshness
import UdpAnalyzer.Lifecycle.Analyzer
import UdpAnalyzer.Lifecycle.Ownership

/-! The attribution of a collector. What is asked for on the command line is settled when the
collector is built, where `auto` becomes one of the others for good, and every row of every
checkpoint is a row of what it was settled on. -/

namespace UdpAnalyzer

open Method (within ensures_bind ensures_raise ensures_self ensures_update ensures_callOn
  ensures_bind_anything keeps_pure keeps_raise keeps_within)

/-- What can become of an attribution that is asked for. -/
def DeliveryAttribution.SettlesOn : DeliveryAttribution → DeliveryAttribution → Prop
  | .auto, mode => mode = .cookie ∨ mode = .legacy
  | .none, mode => mode = .none
  | .cookie, mode => mode = .cookie
  | .legacy, mode => mode = .legacy

theorem DeliveryAttribution.settlesOn_self {mode : DeliveryAttribution} (h : mode ≠ .auto) :
    mode.SettlesOn mode := by
  cases mode with
  | auto => exact absurd rfl h
  | none => rfl
  | cookie => rfl
  | legacy => rfl

theorem DeliveryAttribution.settlesOn_cookie {asked : DeliveryAttribution} (hnone : asked ≠ .none)
    (hlegacy : asked ≠ .legacy) : asked.SettlesOn .cookie := by
  cases asked with
  | auto => exact .inl rfl
  | none => exact absurd rfl hnone
  | cookie => rfl
  | legacy => exact absurd rfl hlegacy

/-! ### The constructor -/

namespace EbpfCollector

/-- What is settled in a collector. -/
def settings (c : EbpfCollector) : DeliveryAttribution × Bool × Option ℤ :=
  (c.deliveryAttribution, c.hasEnricher, c.deliveredReader)

/-- The collector has settled on an attribution: it has an enricher if it attributes at all, and
reads the map of delivered datagrams if it attributes by socket cookie. -/
structure Settled (asked : DeliveryAttribution) (c : EbpfCollector) : Prop where
  settlesOn : asked.SettlesOn c.deliveryAttribution
  enricher : c.hasEnricher = true ↔ c.deliveryAttribution ≠ .none
  reader : c.deliveredReader.isSome ↔ c.deliveryAttribution = .cookie

/-- The outcome of the constructor: a collector that has settled, if it returns. -/
def Settles (asked : DeliveryAttribution) (r : Except PyExc Unit) (c : EbpfCollector) : Prop :=
  r = .ok () → c.Settled asked

/-- The collector before its delivery is configured. -/
structure Unsettled (asked : DeliveryAttribution) (c : EbpfCollector) : Prop where
  mode : c.deliveryAttribution = asked
  enricher : asked = .none → c.hasEnricher = false
  reader : c.deliveredReader = none

theorem Unsettled.of_settings {asked : DeliveryAttribution} {c c' : EbpfCollector}
    (h : c.Unsettled asked) (hsame : c'.settings = c.settings) : c'.Unsettled asked := by
  obtain ⟨hmode, hrest⟩ := Prod.mk.inj hsame
  obtain ⟨henricher, hreader⟩ := Prod.mk.inj hrest
  exact ⟨hmode.trans h.mode, fun hnone => henricher.trans (h.enricher hnone),
    hreader.trans h.reader⟩

theorem blank_unsettled (args : CollectorArgs) (ifname : Str) :
    (blank args ifname).Unsettled (blank args ifname).deliveryAttribution := by
  refine ⟨rfl, fun hnone => ?_, rfl⟩
  show args.hasEnricher = false
  by_contra henricher
  rw [Bool.not_eq_false] at henricher
  change ite _ _ _ = _ at hnone
  split_ifs at hnone with hasked
  rw [henricher, hnone] at hasked
  exact hasked rfl

variable {me : ℕ} {m : Machine} {asked : DeliveryAttribution} {c : EbpfCollector}

/-- Terms that ask for nothing. -/
abbrev anyTerms : Contract SystemCall Reply Machine := .anywhere fun _ => True

theorem settles_error (e : PyExc) (c : EbpfCollector) : Settles asked (.error e) c := nofun

theorem fallBackToLegacy_settles (henricher : c.hasEnricher = true)
    (hreader : c.deliveredReader = none) (hasked : asked = .auto) :
    fallBackToLegacy.Ensures (serve me) anyTerms (fun r c _ => Settles asked r c) c m := by
  refine ensures_update fun _ _ _ => ⟨?_, ?_, ?_⟩
  · rw [hasked]
    exact .inr rfl
  · exact ⟨fun _ => nofun, fun _ => henricher⟩
  · rw [hreader]
    exact ⟨nofun, nofun⟩

/-- A map of delivered datagrams, whose id is refused or read from then on. -/
theorem readMap_settles (mapId : ℤ) (backend : Str) (henricher : c.hasEnricher = true)
    (hasked : asked.SettlesOn .cookie) :
    (deliveredMapReader mapId >>= fun mapId => Method.update fun c : EbpfCollector =>
      { c with
        deliveredReader := some mapId
        deliveryAttribution := .cookie
        receiveBackend := some backend }).Ensures (serve me) anyTerms
      (fun r c _ => Settles asked r c) c m := by
  unfold deliveredMapReader
  split
  · exact ensures_raise fun _ _ => settles_error _ _
  · refine ensures_update fun _ _ _ => ⟨hasked, ?_, ?_⟩
    · exact ⟨fun _ => nofun, fun _ => henricher⟩
    · exact ⟨fun _ => rfl, fun _ => rfl⟩

theorem attachReceive_settles (args : CollectorArgs) (henricher : c.hasEnricher = true)
    (hreader : c.deliveredReader = none) (hasked : asked.SettlesOn .cookie) :
    (attachReceive args asked).Ensures (serve me) anyTerms (fun r c _ => Settles asked r c) c
      m := by
  have hblank : (receiveBpfAttachment args : Meth EbpfCollector ReceiveBpfAttachment).Keeps
      (serve me) (fun _ => True) (id : EbpfCollector → _) := by
    unfold receiveBpfAttachment
    split
    · exact keeps_pure
    · exact keeps_raise
  apply ensures_bind
  apply (hblank c m).mono
  intro r c' m hc
  have hc : c' = c := hc
  subst hc
  cases r with
  | error e => exact settles_error e _
  | ok attachment =>
    apply ensures_bind
    apply ensures_callOn
    apply (Method.ensures_anything (fun _ _ => trivial) ReceiveBpfAttachment.attach attachment
      m).mono
    intro r attachment m _
    rcases r with e | status
    · dsimp only
      split
      · split
        next hauto => exact fallBackToLegacy_settles henricher hreader hauto
        next => exact ensures_raise fun _ _ => settles_error _ _
      · exact ensures_raise fun _ _ => settles_error _ _
      next heq => cases heq
    · apply ensures_bind
      exact ensures_update fun m _ => readMap_settles status.mapId status.backend henricher hasked

/-- `_configure_delivery` settles what was asked for. -/
theorem configureDelivery_settles (args : CollectorArgs) (hstart : c.Unsettled asked) :
    (configureDelivery args).Ensures (serve me) anyTerms (fun r c _ => Settles asked r c) c m := by
  obtain ⟨hmode, henricher, hreader⟩ := hstart
  apply ensures_bind
  refine ensures_self fun m _ => ?_
  dsimp only
  rw [hmode]
  split
  next hnone =>
    refine fun _ _ _ => ⟨?_, ?_, ?_⟩
    · rw [hmode]
      exact DeliveryAttribution.settlesOn_self (by rw [hnone]; nofun)
    · rw [hmode, henricher hnone, hnone]
      decide
    · rw [hmode, hreader, hnone]
      decide
  next hsome =>
    apply ensures_bind
    refine ensures_update fun m _ => ?_
    dsimp only
    split
    next hlegacy =>
      refine fun _ _ _ => ⟨?_, ⟨fun _ => ?_, fun _ => rfl⟩, ?_⟩
      · show asked.SettlesOn c.deliveryAttribution
        rw [hmode]
        exact DeliveryAttribution.settlesOn_self (by rw [hlegacy]; nofun)
      · show c.deliveryAttribution ≠ .none
        rw [hmode]
        exact hsome
      · show c.deliveredReader.isSome ↔ c.deliveryAttribution = .cookie
        rw [hmode, hreader, hlegacy]
        decide
    next hlegacy =>
      have hcookie := DeliveryAttribution.settlesOn_cookie hsome hlegacy
      split
      · exact attachReceive_settles args rfl hreader hcookie
      · split
        · exact readMap_settles _ _ rfl hcookie
        · split
          next hauto => exact fallBackToLegacy_settles rfl hreader hauto
          next => exact ensures_raise fun _ _ => settles_error _ _

theorem setUp_settles (args : CollectorArgs) (hstart : c.Unsettled asked) :
    (setUp args).Ensures (serve me) anyTerms (fun r c _ => Settles asked r c) c m := by
  have hattach : (if args.attach then
      within attachment (fun a c => { c with attachment := a }) TcBpfAttachment.attach
      else Pure.pure ()).Keeps (serve me) (fun _ => True) settings := by
    split
    · exact keeps_within (TcBpfAttachment.attach_keeps (fun _ _ => trivial) fun _ _ => trivial)
        fun _ _ => rfl
    · exact keeps_pure
  have hrefresh : (within reader (fun r c => { c with reader := r })
      BpftoolMapReader.refreshMapId).Keeps (serve me) (fun _ => True) settings :=
    keeps_within (refreshMapId_keeps fun _ _ => trivial) fun _ _ => rfl
  apply ensures_bind
  apply (hattach c m).mono
  intro r c₁ m hc₁
  cases r with
  | error e => exact settles_error e _
  | ok _ =>
    apply ensures_bind
    apply (hrefresh c₁ m).mono
    intro r c₂ m hc₂
    cases r with
    | error e => exact settles_error e _
    | ok _ => exact configureDelivery_settles args ((hstart.of_settings hc₁).of_settings hc₂)

/-- Whatever the system answers, a collector that is constructed has settled. -/
theorem create_settles {S : Type} (args : CollectorArgs) (self : S) :
    (create args).Ensures (serve me) anyTerms (fun r _ _ => ∀ c, r = .ok c →
      ∃ ifname, c.Settled (blank args ifname).deliveryAttribution) self m := by
  have herror : ∀ (e : PyExc) (self : S) (m : Machine) (c : EbpfCollector),
      (.error e : Except PyExc EbpfCollector) = .ok c →
        ∃ ifname, c.Settled (blank args ifname).deliveryAttribution :=
    fun _ _ _ c h => by cases h
  refine ensures_bind_anything (fun _ _ => trivial) herror (fun ifname self m => ?_) self m
  apply ensures_bind
  apply ensures_callOn
  apply (setUp_settles args (blank_unsettled args ifname)).mono
  intro r c m hc
  dsimp only
  split
  · refine fun m _ c' hc' => ?_
    cases hc'
    exact ⟨ifname, hc rfl⟩
  · exact ensures_raise fun m _ => herror _ self m
  · refine ensures_bind_anything (fun _ _ => trivial) herror (fun undone self m => ?_) self m
    refine ensures_bind_anything (fun _ _ => trivial) herror (fun _ self m => ?_) self m
    exact ensures_raise fun m _ => herror _ self m

end EbpfCollector

/-- The attribution `create_collector` asks for. -/
def RunArgs.attribution (args : RunArgs) : DeliveryAttribution :=
  args.deliveryAttribution.getD (if args.wantsProcesses then .auto else .none)

theorem createCollector_settles {S : Type} {me : ℕ} {m : Machine} (args : RunArgs) (self : S) :
    (createCollector args).Ensures (serve me) EbpfCollector.anyTerms
      (fun r _ _ => ∀ c, r = .ok (.ebpf c) → c.Settled args.attribution) self m := by
  have herror : ∀ (e : PyExc) (self : S) (m : Machine) (c : EbpfCollector),
      (.error e : Except PyExc AnyCollector) = .ok (.ebpf c) → c.Settled args.attribution :=
    fun _ _ _ c h => by cases h
  unfold createCollector
  split
  · exact ensures_raise fun m _ => herror _ self m
  split
  · exact fun _ _ c h => by cases h
  change Method.Ensures _ _ _
    (if decide (args.attribution = .none) && args.wantsProcesses then _ else _) self m
  split
  · exact ensures_raise fun m _ => herror _ self m
  apply ensures_bind
  apply (EbpfCollector.create_settles (args.collectorArgs args.attribution) self).mono
  intro r self m hr
  cases r with
  | error e => exact herror e self m
  | ok c =>
    intro m _ c' hc'
    cases hc'
    obtain ⟨ifname, hsettled⟩ := hr c rfl
    have hblank : (EbpfCollector.blank (args.collectorArgs args.attribution)
        ifname).deliveryAttribution = args.attribution := by
      show ite _ _ _ = _
      rw [if_neg]
      · rfl
      · show ¬ (decide (args.attribution ≠ .none) && decide (args.attribution = .none)) = true
        by_cases hnone : args.attribution = .none
        · rw [hnone]
          decide
        · rw [decide_eq_false hnone, Bool.and_false]
          exact Bool.false_ne_true
    rw [hblank] at hsettled
    exact hsettled

/-! ### The checkpoints -/

/-- The collector as its first checkpoint finds it. -/
def EbpfCollector.atStart (c : EbpfCollector) (args : RunArgs) (sampleFilter : SampleFilter) :
    EbpfIngressCollector where
  ifname := c.attachment.ifname
  bucketMs := args.bucketMs
  sampleFilter := sampleFilter
  processEnricher := if c.hasEnricher then some { processName := args.processName } else none
  deliveryAttribution := c.deliveryAttribution
  deliveredReader := c.deliveredReader

/-- At the start the enricher has cached nothing. -/
theorem EbpfCollector.atStart_enricher (c : EbpfCollector) (args : RunArgs)
    (sampleFilter : SampleFilter) :
    ∀ en₀ ∈ (c.atStart args sampleFilter).processEnricher,
      0 ≤ en₀.cacheTtl ∧ en₀.cachedSockets = [] := by
  intro en₀ hen₀
  change en₀ ∈ ite _ _ _ at hen₀
  split_ifs at hen₀
  · cases hen₀
    exact ⟨show (0 : ℤ) ≤ 1000000000 by decide, rfl⟩
  · cases hen₀

/-! ### Whole runs -/

open EbpfIngressCollector in
/-- Whatever the system answers, a collector that is constructed has settled on the attribution
that was asked for, or for `auto` on one by cookie or by port; and every row of every checkpoint
that completes, whatever became of those before it, is of that attribution, by processes that the
enricher has scanned no longer ago than it allows. -/
theorem rows_follow_attribution (me : ℕ) (m m' : Machine) (replies : List Reply) (args : RunArgs)
    (l l' : Locals) (c : EbpfCollector)
    (h : Script.run (serve me) (createCollector args l) m replies =
      (.done (.ok (.ebpf c), l'), m')) :
    c.Settled args.attribution ∧
    ∀ (sampleFilter : SampleFilter) (inputs : List IngressInput) (input : IngressInput)
      (k : Checkpoint) (c' : EbpfIngressCollector),
      (inputs.foldl (leaves readCheckpoint) (c.atStart args sampleFilter)).readCheckpoint input =
        (.ok k, c') →
      ∀ row ∈ k.samples, RowOf (RecentAfter (c.atStart args sampleFilter) inputs input)
        (listed input.deliveredDump) row c.deliveryAttribution := by
  have hsettled : c.Settled args.attribution :=
    Script.Ensures.run (createCollector_settles args l) Script.along_permits_true h c rfl
  refine ⟨hsettled, fun sampleFilter inputs input k c' hrun row hrow => ?_⟩
  have hstart := c.atStart_enricher args sampleFilter
  obtain ⟨hingress, hdelivered⟩ := run_attested (fun en₀ h => (hstart en₀ h).1)
    (fun en₀ h => (hstart en₀ h).2) hrun
  obtain ⟨hmode, hreader⟩ := Prod.mk.inj (run_delivery (c.atStart args sampleFilter) inputs)
  rcases List.mem_append.mp hrow with hrow | hrow
  · have hof := hingress row hrow
    rw [hmode] at hof
    exact hof.mono (fun _ => id) (List.nil_subset _)
  · obtain ⟨hsome, hof⟩ := hdelivered row hrow
    rw [hreader] at hsome
    rw [hsettled.reader.mp hsome]
    exact hof

/-! Without a loader and without a map of delivered datagrams `auto` settles on ports; two frames
arrive for a port a process listens on. -/

def askAuto : RunArgs where
  collector := .ebpf
  noAttach := true
  processName := some "ffmpeg".toList

def ingressInput (nowNs packets : ℤ) : IngressInput where
  nowNs := nowNs
  ingressDump := .ok [⟨⟨2, 17, 40000, 5000, 2, 0x0A0200C0, 0x146433C6⟩, ⟨packets, 1358 * packets⟩⟩]
  ifIndexToName _ := .error .osError
  sockets _ := ⟨nowNs, scan [receiverFiles 100]⟩

def settledOnPorts : EbpfCollector where
  detachOnClose := true
  hasEnricher := true
  deliveryAttribution := .legacy
  attachment := {
    ifname := "unknown".toList, objectPath := "bpf/udp_ingress.bpf.o".toList
    sec := "classifier/udp_ingress".toList, pref := 49152, attached := false }
  reader := { mapId := some 7 }

theorem rows_follow_attribution_fallback : ∃ m k c,
    Script.run (serve 0) (createCollector askAuto ({} : Locals)) {} (List.replicate 2 .works) =
      (.done (.ok (.ebpf settledOnPorts), {}), m) ∧
    ([ingressInput 5000000000 10].foldl (leaves EbpfIngressCollector.readCheckpoint)
      (settledOnPorts.atStart askAuto {})).readCheckpoint (ingressInput 8000000000 12) =
        (.ok k, c) ∧
    k.samples.map UdpSample.hostPid = [0, 100] ∧ ∀ row ∈ k.samples,
      RowOf (RecentAfter (settledOnPorts.atStart askAuto {}) [ingressInput 5000000000 10]
        (ingressInput 8000000000 12)) [] row .legacy := by
  have hrun : Script.run (serve 0) (createCollector askAuto ({} : Locals)) {}
      (List.replicate 2 .works) = (.done (.ok (.ebpf settledOnPorts), {}), {}) := rfl
  have hpids : (([ingressInput 5000000000 10].foldl (leaves EbpfIngressCollector.readCheckpoint)
      (settledOnPorts.atStart askAuto {})).readCheckpoint
        (ingressInput 8000000000 12)).1.toOption.map (fun k => k.samples.map UdpSample.hostPid) =
      some [0, 100] := by decide +kernel
  rcases hstep : ([ingressInput 5000000000 10].foldl (leaves EbpfIngressCollector.readCheckpoint)
      (settledOnPorts.atStart askAuto {})).readCheckpoint (ingressInput 8000000000 12) with
    ⟨_ | k, c⟩
  · rw [hstep] at hpids
    cases hpids
  · rw [hstep] at hpids
    have hrows := (rows_follow_attribution 0 {} {} _ askAuto {} {} settledOnPorts hrun).2 {}
      [ingressInput 5000000000 10] (ingressInput 8000000000 12) k c hstep
    exact ⟨{}, k, c, hrun, rfl, Option.some.inj hpids, hrows⟩

end UdpAnalyzer

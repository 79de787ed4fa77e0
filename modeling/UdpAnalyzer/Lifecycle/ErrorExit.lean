import UdpAnalyzer.Lifecycle.Supervision

/-! What a run of the ingress analyzer leaves behind when one of its steps fails. The
writer is created while the tc filter is installed already, but before the `try` block,
and it is flushed before it is closed; so the run cleans up completely exactly when
neither of the two calls fails. -/

namespace UdpAnalyzer

open Method

/-! ### The circumstances -/

def notRuntimeError {α : Type} : Except PyExc α → Bool
  | .error (.runtimeError _) => false
  | _ => true

/-- The handler is installed, or it cannot be. -/
def handlerReply {α : Type} : Except PyExc α → Bool
  | .ok _ => true
  | .error .valueError => true
  | .error (.osError _) => true
  | _ => false

/-- The replies of a run whose clean-up commands succeed: any step may fail in any way,
except that the system does not raise the program's own error when it starts the loader or
reads from it, and that the steps between the writer's creation and the `try` block go on. -/
def cleanupWorks (op : SystemCall) (r : Reply) (_ : Machine) : Bool :=
  if op.isCleanup then Succeeds op (r op)
  else if op.kind = .loader then notRuntimeError (r op)
  else
    match op with
    | .monotonic | .enterTry => (r op).isOk
    | .installHandler _ => handlerReply (r op)
    | _ => true

/-- The writer is created and flushed without a failure. -/
def writerWorks (op : SystemCall) (r : Reply) (_ : Machine) : Bool :=
  match op with
  | .createWriter | .flush => (r op).isOk
  | _ => true

theorem cleanupWorks_ofCleanup {op : SystemCall} {r : Reply} {m : Machine}
    (h : cleanupWorks op r m = true) (hop : op.isCleanup = true) : Succeeds op (r op) = true := by
  unfold cleanupWorks at h
  rw [if_pos hop] at h
  exact h

theorem cleanupWorks_ofLoader {op : SystemCall} {r : Reply} {m : Machine}
    (h : cleanupWorks op r m = true) (hop : op.kind = .loader) (hcleanup : op.isCleanup = false) :
    notRuntimeError (r op) = true := by
  unfold cleanupWorks at h
  rw [if_neg (by rw [hcleanup]; decide), if_pos hop] at h
  exact h

theorem writerWorks_ofKind {op : SystemCall} {r : Reply} {m : Machine} (h : op.kind ≠ .analyzer) :
    writerWorks op r m = true := by
  unfold writerWorks
  split <;> first | rfl | exact absurd rfl h

/-- Replies within `cleanupWorks`. -/
abbrev CleanupWorks (op : SystemCall) (r : Reply) (m : Machine) : Prop :=
  cleanupWorks op r m = true

theorem cleanupWorks_circumstances : RunCircumstances CleanupWorks writerWorks where
  cleanup op r m hop hr :=
    .inl ⟨cleanupWorks_ofCleanup hr hop, writerWorks_ofKind (isCleanup_kind hop)⟩
  loader op r m hop hcleanup hr message hreply := by
    have h := cleanupWorks_ofLoader hr hop hcleanup
    rw [hreply] at h
    cases h
  unarmed op r m hop _ _ := writerWorks_ofKind hop
  loop op r m hop := by
    unfold SystemCall.inLoop at hop
    split at hop <;> first | rfl | cases hop
  clock r m _ hr := by
    have h : (r .monotonic).isOk = true := hr
    cases hreply : r .monotonic with
    | ok now => exact ⟨now, rfl⟩
    | error e =>
      rw [hreply] at h
      cases h
  handlers signum r m _ hr := by
    have h : handlerReply (r (.installHandler signum)) = true := hr
    refine ⟨rfl, ?_⟩
    unfold handlerReply at h
    split at h
    · next v hv => exact .inl hv
    · next hv => exact .inr (.inl hv)
    · next kind hv => exact .inr (.inr ⟨kind, hv⟩)
    · cases h
  enter r m hr := by
    have h : (r .enterTry).isOk = true := hr
    refine .inl ⟨?_, rfl⟩
    cases hreply : r .enterTry with
    | ok _ => rfl
    | error e =>
      rw [hreply] at h
      cases h

/-! ### The end of a run -/

/-- A run that leaves nothing behind: the filter and the loader are gone, and a writer that
was created had `flush` and `close` called. -/
def LeavesNothing (me : ℕ) (l : Locals) (m : Machine) : Prop :=
  l.Released me m ∧ (m.writer.created = true →
    m.writer.flushCalled = true ∧ m.writer.closeCalled = true)

instance (me : ℕ) (l : Locals) (m : Machine) : Decidable (l.Released me m) :=
  match l with
  | ⟨some (.ebpf c), _, _⟩ => inferInstanceAs (Decidable (c.detachOnClose = true →
    (c.attachment.ifname, c.attachment.pref, me) ∉ m.filters ∧ m.loader me = false))
  | ⟨some (.channel c), _, _⟩ => inferInstanceAs (Decidable (m.loader me = false ∧
    ∀ a ∈ c.attachment, a.stderrFile = false))
  | ⟨some .dryRun, _, _⟩ => .isTrue trivial
  | ⟨none, _, _⟩ => .isTrue trivial

instance (me : ℕ) (l : Locals) (m : Machine) : Decidable (LeavesNothing me l m) :=
  inferInstanceAs (Decidable (_ ∧ _))

section ErrorExit

variable {S : Type} {me : ℕ}

/-- An attaching collector that detaches when closed. -/
def Attached (me : ℕ) (m : Machine) (collector : AnyCollector) : Prop :=
  ∃ c, collector = .ebpf c ∧ c.detachOnClose = true ∧ EbpfCollector.Installed me c.attachment m

theorem createCollector_attaches {args : RunArgs} (hebpf : args.collector = .ebpf)
    (hattach : args.noAttach = false) (hdetach : args.keepAttached = false) (self : S)
    (m : Machine) :
    (createCollector args).Ensures (serve me) (.alone CleanupWorks)
      (fun r _ m' => ∀ collector, r = .ok collector → Attached me m' collector) self m := by
  unfold createCollector
  rw [hebpf]
  split
  · exact alone_raise fun _ h => by cases h
  dsimp only
  generalize args.deliveryAttribution.getD _ = deliveryAttribution
  split
  · exact alone_raise fun _ h => by cases h
  · have hargs : (args.collectorArgs deliveryAttribution).attach = true := by
      show (!args.noAttach) = true
      rw [hattach]
      rfl
    have hflag : (args.collectorArgs deliveryAttribution).detachOnClose = true := by
      show (!args.keepAttached) = true
      rw [hdetach]
      rfl
    have hown : (EbpfCollector.ownFilter me).Refines
        { Contract.alone CleanupWorks with calls := fun _ _ => True } :=
      ⟨fun _ _ _ _ => trivial, fun _ _ _ => trivial, fun _ _ hst => hst ▸ fun _ _ h => h⟩
    have hinstalls : (EbpfCollector.create (args.collectorArgs deliveryAttribution)).Ensures
        (serve me) { Contract.alone CleanupWorks with calls := fun _ _ => True }
        (fun r (_ : S) m' => ∀ c, r = .ok c → EbpfCollector.Installed me c.attachment m') self m :=
      Script.Ensures.on hown (EbpfCollector.create_installs hargs self)
    have hcreate : (EbpfCollector.create (args.collectorArgs deliveryAttribution)).Ensures
        (serve me) (.alone CleanupWorks)
        (fun r self' _ => self' = self ∧ ∀ c, r = .ok c →
          c.detachOnClose = (args.collectorArgs deliveryAttribution).detachOnClose ∧
          ((args.collectorArgs deliveryAttribution).attach = false →
            c.attachment.place = (args.collectorArgs deliveryAttribution).place))
        self m :=
      Script.Ensures.on (Contract.anywhere_refines fun _ _ _ => trivial)
        (@EbpfCollector.create_ensures me (fun _ => True) (fun _ _ => trivial) (fun _ _ => trivial)
          S _ (fun _ _ _ => trivial) self m)
    apply ensures_bind
    apply Script.Ensures.mono _ (Script.Ensures.and hcreate hinstalls)
    rintro ⟨r, self⟩ m' ⟨⟨_, hc⟩, hinstalled⟩
    cases r with
    | error e => exact fun _ h => by cases h
    | ok c =>
      apply alone_pure
      intro collector hcollector
      cases hcollector
      exact ⟨c, rfl, (hc c rfl).1.trans hflag, hinstalled c rfl⟩

theorem attached_not_released {l : Locals} {m : Machine} {collector : AnyCollector}
    (hl : l.collector = some collector) (h : Attached me m collector) : ¬ l.Released me m := by
  obtain ⟨c, rfl, hdetach, hinstalled⟩ := h
  unfold Locals.Released
  rw [hl]
  exact fun hreleased => (hreleased hdetach).1 hinstalled

theorem released_congr {l l' : Locals} {m m' : Machine} (hl : l'.collector = l.collector)
    (hfilters : m'.filters = m.filters) (hloader : m'.loader = m.loader) :
    l'.Released me m' ↔ l.Released me m := by
  unfold Locals.Released
  rw [hl, hfilters, hloader]

theorem leavesNothing_congr {l l' : Locals} {m m' : Machine} (hl : l'.held = l.held)
    (hfilters : m'.filters = m.filters) (hloader : m'.loader = m.loader) (h : l.Released me m)
    (hwriter : m'.writer.flushCalled = true ∧ m'.writer.closeCalled = true) :
    LeavesNothing me l' m' :=
  ⟨(released_congr (congrArg Prod.fst hl) hfilters hloader).mpr h, fun _ => hwriter⟩

/-- A round of `run` stays within the loop's calls. -/
theorem run_checkpoint_keeps :
    (do
      let samples ← signalled .readCheckpoint
      signalled (.emitSamples samples)
      signalled (.writeSamples samples) : Meth Locals Unit).Keeps (serve me)
        (fun op => op.inLoop = true) Locals.held := by
  apply keeps_bind (signalled_keeps SystemCall.readCheckpoint rfl)
  intro samples
  apply keeps_bind (signalled_keeps (SystemCall.emitSamples samples) rfl)
  exact fun _ => signalled_keeps (SystemCall.writeSamples samples) rfl

/-- Flushing and closing the writer, when the collector is closed. -/
theorem writer_cleanup_leavesNothing {l : Locals} {m : Machine}
    (hcreated : m.writer.created = true) (hopen : m.writer.closeCalled = false)
    (hreleased : l.Released me m) :
    (do
      signalled .flush
      signalled .closeWriter : Meth Locals Unit).Ensures (watching me writerWorks)
        (Script.watched CleanupWorks)
        (fun _ l' s => LeavesNothing me l' s.1 ↔ s.2 = true) l (m, true) := by
  apply ensures_bind
  apply signalled_ensures SystemCall.flush
  intro r l₁ _ hl₁
  have hserve : serve me .flush r m = (r .flush, Machine.effect me .flush (r .flush) m) := rfl
  have hgood : writerWorks .flush r m = (r .flush).isOk := rfl
  rw [hserve, hgood, Bool.true_and]
  cases r .flush with
  | error e =>
    refine ⟨fun h => ?_, nofun⟩
    have hclosed : m.writer.closeCalled = true := (h.2 hcreated).2
    rw [hopen] at hclosed
    cases hclosed
  | ok _ =>
    apply signalled_ensures SystemCall.closeWriter
    intro r l₂ _ hl₂
    refine ⟨fun _ => rfl, fun _ => ?_⟩
    exact leavesNothing_congr (hl₂.trans hl₁) rfl rfl hreleased ⟨rfl, rfl⟩

/-- What `run` has when it creates its writer. -/
structure Starting (me : ℕ) (collector : AnyCollector) (m : Machine) : Prop where
  unarmed : m.armed = false
  unwritten : m.writer = {}
  holds : collector.Holds me m
  attached : Attached me m collector

/-- Nothing is watched for while the collector is created. -/
theorem createCollector_starts {args : RunArgs} (hebpf : args.collector = .ebpf)
    (hattach : args.noAttach = false) (hdetach : args.keepAttached = false)
    {m : Machine} (harmed : m.armed = false) (hloader : m.loader me = false)
    (hwriter : m.writer = {}) :
    (createCollector args).Ensures (watching me writerWorks) (Script.watched CleanupWorks)
      (fun r l s => l = {} ∧ s.2 = true ∧
        ∀ collector, r = .ok collector → Starting me collector s.1) ({} : Locals) (m, true) := by
  have hunarmed : Unarmed {} true (m, true) := ⟨harmed, hwriter, rfl⟩
  have hconstructs : (createCollector args).Ensures (watching me writerWorks)
      (Script.watched CleanupWorks) (Constructed me {} true {}) ({} : Locals) (m, true) :=
    createCollector_constructs cleanupWorks_circumstances.toCircumstances args ({} : Locals) hunarmed
      hloader
  have hattaches : (createCollector args).Ensures (watching me writerWorks)
      (Script.watched CleanupWorks)
      (fun r (_ : Locals) s => ∀ collector, r = .ok collector → Attached me s.1 collector) {}
      (m, true) :=
    Method.Ensures.rewatch (createCollector_attaches hebpf hattach hdetach ({} : Locals) m) true
  apply (Script.Ensures.and hconstructs hattaches).mono
  rintro ⟨r, l⟩ ⟨m₁, b₁⟩ ⟨⟨hl, hunarmed, hholds⟩, hattached⟩
  refine ⟨hl, hunarmed.flag, fun collector hr => ?_⟩
  exact ⟨hunarmed.armed, hunarmed.writer_eq, hholds collector hr, hattached collector hr⟩

/-- Without its writer the run ends at once, and the filter stays. -/
theorem createWriter_ensures {collector : AnyCollector} {m : Machine}
    (hstarting : Starting me collector m) {rest : Meth Locals Unit}
    (hrest : ∀ m', m'.armed = false → m'.writer = { created := true } → collector.Holds me m' →
      rest.Ensures (watching me writerWorks) (Script.watched CleanupWorks)
        (fun _ l s => LeavesNothing me l s.1 ↔ s.2 = true) { collector := some collector }
        (m', true)) :
    (Method.ask SystemCall.createWriter >>= fun _ => rest).Ensures (watching me writerWorks)
      (Script.watched CleanupWorks) (fun _ l s => LeavesNothing me l s.1 ↔ s.2 = true)
      { collector := some collector } (m, true) := by
  apply alone_bind_ask SystemCall.createWriter
  intro r _
  have hstate : (watching me writerWorks .createWriter r (m, true)).2 =
      (Machine.effect me .createWriter (r .createWriter) m, (r .createWriter).isOk) := by
    show (_, true && decide ((r .createWriter).isOk = true)) = _
    rw [Bool.decide_eq_true, Bool.true_and]
    rfl
  have hanswer : (watching me writerWorks .createWriter r (m, true)).1 = r .createWriter := rfl
  rw [hstate, hanswer]
  cases r .createWriter with
  | error e =>
    refine ⟨fun _ _ => ⟨fun h => ?_, nofun⟩, nofun⟩
    exact absurd h.1 (attached_not_released rfl hstarting.attached)
  | ok a =>
    refine ⟨nofun, fun _ _ => hrest _ hstarting.unarmed ?_ hstarting.holds⟩
    show ({ m.writer with created := true } : WriterCalls) = _
    rw [hstarting.unwritten]

/-- With the writer created, what is left behind is told by the replies to its `flush`. -/
theorem supervise_leavesNothing (args : RunArgs) (n : ℕ) {collector : AnyCollector} {m : Machine}
    (harmed : m.armed = false) (hcreated : m.writer = { created := true })
    (hholds : collector.Holds me m) :
    (supervise args.watch args.duration
      (do
        let samples ← signalled .readCheckpoint
        signalled (.emitSamples samples)
        signalled (.writeSamples samples))
      (do
        signalled .flush
        signalled .closeWriter) n).Ensures (watching me writerWorks)
        (Script.watched CleanupWorks) (fun _ l s => LeavesNothing me l s.1 ↔ s.2 = true)
        { collector := some collector } (m, true) := by
  apply supervise_ensures cleanupWorks_circumstances run_checkpoint_keeps harmed rfl
  · intro c hc
    cases hc
    exact hholds
  · intro l' m' _ hwriter'
    refine ⟨fun h => ?_, nofun⟩
    have hflush := (h.2 (by rw [hwriter', hcreated])).1
    rw [hwriter', hcreated] at hflush
    cases hflush
  · intro l' m' _ hwriter' hreleased
    apply writer_cleanup_leavesNothing _ _ hreleased
    · rw [hwriter', hcreated]
    · rw [hwriter', hcreated]

/-- What `run` leaves behind is told by the replies to two of its calls. -/
theorem runAnalyzer_ensures {args : RunArgs} (hebpf : args.collector = .ebpf)
    (hattach : args.noAttach = false) (hdetach : args.keepAttached = false) (n : ℕ)
    {m : Machine} (harmed : m.armed = false) (hloader : m.loader me = false)
    (hwriter : m.writer = {}) :
    (runAnalyzer args n).Ensures (watching me writerWorks) (Script.watched CleanupWorks)
      (fun _ l s => l.collector.isSome = true → (LeavesNothing me l s.1 ↔ s.2 = true)) {}
      (m, true) := by
  apply ensures_bind
  apply (createCollector_starts hebpf hattach hdetach harmed hloader hwriter).mono
  rintro r _ ⟨m₁, _⟩ ⟨rfl, rfl, hstarts⟩
  cases r with
  | error e => exact nofun
  | ok collector =>
    apply ensures_bind
    apply alone_update
    have hwrites := createWriter_ensures (hstarts collector rfl) fun m' =>
      supervise_leavesNothing args n
    exact hwrites.mono fun _ _ _ h _ => h

end ErrorExit

open Script in
/-- Every run of `run` with an attaching collector that detaches when closed, whichever of its
steps fail: if the collector was constructed and the clean-up commands work, then the run
leaves nothing behind exactly when the writer could be created and flushed. -/
theorem run_leaves_nothing_iff (me n : ℕ) (args : RunArgs) (hebpf : args.collector = .ebpf)
    (hattach : args.noAttach = false) (hdetach : args.keepAttached = false) (m : Machine)
    (harmed : m.armed = false) (hloader : m.loader me = false) (hwriter : m.writer = {})
    (replies : List Reply)
    (hreplies : Along (advance (serve me)) (Permits CleanupWorks) (runAnalyzer args n {}, m) replies)
    (r : Except PyExc Unit) (l : Locals) (m' : Machine)
    (hrun : run (serve me) (runAnalyzer args n {}) m replies = (.done (r, l), m'))
    (hcollector : l.collector.isSome = true) :
    LeavesNothing me l m' ↔
      Along (advance (serve me)) (Permits fun op r m => writerWorks op r m = true)
        (runAnalyzer args n {}, m) replies := by
  let P : Except PyExc Unit × Locals → Machine → Prop := fun a _ => a.2.collector.isSome = true
  let Q : Except PyExc Unit × Locals → Machine → Prop := fun a m => LeavesNothing me a.2 m
  have hensures : Script.Ensures (watching me writerWorks) (watched CleanupWorks)
      (fun a s => P a s.1 → (Q a s.1 ↔ s.2 = true)) (runAnalyzer args n {}) (m, true) :=
    runAnalyzer_ensures hebpf hattach hdetach n harmed hloader hwriter
  exact hensures.run_iff hreplies hrun hcollector

/-! One checkpoint on `eth0`. -/

def oneCheckpoint : RunArgs := { collector := .ebpf, interface := some "eth0".toList }

/-- Everything works, but the writer cannot be created: `duckdb` is not installed. -/
def Reply.noWriter : Reply
  | .createWriter => .error (.runtimeError ("DuckDB storage requires the optional dependency: " ++
    "pip install 'ebpf-udp-analyzer[duckdb]'"))
  | op => Reply.works op

/-- The tc filter of a run that cannot create its writer stays behind. -/
theorem failed_writer_leaves_filter :
    Along (Script.advance (serve 0)) (Script.Permits CleanupWorks)
        (runAnalyzer oneCheckpoint 1 {}, {}) (List.replicate 7 .noWriter) ∧
      Script.Returned (fun a m => a.2.collector.isSome = true ∧ ¬ LeavesNothing 0 a.2 m)
        (Script.run (serve 0) (runAnalyzer oneCheckpoint 1 {}) {} (List.replicate 7 .noWriter)) := by
  decide +kernel

theorem run_leaves_nothing_iff_works :
    Script.Returned
      (fun a m => LeavesNothing 0 a.2 m ↔
        Along (Script.advance (serve 0)) (Script.Permits fun op r m => writerWorks op r m = true)
          (runAnalyzer oneCheckpoint 1 {}, {}) (List.replicate 16 .works))
      (Script.run (serve 0) (runAnalyzer oneCheckpoint 1 {}) {} (List.replicate 16 .works)) := by
  have hreturned : Script.Returned (fun a _ => a.2.collector.isSome = true)
      (Script.run (serve 0) (runAnalyzer oneCheckpoint 1 {}) {} (List.replicate 16 .works)) := by
    decide +kernel
  obtain ⟨⟨r, l⟩, m, hrun, hcollector⟩ := hreturned.eq_done
  rw [hrun]
  exact run_leaves_nothing_iff 0 1 oneCheckpoint rfl rfl rfl {} rfl rfl rfl _ (by decide +kernel)
    r l m hrun hcollector

end UdpAnalyzer

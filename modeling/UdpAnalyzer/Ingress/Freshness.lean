import UdpAnalyzer.FailedCheckpoints
import UdpAnalyzer.Ingress.Conservation
import UdpAnalyzer.Ingress.EndToEnd
import UdpAnalyzer.Lib.TimedCache

/-! How old the process of a row can be. The enricher keeps a scan of the process table for a
while, over checkpoints and also over checkpoints that raise. A row names a process only when a
scan has found the process with a socket of its own, and the scan was no older than the enricher
allows when it was asked for the row. -/

namespace UdpAnalyzer

open EbpfIngressCollector

/-! ### The enricher as a cache -/

namespace ProcessSocketEnricher

def cache (en : ProcessSocketEnricher) : TimedCache (List ProcessSocket) :=
  ⟨en.cachedSockets, en.cacheAt⟩

/-- What a call of `sockets()` asks of the cache. -/
def request (en : ProcessSocketEnricher) (call : SocketsCall) :
    CacheRequest (List ProcessSocket) PyExc :=
  ⟨call.monotonic, call.scan en.processName⟩

/-- `sockets()` asks the cache and keeps everything else. -/
theorem sockets_ask (en : ProcessSocketEnricher) (call : SocketsCall) :
    (en.sockets call).1 = (en.cache.ask en.cacheTtl (en.request call)).1 ∧
      (en.sockets call).2.cache = (en.cache.ask en.cacheTtl (en.request call)).2 ∧
      (en.sockets call).2.processName = en.processName ∧
      (en.sockets call).2.cacheTtl = en.cacheTtl := by
  unfold sockets TimedCache.ask
  by_cases hold : call.monotonic - en.cacheAt > en.cacheTtl
  · have hold' : (en.request call).now - en.cache.since > en.cacheTtl := hold
    have hfetch : (en.request call).fetch = call.scan en.processName := rfl
    rw [if_pos hold, if_pos hold', hfetch]
    cases call.scan en.processName with
    | error e => exact ⟨rfl, rfl, rfl, rfl⟩
    | ok found => exact ⟨rfl, rfl, rfl, rfl⟩
  · have hold' : ¬ (en.request call).now - en.cache.since > en.cacheTtl := hold
    rw [if_neg hold, if_neg hold']
    exact ⟨rfl, rfl, rfl, rfl⟩

end ProcessSocketEnricher

/-! ### The calls of a run -/

namespace EbpfIngressCollector

/-- How many enrichments a checkpoint comes to, also if it raises. Each of them calls `sockets()`
at most once. -/
def enrichments (c : EbpfIngressCollector) (input : IngressInput) : ℕ :=
  let bucketNs := bucketStartNs input.nowNs c.bucketMs
  let elapsed := elapsedMs c.bucketMs c.lastCheckpointNs input.nowNs
  match { c with lastCheckpointNs := some input.nowNs }.readIngress input 0 bucketNs elapsed with
  | (.error _, _, n) => n
  | (.ok _, c, n) => (c.readDelivered input n bucketNs elapsed).2.2

/-- The calls of `sockets()` in a run of checkpoints, of each as many as its enrichments. -/
def callsOf (c : EbpfIngressCollector) : List IngressInput → Set SocketsCall
  | [] => ∅
  | input :: rest =>
    { call | ∃ m < c.enrichments input, input.sockets m = call } ∪
      callsOf (leaves readCheckpoint c input) rest

theorem callsOf_concat (c : EbpfIngressCollector) (past : List IngressInput)
    (input : IngressInput) : c.callsOf (past ++ [input]) = c.callsOf past ∪
      { call | ∃ m < (past.foldl (leaves readCheckpoint) c).enrichments input,
        input.sockets m = call } := by
  induction past generalizing c with
  | nil => exact Set.union_comm _ _
  | cons before rest ih =>
    rw [List.cons_append, callsOf, ih, callsOf, Set.union_assoc]
    rfl

end EbpfIngressCollector

/-- The calls of `sockets()` before an enrichment of a checkpoint: the earlier ones and those of
the first `n` enrichments. -/
def callsBefore (earlier : Set SocketsCall) (input : IngressInput) (n : ℕ) : Set SocketsCall :=
  earlier ∪ { call | ∃ m < n, input.sockets m = call }

theorem callsBefore_mono (earlier : Set SocketsCall) (input : IngressInput) {m n : ℕ}
    (h : m ≤ n) : callsBefore earlier input m ⊆ callsBefore earlier input n := by
  rintro call (hearlier | ⟨k, hk, hcall⟩)
  · exact .inl hearlier
  · exact .inr ⟨k, hk.trans_le h, hcall⟩

/-- An enricher that came from another one by calls: it has its name and its time, and keeps
nothing or a scan that one of the calls has made. -/
structure ScannedBy (en₀ : ProcessSocketEnricher) (calls : Set SocketsCall)
    (en : ProcessSocketEnricher) : Prop where
  processName : en.processName = en₀.processName
  cacheTtl : en.cacheTtl = en₀.cacheTtl
  cache : en.cache.FetchedBy [] (en₀.request '' calls)

theorem ScannedBy.mono {en₀ en : ProcessSocketEnricher} {calls later : Set SocketsCall}
    (h : ScannedBy en₀ calls en) (hsub : calls ⊆ later) : ScannedBy en₀ later en :=
  ⟨h.processName, h.cacheTtl, h.cache.mono (Set.image_mono hsub)⟩

/-- A scan of one of the calls has found the process, and at the reading of the clock it is no
older than the enricher allows. -/
def Attested (en₀ : ProcessSocketEnricher) (calls : Set SocketsCall) (now : ℤ)
    (process : ProcessSocket) : Prop :=
  ∃ call ∈ calls, ∃ found, call.scan en₀.processName = .ok found ∧ process ∈ found ∧
    now - call.monotonic ≤ en₀.cacheTtl

theorem ScannedBy.sockets {en₀ en : ProcessSocketEnricher} {calls : Set SocketsCall}
    {call : SocketsCall} (h : ScannedBy en₀ calls en) (hcall : call ∈ calls) :
    ScannedBy en₀ calls (en.sockets call).2 := by
  obtain ⟨-, hcache, hname, hage⟩ := en.sockets_ask call
  refine ⟨hname.trans h.processName, hage.trans h.cacheTtl, ?_⟩
  rw [hcache]
  refine h.cache.ask ⟨call, hcall, ?_⟩
  unfold ProcessSocketEnricher.request
  rw [h.processName]

/-- The sockets a call answers are attested at its reading of the clock. -/
theorem ScannedBy.answer {en₀ en : ProcessSocketEnricher} {calls : Set SocketsCall}
    {call : SocketsCall} (hage : 0 ≤ en₀.cacheTtl) (h : ScannedBy en₀ calls en)
    (hcall : call ∈ calls) {found : List ProcessSocket} (hfound : (en.sockets call).1 = .ok found)
    {process : ProcessSocket} (hprocess : process ∈ found) :
    Attested en₀ calls call.monotonic process := by
  have hrequest : en.request call ∈ en₀.request '' calls := by
    refine ⟨call, hcall, ?_⟩
    unfold ProcessSocketEnricher.request
    rw [h.processName]
  rw [(en.sockets_ask call).1, h.cacheTtl] at hfound
  rcases h.cache.answer hage hrequest hfound with rfl | ⟨_, ⟨call', hcall', rfl⟩, hscan, hnow⟩
  · exact absurd hprocess List.not_mem_nil
  · exact ⟨call', hcall', found, hscan, hprocess, hnow⟩

/-! ### The attribution of a row -/

/-- The attribution of a row, by processes that are known: the row of a frame names no process; in
legacy mode there are rows of the sockets on the destination of a frame, in cookie mode rows of the
entries of the delivered map, each of which may name a process that holds the socket of the
entry. -/
inductive RowOf (Known : ProcessSocket → Prop) (entries : List DeliveredMapEntry)
    (row : UdpSample) : DeliveryAttribution → Prop
  | frame (mode : DeliveryAttribution) (layer : row.layer = .ingress) (bare : row.NoProcess) :
    RowOf Known entries row mode
  | legacy (process : ProcessSocket) (known : Known process) (layer : row.layer = .delivered)
    (names : row.Names process) (socket : row.socketId = process.socketInode)
    (port : process.localPort = row.dstPort)
    (address : process.localIp = "0.0.0.0".toList ∨ process.localIp = row.dstIp) :
    RowOf Known entries row .legacy
  | cookie (e : DeliveredMapEntry) (mem : e ∈ entries) (layer : row.layer = .delivered)
    (socket : row.socketId = e.key.socketCookie)
    (holder : row.NoProcess ∨ ∃ process : ProcessSocket, Known process ∧ row.Names process ∧
      e.value.socketInode ≠ 0 ∧ process.socketInode = e.value.socketInode) :
    RowOf Known entries row .cookie

theorem RowOf.mono {Known Known' : ProcessSocket → Prop} {entries entries' : List DeliveredMapEntry}
    {row : UdpSample} {mode : DeliveryAttribution} (h : RowOf Known entries row mode)
    (hknown : ∀ process, Known process → Known' process) (hentries : entries ⊆ entries') :
    RowOf Known' entries' row mode := by
  cases h with
  | frame mode layer bare => exact .frame _ layer bare
  | legacy process known layer names socket port address =>
    exact .legacy process (hknown process known) layer names socket port address
  | cookie e mem layer socket holder =>
    refine .cookie e (hentries mem) layer socket (holder.imp_right ?_)
    rintro ⟨process, hprocess, hrest⟩
    exact ⟨process, hknown process hprocess, hrest⟩

/-! ### One checkpoint -/

section
variable {first : Option ProcessSocketEnricher} {earlier : Set SocketsCall} {input : IngressInput}

/-- The enricher a run has come to before an enrichment of a checkpoint. -/
def Reached (first : Option ProcessSocketEnricher) (earlier : Set SocketsCall)
    (input : IngressInput) (s : Enriching) : Prop :=
  ∀ en ∈ s.1, ∃ en₀ ∈ first, ScannedBy en₀ (callsBefore earlier input s.2) en

/-- The process was attested when one of the first `N` enrichments of the checkpoint asked. -/
def Recent (first : Option ProcessSocketEnricher) (earlier : Set SocketsCall)
    (input : IngressInput) (N : ℕ) (process : ProcessSocket) : Prop :=
  ∃ en₀ ∈ first, ∃ n < N,
    Attested en₀ (callsBefore earlier input (n + 1)) (input.sockets n).monotonic process

theorem Recent.mono {M N : ℕ} (h : M ≤ N) (process : ProcessSocket) :
    Recent first earlier input M process → Recent first earlier input N process :=
  fun ⟨en₀, hfirst, n, hn, hattested⟩ => ⟨en₀, hfirst, n, hn.trans_le h, hattested⟩

theorem Reached.later {en : ProcessSocketEnricher} {n : ℕ}
    (h : Reached first earlier input (some en, n)) :
    Reached first earlier input (some en, n + 1) := by
  intro en' hen'
  obtain ⟨en₀, hfirst, hscanned⟩ := h en' hen'
  exact ⟨en₀, hfirst, hscanned.mono (callsBefore_mono earlier input n.le_succ)⟩

/-- A call of `sockets()`, with what it answers. -/
theorem Reached.sockets (hage : ∀ en₀ ∈ first, 0 ≤ en₀.cacheTtl) {en : ProcessSocketEnricher}
    {n : ℕ} (h : Reached first earlier input (some en, n)) :
    Reached first earlier input (some (en.sockets (input.sockets n)).2, n + 1) ∧
      ∀ found, (en.sockets (input.sockets n)).1 = .ok found → ∀ process ∈ found,
        Recent first earlier input (n + 1) process := by
  obtain ⟨en₀, hfirst, hscanned⟩ := h.later en rfl
  have hcall : input.sockets n ∈ callsBefore earlier input (n + 1) := .inr ⟨n, n.lt_succ_self, rfl⟩
  constructor
  · rintro en' hen'
    cases hen'
    exact ⟨en₀, hfirst, hscanned.sockets hcall⟩
  · intro found hfound process hprocess
    exact ⟨en₀, hfirst, n, n.lt_succ_self,
      hscanned.answer (hage en₀ hfirst) hcall hfound hprocess⟩

/-- What an enrichment leaves, and the rows it gives if it completes. -/
def Enriched (first : Option ProcessSocketEnricher) (earlier : Set SocketsCall)
    (input : IngressInput) (entries : List DeliveredMapEntry) (mode : DeliveryAttribution) (n : ℕ)
    (r : Except PyExc (List UdpSample) × ProcessSocketEnricher) : Prop :=
  Reached first earlier input (some r.2, n) ∧
    ∀ rows, r.1 = .ok rows → ∀ row ∈ rows, RowOf (Recent first earlier input n) entries row mode

theorem enrich_attested (hage : ∀ en₀ ∈ first, 0 ≤ en₀.cacheTtl) {en : ProcessSocketEnricher}
    {n : ℕ} (h : Reached first earlier input (some en, n)) {sample : UdpSample}
    (hsample : sample.NoProcess) (hlayer : sample.layer = .ingress)
    (entries : List DeliveredMapEntry) :
    Enriched first earlier input entries .legacy (n + 1) (en.enrich (input.sockets n) sample) := by
  obtain ⟨hreached, hanswer⟩ := h.sockets hage
  unfold ProcessSocketEnricher.enrich
  rcases hsockets : en.sockets (input.sockets n) with ⟨_ | found, en'⟩
  · rw [hsockets] at hreached
    refine ⟨hreached, fun rows hrows => ?_⟩
    cases hrows
  · rw [hsockets] at hreached hanswer
    refine ⟨hreached, fun rows hrows row hrow => ?_⟩
    cases hrows
    rcases List.mem_cons.mp hrow with rfl | hmatched
    · exact .frame _ hlayer hsample
    · obtain ⟨process, hprocess, rfl⟩ := List.mem_map.mp hmatched
      obtain ⟨hfound, hdestination⟩ := List.mem_filter.mp hprocess
      rw [Bool.and_eq_true, Bool.or_eq_true, decide_eq_true_eq, decide_eq_true_eq,
        decide_eq_true_eq] at hdestination
      exact .legacy process (hanswer found rfl process hfound) rfl rfl rfl hdestination.1
        hdestination.2

theorem enrichExact_attested (hage : ∀ en₀ ∈ first, 0 ≤ en₀.cacheTtl) {en : ProcessSocketEnricher}
    {n : ℕ} (h : Reached first earlier input (some en, n)) {sample : UdpSample}
    (hsample : sample.NoProcess) (e : DeliveredMapEntry) :
    Enriched first earlier input [e] .cookie (n + 1)
      (en.enrichExact (input.sockets n) sample e.value.socketInode e.key.socketCookie) := by
  have hself : e ∈ [e] := List.mem_singleton_self e
  have hbare : ∀ row ∈ ProcessSocketEnricher.attributedRows sample e.key.socketCookie [],
      RowOf (Recent first earlier input (n + 1)) [e] row .cookie := by
    intro row hrow
    rw [List.mem_singleton.mp hrow]
    exact .cookie e hself rfl rfl (.inl hsample)
  unfold ProcessSocketEnricher.enrichExact
  split_ifs with hinode
  · refine ⟨h.later, fun rows hrows => ?_⟩
    cases hrows
    exact hbare
  · obtain ⟨hreached, hanswer⟩ := h.sockets hage
    rcases hsockets : en.sockets (input.sockets n) with ⟨_ | found, en'⟩
    · rw [hsockets] at hreached
      refine ⟨hreached, fun rows hrows => ?_⟩
      cases hrows
    · rw [hsockets] at hreached hanswer
      refine ⟨hreached, fun rows hrows row hrow => ?_⟩
      cases hrows
      have hmatch : ∀ process ∈ findInodeMatches found e.value.socketInode,
          process ∈ found ∧ process.socketInode = e.value.socketInode := by
        intro process hprocess
        obtain ⟨hmem, hsame⟩ := List.mem_filter.mp hprocess
        exact ⟨hmem, of_decide_eq_true hsame⟩
      cases hmatched : findInodeMatches found e.value.socketInode with
      | nil =>
        rw [hmatched] at hrow
        exact hbare row hrow
      | cons holder rest =>
        rw [hmatched] at hrow hmatch
        obtain ⟨process, hprocess, rfl⟩ := List.mem_map.mp hrow
        obtain ⟨hfound, hsame⟩ := hmatch process hprocess
        exact .cookie e hself rfl rfl
          (.inr ⟨process, hanswer found rfl process hfound, rfl, hinode, hsame⟩)

namespace EbpfIngressCollector

theorem ingressSample_bare {fallback : Str} {bucketNs elapsed : ℤ} {e : UdpMapEntry}
    {d : UdpMapCounters} {b : UdpSample}
    (h : ingressSample input fallback bucketNs elapsed e d = .ok b) :
    b.NoProcess ∧ b.layer = .ingress := by
  obtain ⟨srcIp, -, h⟩ := bind_eq_ok h
  obtain ⟨dstIp, -, h⟩ := bind_eq_ok h
  obtain ⟨ifname, -, h⟩ := bind_eq_ok h
  cases h
  exact ⟨rfl, rfl⟩

/-- What an emission leaves, and the rows it gives if it completes. -/
def Emitted (first : Option ProcessSocketEnricher) (earlier : Set SocketsCall)
    (input : IngressInput) (entries : List DeliveredMapEntry) (mode : DeliveryAttribution)
    (r : Except PyExc (UdpSample × List UdpSample) × Enriching) : Prop :=
  Reached first earlier input r.2 ∧ ∀ b rows, r.1 = .ok (b, rows) → ∀ row ∈ rows,
    RowOf (Recent first earlier input r.2.2) entries row mode

section
variable {entries : List DeliveredMapEntry} {mode : DeliveryAttribution}

theorem emitted_error {s : Enriching} (h : Reached first earlier input s) (x : PyExc) :
    Emitted first earlier input entries mode (.error x, s) := by
  refine ⟨h, fun b rows hrows => ?_⟩
  cases hrows

/-- A sample that is not enriched. -/
theorem emitted_bare {s : Enriching} (h : Reached first earlier input s) {b : UdpSample}
    (hb : RowOf (Recent first earlier input s.2) entries b mode) (keep : UdpSample → Bool) :
    Emitted first earlier input entries mode (.ok (b, [b].filter keep), s) := by
  refine ⟨h, fun b' rows hrows row hrow => ?_⟩
  cases hrows
  rw [List.mem_singleton.mp (List.mem_of_mem_filter hrow)]
  exact hb

theorem emitIngress_attested (hage : ∀ en₀ ∈ first, 0 ≤ en₀.cacheTtl) (c : EbpfIngressCollector)
    (bucketNs elapsed : ℤ) (e : UdpMapEntry) (d : UdpMapCounters) (s : Enriching)
    (h : Reached first earlier input s) :
    Emitted first earlier input entries c.deliveryAttribution
      (c.emitIngress input bucketNs elapsed e d s) := by
  obtain ⟨enricher, n⟩ := s
  simp only [emitIngress]
  cases hsample : ingressSample input c.ifname bucketNs elapsed e d with
  | error x => exact emitted_error h x
  | ok sample =>
    obtain ⟨hbare, hlayer⟩ := ingressSample_bare hsample
    dsimp only
    split
    next en hmode =>
      rw [hmode]
      obtain ⟨hreached, hrows⟩ := enrich_attested hage h hbare hlayer entries
      rcases henrich : en.enrich (input.sockets n) sample with ⟨_ | rows, en'⟩
      · rw [henrich] at hreached
        exact emitted_error hreached _
      · rw [henrich] at hreached hrows
        refine ⟨hreached, fun b rows' hrows' row hrow => ?_⟩
        cases hrows'
        exact hrows rows rfl row (List.mem_of_mem_filter hrow)
    next => exact emitted_bare h (.frame _ hlayer hbare) _

theorem emitDelivered_attested (hage : ∀ en₀ ∈ first, 0 ≤ en₀.cacheTtl)
    (c : EbpfIngressCollector) (bucketNs elapsed : ℤ) (e : DeliveredMapEntry)
    (d : UdpMapCounters) (s : Enriching) (h : Reached first earlier input s) :
    Emitted first earlier input [e] .cookie
      (c.emitDelivered input bucketNs elapsed e d s) := by
  obtain ⟨enricher, n⟩ := s
  simp only [emitDelivered]
  cases hsample : deliveredSample input c.ifname bucketNs elapsed e d with
  | error x => exact emitted_error h x
  | ok sample =>
    obtain ⟨hbare, hlayer, hsocket, -⟩ := deliveredSample_bare hsample
    cases enricher with
    | none =>
      exact emitted_bare h
        (.cookie e (List.mem_singleton_self e) hlayer hsocket (.inl hbare)) _
    | some en =>
      dsimp only
      obtain ⟨hreached, hrows⟩ := enrichExact_attested hage h hbare e
      rcases henrich : en.enrichExact (input.sockets n) sample e.value.socketInode
        e.key.socketCookie with ⟨_ | rows, en'⟩
      · rw [henrich] at hreached
        exact emitted_error hreached _
      · rw [henrich] at hreached hrows
        refine ⟨hreached, fun b rows' hrows' row hrow => ?_⟩
        cases hrows'
        exact hrows rows rfl row (List.mem_of_mem_filter hrow)

end

/-- An emission of the ingress pass takes back no enrichment. -/
theorem emitIngress_mono (c : EbpfIngressCollector) (bucketNs elapsed : ℤ) (e : UdpMapEntry)
    (d : UdpMapCounters) (s : Enriching) :
    s.2 ≤ (c.emitIngress input bucketNs elapsed e d s).2.2 := by
  obtain ⟨enricher, n⟩ := s
  simp only [emitIngress]
  split
  · exact le_refl n
  · split
    · split <;> exact Nat.le_succ n
    · exact le_refl n

/-- What a pass leaves, also when it raises, and the rows it gives if it completes. -/
def Passed (first : Option ProcessSocketEnricher) (earlier : Set SocketsCall)
    (input : IngressInput) (entries : List DeliveredMapEntry) (mode : DeliveryAttribution)
    (s : Enriching) (r : Except PyExc (List UdpEmission)) : Prop :=
  Reached first earlier input s ∧ ∀ ems, r = .ok ems → ∀ row ∈ ems.flatMap Emission.rows,
    RowOf (Recent first earlier input s.2) entries row mode

theorem passed_error {entries : List DeliveredMapEntry} {mode : DeliveryAttribution}
    {s : Enriching} (h : Reached first earlier input s) (x : PyExc) :
    Passed first earlier input entries mode s (.error x) := by
  refine ⟨h, fun ems hems => ?_⟩
  cases hems

/-- A pass over a dump whose entries bring entries of the delivered map with them, or none. -/
theorem readDump_attested {E : Type*} {L : CounterLoop E UdpIdentity UdpMapCounters UdpField}
    {emit : E → UdpMapCounters → Enriching → Except PyExc (UdpSample × List UdpSample) × Enriching}
    {own : E → List DeliveredMapEntry} {entries : List DeliveredMapEntry}
    {mode : DeliveryAttribution}
    (hemit : ∀ e d s, Reached first earlier input s →
      Emitted first earlier input (own e) mode (emit e d s))
    (hmono : ∀ e d s, s.2 ≤ (emit e d s).2.2) {dump : List E} (hown : ∀ e ∈ dump, own e ⊆ entries)
    (previous : Dict UdpIdentity UdpMapCounters) {s : Enriching}
    (h : Reached first earlier input s) :
    Passed first earlier input entries mode (L.readDump emit dump previous s).2.2
      (L.readDump emit dump previous s).1 := by
  refine ⟨L.readDump_inv (fun e d s hs => (hemit e d s hs).1) dump previous h, ?_⟩
  have hspec : ∀ N, CounterLoop.EmitSpecUpTo Prod.snd N emit (Reached first earlier input)
      fun e _ _ rows => ∀ row ∈ rows, RowOf (Recent first earlier input N) (own e) row mode := by
    intro N e d s b rows s' hs hr hN
    obtain ⟨hreached, hrows⟩ := hemit e d s hs
    rw [hr] at hreached hrows
    exact ⟨fun row hrow => (hrows b rows rfl row hrow).mono (Recent.mono hN)
      (List.Subset.refl _), hreached⟩
  intro ems hems row hrow
  obtain ⟨em, hem, hrow⟩ := List.mem_flatMap.mp hrow
  obtain ⟨hcompleted, -⟩ := L.readDump_upTo hmono h (hspec _) (Prod.ext hems rfl)
  obtain ⟨e, d, he, -, -, hrows⟩ := hcompleted.built em hem
  exact (hrows row hrow).mono (fun _ => id) (hown e he)

theorem readIngress_attested (hage : ∀ en₀ ∈ first, 0 ≤ en₀.cacheTtl) (c : EbpfIngressCollector)
    (n : ℕ) (bucketNs elapsed : ℤ) (entries : List DeliveredMapEntry)
    (h : Reached first earlier input (c.processEnricher, n)) :
    Passed first earlier input entries c.deliveryAttribution
      ((c.readIngress input n bucketNs elapsed).2.1.processEnricher,
        (c.readIngress input n bucketNs elapsed).2.2)
      (c.readIngress input n bucketNs elapsed).1 := by
  simp only [readIngress]
  cases input.ingressDump with
  | error x => exact passed_error h x
  | ok dump =>
    exact readDump_attested (L := ingressLoop) (emitIngress_attested hage c bucketNs elapsed)
      (emitIngress_mono c bucketNs elapsed) (fun _ _ => List.Subset.refl entries) c.previous h

theorem readDelivered_attested (hage : ∀ en₀ ∈ first, 0 ≤ en₀.cacheTtl)
    (c : EbpfIngressCollector) (n : ℕ) (bucketNs elapsed : ℤ)
    (h : Reached first earlier input (c.processEnricher, n)) :
    Passed first earlier input (listed input.deliveredDump) .cookie
      ((c.readDelivered input n bucketNs elapsed).2.1.processEnricher,
        (c.readDelivered input n bucketNs elapsed).2.2)
      (c.readDelivered input n bucketNs elapsed).1 := by
  simp only [readDelivered]
  cases c.deliveredReader with
  | none =>
    refine ⟨h, fun ems hems row hrow => ?_⟩
    cases hems
    exact absurd hrow List.not_mem_nil
  | some id =>
    cases input.deliveredDump with
    | error x => exact passed_error h x
    | ok dump =>
      exact readDump_attested (L := deliveredLoop) (emitDelivered_attested hage c bucketNs elapsed)
        (fun e d s => (emitDelivered_enrichments c input bucketNs elapsed e d s).1)
        (fun e he _ hmem => List.mem_singleton.mp hmem ▸ he) c.deliveredPrevious h

/-- The delivered pass takes back no enrichment, and gives nothing without a reader. -/
theorem readDelivered_mono (c : EbpfIngressCollector) (input : IngressInput) (n : ℕ) (bucketNs elapsed : ℤ) :
    n ≤ (c.readDelivered input n bucketNs elapsed).2.2 ∧
      ∀ ems, (c.readDelivered input n bucketNs elapsed).1 = .ok ems → ems ≠ [] →
        c.deliveredReader.isSome := by
  simp only [readDelivered]
  cases c.deliveredReader with
  | none =>
    refine ⟨le_refl n, fun ems hems hne => ?_⟩
    cases hems
    exact absurd rfl hne
  | some id =>
    refine ⟨?_, fun _ _ _ => rfl⟩
    cases input.deliveredDump with
    | error x => exact le_refl n
    | ok dump =>
      have hkeep : ∀ e d (s : Enriching), n ≤ s.2 →
          n ≤ (c.emitDelivered input bucketNs elapsed e d s).2.2 :=
        fun e d s hs => hs.trans (emitDelivered_enrichments c input bucketNs elapsed e d s).1
      exact deliveredLoop.readDump_inv hkeep dump c.deliveredPrevious
        (show n ≤ (c.processEnricher, n).2 from le_refl n)

/-- What is attested of the rows of a checkpoint. -/
structure AttestedRows (c : EbpfIngressCollector) (entries : List DeliveredMapEntry)
    (Known : ProcessSocket → Prop) (k : Checkpoint) : Prop where
  ingress : ∀ row ∈ k.ingress.flatMap Emission.rows, RowOf Known [] row c.deliveryAttribution
  delivered : ∀ row ∈ k.delivered.flatMap Emission.rows,
    c.deliveredReader.isSome ∧ RowOf Known entries row .cookie

/-- A checkpoint keeps to the calls of the run, whether or not it raises, and the rows it returns
are attested. -/
theorem readCheckpoint_attested (hage : ∀ en₀ ∈ first, 0 ≤ en₀.cacheTtl)
    (c : EbpfIngressCollector) (h : Reached first earlier input (c.processEnricher, 0)) :
    Reached first earlier input
        ((c.readCheckpoint input).2.processEnricher, c.enrichments input) ∧
      ∀ k, (c.readCheckpoint input).1 = .ok k → AttestedRows c (listed input.deliveredDump)
        (Recent first earlier input (c.enrichments input)) k := by
  simp only [readCheckpoint, enrichments]
  obtain ⟨hingress, hingressRows⟩ := readIngress_attested hage
    { c with lastCheckpointNs := some input.nowNs } 0 (bucketStartNs input.nowNs c.bucketMs)
    (elapsedMs c.bucketMs c.lastCheckpointNs input.nowNs) [] h
  have hdelivery := readIngress_delivery { c with lastCheckpointNs := some input.nowNs } input
    0 (bucketStartNs input.nowNs c.bucketMs) (elapsedMs c.bucketMs c.lastCheckpointNs input.nowNs)
  rcases hi : ({ c with lastCheckpointNs := some input.nowNs } : EbpfIngressCollector).readIngress
    input 0 (bucketStartNs input.nowNs c.bucketMs)
    (elapsedMs c.bucketMs c.lastCheckpointNs input.nowNs) with ⟨_ | ingress, c₁, n₁⟩
  · rw [hi] at hingress
    refine ⟨hingress, fun k hk => ?_⟩
    cases hk
  · rw [hi] at hingress hingressRows hdelivery
    have hdelivered := readDelivered_attested hage c₁ n₁
      (bucketStartNs input.nowNs c.bucketMs)
      (elapsedMs c.bucketMs c.lastCheckpointNs input.nowNs) hingress
    have hmono := readDelivered_mono c₁ input n₁ (bucketStartNs input.nowNs c.bucketMs)
      (elapsedMs c.bucketMs c.lastCheckpointNs input.nowNs)
    dsimp only
    rcases hd : c₁.readDelivered input n₁ (bucketStartNs input.nowNs c.bucketMs)
      (elapsedMs c.bucketMs c.lastCheckpointNs input.nowNs) with ⟨_ | delivered, c₂, n₂⟩
    · rw [hd] at hdelivered
      refine ⟨hdelivered.1, fun k hk => ?_⟩
      cases hk
    · rw [hd] at hdelivered hmono
      refine ⟨hdelivered.1, fun k hk => ?_⟩
      cases hk
      refine ⟨fun row hrow => ?_, fun row hrow => ⟨?_, hdelivered.2 _ rfl row hrow⟩⟩
      · exact (hingressRows ingress rfl row hrow).mono (Recent.mono hmono.1)
          (List.Subset.refl _)
      · have hreader : c₁.deliveredReader = c.deliveredReader := congrArg Prod.snd hdelivery
        rw [← hreader]
        apply hmono.2 delivered rfl
        rintro rfl
        exact absurd hrow List.not_mem_nil

end EbpfIngressCollector

end

/-! ### Whole runs -/

/-- However the checkpoints of a run ended, the enricher keeps to its calls. -/
theorem run_reached {c₀ : EbpfIngressCollector}
    (hage : ∀ en₀ ∈ c₀.processEnricher, 0 ≤ en₀.cacheTtl)
    (hempty : ∀ en₀ ∈ c₀.processEnricher, en₀.cachedSockets = []) (past : List IngressInput)
    (input : IngressInput) :
    Reached c₀.processEnricher (c₀.callsOf past) input
      ((past.foldl (leaves readCheckpoint) c₀).processEnricher, 0) := by
  induction past using List.reverseRecOn generalizing input with
  | nil => exact fun en hen => ⟨en, hen, rfl, rfl, .inl (hempty en hen)⟩
  | append_singleton past before ih =>
    obtain ⟨hreached, -⟩ := readCheckpoint_attested hage _ (ih before)
    rw [List.foldl_append, c₀.callsOf_concat]
    intro en hen
    obtain ⟨en₀, hfirst, hscanned⟩ := hreached en hen
    exact ⟨en₀, hfirst, hscanned.mono Set.subset_union_left⟩

/-- A process that a checkpoint after a run can name: a scan has found it, at most as long ago as
the enricher allows when an enrichment of the checkpoint asked for it. -/
def RecentAfter (c₀ : EbpfIngressCollector) (past : List IngressInput) (input : IngressInput) :
    ProcessSocket → Prop :=
  Recent c₀.processEnricher (c₀.callsOf past) input
    ((past.foldl (leaves readCheckpoint) c₀).enrichments input)

/-- What is attested of the rows of a checkpoint after a run. -/
theorem run_attested {c₀ : EbpfIngressCollector}
    (hage : ∀ en₀ ∈ c₀.processEnricher, 0 ≤ en₀.cacheTtl)
    (hempty : ∀ en₀ ∈ c₀.processEnricher, en₀.cachedSockets = []) {past : List IngressInput}
    {input : IngressInput} {k : Checkpoint} {c : EbpfIngressCollector}
    (h : (past.foldl (leaves readCheckpoint) c₀).readCheckpoint input = (.ok k, c)) :
    AttestedRows (past.foldl (leaves readCheckpoint) c₀) (listed input.deliveredDump)
      (RecentAfter c₀ past input) k :=
  (readCheckpoint_attested hage _ (run_reached hage hempty past input)).2 k (by rw [h])

/-- What a scan of the process table meets: the clock, and the files of the processes. -/
structure ProcLook where
  monotonic : ℤ
  processes : List ProcessFiles

def ProcLook.call (look : ProcLook) : SocketsCall := ⟨look.monotonic, scan look.processes⟩

/-- What a checkpoint meets when its enrichments look at a process table; what `sockets` of the
surroundings says does not matter. -/
structure ProcCheckpoint where
  surroundings : IngressInput
  look : ℕ → ProcLook

def ProcCheckpoint.input (i : ProcCheckpoint) : IngressInput :=
  { i.surroundings with sockets := fun n => (i.look n).call }

/-- The looks of a run of checkpoints, of each as many as its enrichments. -/
def EbpfIngressCollector.looksOf (c : EbpfIngressCollector) : List ProcCheckpoint → Set ProcLook
  | [] => ∅
  | i :: rest =>
    { look | ∃ m < c.enrichments i.input, i.look m = look } ∪
      looksOf (leaves readCheckpoint c i.input) rest

theorem EbpfIngressCollector.callsOf_looks (c : EbpfIngressCollector)
    (past : List ProcCheckpoint) :
    c.callsOf (past.map ProcCheckpoint.input) = ProcLook.call '' c.looksOf past := by
  induction past generalizing c with
  | nil => exact (Set.image_empty _).symm
  | cons i rest ih =>
    rw [List.map_cons, callsOf, ih, looksOf, Set.image_union]
    congr 1
    ext call
    constructor
    · rintro ⟨m, hm, rfl⟩
      exact ⟨i.look m, ⟨m, hm, rfl⟩, rfl⟩
    · rintro ⟨_, ⟨m, hm, rfl⟩, rfl⟩
      exact ⟨m, hm, rfl⟩

/-- The looks before an enrichment, of earlier checkpoints and of this one, and its own. -/
def looksUpTo (c₀ : EbpfIngressCollector) (past : List ProcCheckpoint) (last : ProcCheckpoint)
    (n : ℕ) : Set ProcLook :=
  c₀.looksOf past ∪ { look | ∃ m ≤ n, last.look m = look }

/-- The files are of the process, it has the wanted name if one is wanted, and a descriptor of it
is a link to the socket. -/
def ProcessFiles.Holds (p : ProcessFiles) (wanted : Option Str) (process : ProcessSocket) : Prop :=
  p.pid = process.hostPid ∧
    (∃ comm, readText p.comm = .ok comm ∧ process.processName = strip comm) ∧
    (∀ name ∈ wanted, name ≠ [] → process.processName = name) ∧
    ∃ inodes, p.socketInodes = .ok inodes ∧ process.socketInode ∈ inodes

/-- A scan finds the sockets that processes hold. -/
theorem scan_holds {processes : List ProcessFiles} {wanted : Option Str}
    {found : List ProcessSocket} (h : scan processes wanted = .ok found) {process : ProcessSocket}
    (hprocess : process ∈ found) : ∃ p ∈ processes, p.Holds wanted process := by
  obtain ⟨parts, hparts, hfound⟩ := bind_eq_ok h
  cases hfound
  obtain ⟨p, hp, rows, hrows, hrow⟩ := (mem_flatten_of_mapM hparts).mp hprocess
  refine ⟨p, hp, ?_⟩
  obtain ⟨comm, hcomm, hrows⟩ := bind_eq_ok hrows
  dsimp only at hrows
  split_ifs at hrows with hname
  · cases hrows
    exact absurd hrow List.not_mem_nil
  obtain ⟨inodes, hinodes, hrows⟩ := bind_eq_ok hrows
  split_ifs at hrows
  · cases hrows
    exact absurd hrow List.not_mem_nil
  obtain ⟨commandLine, -, hrows⟩ := bind_eq_ok hrows
  obtain ⟨containerId, -, hrows⟩ := bind_eq_ok hrows
  obtain ⟨containerPid, -, hrows⟩ := bind_eq_ok hrows
  obtain ⟨netnsId, -, hrows⟩ := bind_eq_ok hrows
  obtain ⟨table, -, hrows⟩ := bind_eq_ok hrows
  cases hrows
  obtain ⟨entry, hentry, rfl⟩ := List.mem_map.mp hrow
  obtain ⟨-, hheld⟩ := List.mem_filter.mp hentry
  refine ⟨rfl, ⟨comm, hcomm, rfl⟩, ?_, inodes, hinodes, of_decide_eq_true hheld⟩
  rintro name hwanted hne
  cases hwanted
  by_contra hother
  exact hname (by simp [hne, hother])

/-- The row names the process by the socket it is of. In legacy mode the row has the inode of the
socket, and the socket is bound to the row's destination; a row of an entry of the delivered map
has its cookie, and the entry has the inode. -/
def UdpSample.NamesBySocket (row : UdpSample) (c : EbpfIngressCollector)
    (entries : List DeliveredMapEntry) (process : ProcessSocket) : Prop :=
  row.Names process ∧
    (c.deliveryAttribution = .legacy ∧ row.socketId = process.socketInode ∧
        process.localPort = row.dstPort ∧
        (process.localIp = "0.0.0.0".toList ∨ process.localIp = row.dstIp) ∨
      c.deliveredReader.isSome ∧ ∃ e ∈ entries, row.socketId = e.key.socketCookie ∧
        e.value.socketInode ≠ 0 ∧ process.socketInode = e.value.socketInode)

/-- A row that names a process at all names it by the socket. -/
theorem RowOf.names {c : EbpfIngressCollector} {own entries : List DeliveredMapEntry}
    {Known : ProcessSocket → Prop} {row : UdpSample} {mode : DeliveryAttribution}
    (h : RowOf Known own row mode) (hmode : mode = .legacy → c.deliveryAttribution = .legacy)
    (hown : ∀ e ∈ own, e ∈ entries ∧ c.deliveredReader.isSome) :
    row.NoProcess ∨ ∃ process, Known process ∧ row.NamesBySocket c entries process := by
  cases h with
  | frame mode layer bare => exact .inl bare
  | legacy process known layer names socket port address =>
    exact .inr ⟨process, known, names, .inl ⟨hmode rfl, socket, port, address⟩⟩
  | cookie e mem layer socket holder =>
    refine holder.imp_right ?_
    rintro ⟨process, hknown, hnames, hinode, hsame⟩
    obtain ⟨hlisted, hreader⟩ := hown e mem
    exact ⟨process, hknown, hnames, .inr ⟨hreader, e, hlisted, socket, hinode, hsame⟩⟩

def lookingAt (pid nowNs packets : ℤ) : ProcCheckpoint where
  surroundings := deliveredInput [] nowNs packets
  look _ := ⟨nowNs, [receiverFiles pid]⟩

def lookingFailed (nowNs : ℤ) : ProcCheckpoint where
  surroundings := { deliveredInput [] nowNs 0 with ingressDump := .error (.runtimeError "bpftool") }
  look _ := ⟨nowNs, []⟩

def handedOver : List ProcCheckpoint :=
  [lookingAt 100 5000000000 10, lookingAt 100 8000000000 20, lookingFailed 8200000000]

end UdpAnalyzer

import UdpAnalyzer.Ingress.EndToEnd

/-! The rows of the delivered layer in cookie mode. A row of a socket and a flow carries the
datagrams that were delivered to it since the checkpoint before, once for every process that
holds the socket; the interface it names and the inode by which its process is found were seen
with a datagram of the flow. -/

namespace UdpAnalyzer

open Snapshot EbpfIngressCollector

variable {n : ℕ}

/-! ### The datagrams of a key -/

/-- The datagram an event delivers under a key. -/
def PacketEvent.datagramOf (key : DeliveredKey) : PacketEvent n → Option DeliveredDatagram
  | .arrives _ => none
  | .receives program call => (call.datagram program).filter fun datagram => datagram.key = key

/-- The datagrams that are delivered under a key, in order. -/
def deliveredDatagrams (events : List (PacketEvent n)) (key : DeliveredKey) :
    List DeliveredDatagram :=
  events.flatMap fun event => (event.datagramOf key).toList

/-- What datagrams come to. -/
def deliveredSum (datagrams : List DeliveredDatagram) (f : UdpField) : ℕ :=
  (datagrams.map fun datagram => datagramAmount (payloadBytes datagram.udpLen) f).sum

theorem deliveredDatagrams_append (events later : List (PacketEvent n)) (key : DeliveredKey) :
    deliveredDatagrams (events ++ later) key =
      deliveredDatagrams events key ++ deliveredDatagrams later key :=
  List.flatMap_append

theorem deliveredSum_append (datagrams later : List DeliveredDatagram) (f : UdpField) :
    deliveredSum (datagrams ++ later) f = deliveredSum datagrams f + deliveredSum later f := by
  unfold deliveredSum
  rw [List.map_append, List.sum_append]

theorem deliveredSum_packets (datagrams : List DeliveredDatagram) :
    deliveredSum datagrams .packets = datagrams.length := by
  induction datagrams with
  | nil => rfl
  | cons d rest ih =>
    show 1 + deliveredSum rest .packets = rest.length + 1
    rw [ih, Nat.add_comm]

theorem charged_delivered (event : PacketEvent n) (key : DeliveredKey) (f : UdpField) :
    (deliveredTable n).charged key f event = deliveredSum (event.datagramOf key).toList f := by
  cases event with
  | arrives a => rfl
  | receives program call =>
    show ((call.datagram program).map _).elim 0 _ =
      deliveredSum ((call.datagram program).filter _).toList f
    have hamount : (deliveredTable n).amount (.receives program call) f =
      (call.datagram program).elim 0 fun d => datagramAmount (payloadBytes d.udpLen) f := rfl
    rw [hamount]
    cases call.datagram program with
    | none => rfl
    | some datagram =>
      dsimp only [Option.map_some, Option.elim_some]
      by_cases hkey : datagram.key = key
      · rw [if_pos hkey.symm, Option.filter_some, if_pos (decide_eq_true hkey)]
        exact (Nat.add_zero _).symm
      · rw [if_neg fun h => hkey h.symm, Option.filter_some, if_neg (by simpa using hkey)]
        rfl

/-- The charge of a key is what its datagrams come to. -/
theorem chargedIn_delivered (events : List (PacketEvent n)) (key : DeliveredKey) (f : UdpField) :
    (deliveredTable n).chargedIn key f events = deliveredSum (deliveredDatagrams events key) f := by
  induction events with
  | nil => rfl
  | cons event rest ih =>
    have hcons : (deliveredTable n).chargedIn key f (event :: rest) =
        (deliveredTable n).charged key f event + (deliveredTable n).chargedIn key f rest :=
      List.sum_cons
    rw [hcons, ih, charged_delivered, ← deliveredSum_append]
    rfl

/-! ### What the records have seen -/

/-- The socket and the interface of a record are missing or of one of the datagrams. -/
def Seen (datagrams : List DeliveredDatagram) (v : DeliveredValue) : Prop :=
  (v.socketInode = 0 ∨ ∃ datagram ∈ datagrams, datagram.zero.socketInode = v.socketInode) ∧
    (v.ifindex = 0 ∨ ∃ datagram ∈ datagrams, datagram.zero.ifindex = v.ifindex)

theorem Seen.mono {datagrams later : List DeliveredDatagram} {v : DeliveredValue}
    (h : Seen datagrams v) : Seen (datagrams ++ later) v :=
  ⟨h.1.imp_right fun ⟨d, hd, heq⟩ => ⟨d, List.mem_append_left _ hd, heq⟩,
    h.2.imp_right fun ⟨d, hd, heq⟩ => ⟨d, List.mem_append_left _ hd, heq⟩⟩

theorem Seen.deliver {datagrams : List DeliveredDatagram} {v : DeliveredValue}
    (h : Seen datagrams v) (datagram : DeliveredDatagram) :
    Seen (datagrams ++ [datagram]) (v.deliver datagram) := by
  have hlast : datagram ∈ datagrams ++ [datagram] :=
    List.mem_append_right _ (List.mem_singleton_self _)
  constructor
  · by_cases hzero : v.socketInode = 0
    · exact .inr ⟨datagram, hlast, by simp only [DeliveredValue.deliver, hzero, if_true]⟩
    · rw [DeliveredValue.deliver, if_neg hzero]
      exact h.mono.1
  · by_cases hzero : v.ifindex = 0
    · exact .inr ⟨datagram, hlast, by simp only [DeliveredValue.deliver, hzero, if_true]⟩
    · rw [DeliveredValue.deliver, if_neg hzero]
      exact h.mono.2

/-- Every record of the map has seen what it holds with a datagram of its key. -/
theorem seen_packetMaps (events : List (PacketEvent n)) (key : DeliveredKey)
    (slots : Fin n → DeliveredValue) (h : (packetMaps events).delivered.get? key = some slots)
    (cpu : Fin n) : Seen (deliveredDatagrams events key) (slots cpu) := by
  induction events using List.reverseRecOn generalizing slots cpu with
  | nil => cases h
  | append_singleton events event ih =>
    rw [deliveredDatagrams_append]
    rw [packetMaps_append] at h
    change ((deliveredTable n).table ((deliveredTable n).step _ event)).get? key = some slots at h
    rw [(deliveredTable n).get?_step] at h
    cases event with
    | arrives a => exact (ih slots h cpu).mono
    | receives program call =>
      change ((call.datagram program).map _).elim _ _ = some slots at h
      have hone : deliveredDatagrams [PacketEvent.receives program call] key =
          ((call.datagram program).filter fun datagram => datagram.key = key).toList :=
        List.append_nil _
      rw [hone]
      cases hread : call.datagram program with
      | none =>
        rw [hread] at h
        exact (ih slots h cpu).mono
      | some datagram =>
        rw [hread, Option.map_some, Option.elim_some] at h
        dsimp only at h
        split_ifs at h with hkey
        · obtain ⟨rfl, -⟩ := hkey
          cases h
          have hbefore : ∀ c, Seen (deliveredDatagrams events datagram.key)
              ((packetMaps events).delivered.slot .empty datagram.key c) := by
            intro c
            unfold PerCpuMap.slot
            cases hget : (packetMaps events).delivered.get? datagram.key with
            | none => exact ⟨.inl rfl, .inl rfl⟩
            | some slots => exact ih slots hget c
          rw [Option.filter_some, if_pos (decide_eq_true rfl)]
          by_cases hcpu : cpu = call.cpu
          · subst hcpu
            rw [Function.update_self]
            exact (hbefore call.cpu).deliver datagram
          · rw [Function.update_of_ne hcpu]
            exact (hbefore cpu).mono
        · exact (ih slots h cpu).mono

/-- Of the socket and of the interface a merged record has the one of some record. -/
theorem foldl_merge_keeps {P Q : ℤ → Prop} {values : List DeliveredMapValue}
    {acc : DeliveredMapValue} (hacc : P acc.socketInode ∧ Q acc.ifindex)
    (h : ∀ v ∈ values, P v.socketInode ∧ Q v.ifindex) :
    P (values.foldl DeliveredMapValue.merge acc).socketInode ∧
      Q (values.foldl DeliveredMapValue.merge acc).ifindex := by
  induction values generalizing acc with
  | nil => exact hacc
  | cons v rest ih =>
    obtain ⟨hinode, hifindex⟩ := h v List.mem_cons_self
    refine ih ⟨?_, ?_⟩ fun w hw => h w (List.mem_cons_of_mem _ hw)
    · show P (ite _ _ _)
      split_ifs
      · exact hacc.1
      · exact hinode
    · show Q (ite _ _ _)
      split_ifs
      · exact hacc.2
      · exact hifindex

theorem mergedDelivered_seen {datagrams : List DeliveredDatagram} {values : List DeliveredValue}
    (h : ∀ v ∈ values, Seen datagrams v) :
    ((mergedDelivered values).socketInode = 0 ∨ ∃ datagram ∈ datagrams,
        (mergedDelivered values).socketInode = datagram.zero.socketInode.toNat) ∧
      ((mergedDelivered values).ifindex = 0 ∨ ∃ datagram ∈ datagrams,
        (mergedDelivered values).ifindex = datagram.zero.ifindex.toNat) := by
  unfold mergedDelivered
  refine foldl_merge_keeps (P := fun x => x = 0 ∨ ∃ d ∈ datagrams, x = d.zero.socketInode.toNat)
    (Q := fun x => x = 0 ∨ ∃ d ∈ datagrams, x = d.zero.ifindex.toNat) ⟨.inl rfl, .inl rfl⟩ ?_
  intro decoded hdecoded
  obtain ⟨v, hv, rfl⟩ := List.mem_map.mp hdecoded
  obtain ⟨hinode, hifindex⟩ := h v hv
  constructor
  · rcases hinode with hzero | ⟨d, hd, hsame⟩
    · left
      rw [DeliveredValue.decode, hzero]
      rfl
    · exact .inr ⟨d, hd, by rw [DeliveredValue.decode, hsame]⟩
  · rcases hifindex with hzero | ⟨d, hd, hsame⟩
    · left
      rw [DeliveredValue.decode, hzero]
      rfl
    · exact .inr ⟨d, hd, by rw [DeliveredValue.decode, hsame]⟩

/-! ### A checkpoint in cookie mode -/

namespace EbpfIngressCollector

/-- The rows of the ingress pass are of the interface layer. -/
theorem emitIngress_cookie {c : EbpfIngressCollector} (hcookie : c.deliveryAttribution = .cookie)
    (input : IngressInput) (bucketNs elapsed : ℤ) :
    CounterLoop.EmitSpec (c.emitIngress input bucketNs elapsed) (fun _ => True)
      fun _ _ _ rows => ∀ row ∈ rows, row.layer = .ingress := by
  intro e d s b rows s' _ hemit
  have hsample := emitIngress_built hemit
  have hlayer : b.layer = .ingress := ingressSample_layer hsample
  obtain ⟨enricher, k⟩ := s
  simp only [emitIngress, hsample, hcookie] at hemit
  cases hemit
  refine ⟨fun row hrow => ?_, trivial⟩
  rw [List.mem_singleton.mp (List.mem_of_mem_filter hrow)]
  exact hlayer

/-- What a completed delivered pass without a filter has emitted. -/
theorem readDelivered_attributed {Known : ProcessSocket → Prop} {name : Option Str}
    {c c' : EbpfIngressCollector} {input : IngressInput} {n n' : ℕ} {bucketNs elapsed : ℤ}
    {ems : List UdpEmission} (hreader : c.deliveredReader.isSome) (hfilter : c.sampleFilter = {})
    (hcache : KnownCache Known name c.processEnricher)
    (hscan : KnownScans Known name input (n + ems.length))
    (h : c.readDelivered input n bucketNs elapsed = (.ok ems, c', n')) :
    deliveredLoop.Completed
      (fun e d b rows => Built describesDelivered elapsed e d b rows ∧
        (b.ifindex = e.value.ifindex ∧ b.NoProcess) ∧ rows ≠ [] ∧
        ∀ row ∈ rows, AttributedRow Known e b row)
      (deliveredLoop.view c.deliveredPrevious) (listed input.deliveredDump) c'.deliveredPrevious
      ems ∧
    KnownCache Known name c'.processEnricher := by
  obtain ⟨id, hid⟩ := Option.isSome_iff_exists.mp hreader
  simp only [readDelivered, hid] at h
  cases hdump : input.deliveredDump with
  | error e => rw [hdump] at h; cases h
  | ok dump =>
    rw [hdump] at h
    rcases hr : deliveredLoop.readDump (c.emitDelivered input bucketNs elapsed) dump
        c.deliveredPrevious (c.processEnricher, n) with ⟨r, previous, enricher, m⟩
    dsimp only at h
    rw [hr] at h
    cases h
    have hscans : m ≤ n + ems.length := CounterLoop.emits_measure_le
      (fun e d s => (emitDelivered_enrichments c input bucketNs elapsed e d s).2)
      (deliveredLoop.readDump_emits hr)
    have hemit := emitDelivered_attributed hfilter (hscan.mono hscans) bucketNs elapsed
    exact deliveredLoop.readDump_upTo
      (fun e d s => (emitDelivered_enrichments c input bucketNs elapsed e d s).1) hcache hemit hr

/-- Both passes of a completed checkpoint without a filter. -/
theorem readCheckpoint_attributed {Known : ProcessSocket → Prop} {name : Option Str}
    {c c' : EbpfIngressCollector} {input : IngressInput} {k : Checkpoint}
    (hcookie : c.deliveryAttribution = .cookie) (hreader : c.deliveredReader.isSome)
    (hfilter : c.sampleFilter = {}) (hcache : KnownCache Known name c.processEnricher)
    (hscan : KnownScans Known name input k.delivered.length)
    (h : c.readCheckpoint input = (.ok k, c')) :
    (∀ em ∈ k.ingress, ∀ row ∈ em.rows, row.layer = .ingress) ∧
    deliveredLoop.Completed
      (fun e d b rows => Built describesDelivered
          (elapsedMs c.bucketMs c.lastCheckpointNs input.nowNs) e d b rows ∧
        (b.ifindex = e.value.ifindex ∧ b.NoProcess) ∧ rows ≠ [] ∧
        ∀ row ∈ rows, AttributedRow Known e b row)
      (deliveredLoop.view c.deliveredPrevious) (listed input.deliveredDump) c'.deliveredPrevious
      k.delivered ∧
    KnownCache Known name c'.processEnricher := by
  obtain ⟨c₁, n₁, n₂, hi, hd⟩ := readCheckpoint_passes h
  have hmode : ({ c with lastCheckpointNs := some input.nowNs } :
      EbpfIngressCollector).deliveryAttribution = .cookie := hcookie
  obtain ⟨hingress, hc₁⟩ := readIngress_completed (emitIngress_cookie hmode input _ _) hi
  obtain ⟨henricher, rfl⟩ := readIngress_enricher hmode hi
  have hprevious : c₁.deliveredPrevious = c.deliveredPrevious := by rw [hc₁]
  have hpass := readDelivered_attributed (by rw [hc₁]; exact hreader) (by rw [hc₁]; exact hfilter)
    (show KnownCache Known name c₁.processEnricher by rw [henricher]; exact hcache)
    (by rw [Nat.zero_add]; exact hscan) hd
  rw [hprevious] at hpass
  refine ⟨fun em hem => ?_, hpass⟩
  obtain ⟨e, d, -, -, -, hrows⟩ := hingress.built em hem
  exact hrows

/-- A row that is attributed to an entry has the columns of its sample. -/
theorem AttributedRow.columns {Known : ProcessSocket → Prop} {e : DeliveredMapEntry}
    {b row : UdpSample} (h : AttributedRow Known e b row) :
    row.layer = .delivered ∧ row.socketId = e.key.socketCookie ∧ row.srcIp = b.srcIp ∧
      row.dstIp = b.dstIp ∧ row.srcPort = b.srcPort ∧ row.dstPort = b.dstPort ∧
      row.ifindex = b.ifindex ∧ row.counters = b.counters := by
  rcases h with rfl | ⟨process, -, -, -, rfl⟩ <;>
    exact ⟨rfl, rfl, rfl, rfl, rfl, rfl, rfl, rfl⟩

end EbpfIngressCollector

/-- A row of an entry's key is of that key and of no other. -/
theorem ofDelivery_iff {Known : ProcessSocket → Prop} {key key' : DeliveredKey} (hkey : key.IsUdp4)
    (hkey' : key'.IsUdp4) {e : DeliveredMapEntry} (he : e.key = key'.decode) {b row : UdpSample}
    (hdescribes : describesDelivered e b) (hrow : AttributedRow Known e b row) :
    row.OfDelivery key ↔ key' = key := by
  obtain ⟨hlayer, hcookie, hsrc, hdst, hsport, hdport, -, -⟩ := hrow.columns
  obtain ⟨hsrc₁, hdst₁, hsport₁, hdport₁, -⟩ :=
    EbpfIngressCollector.describesDelivered_decode he hdescribes
  rw [hsrc₁] at hsrc
  rw [hdst₁] at hdst
  rw [hsport₁] at hsport
  rw [hdport₁] at hdport
  rw [he] at hcookie
  constructor
  · rintro ⟨-, hcookie', hsrc', hdst', hsport', hdport'⟩
    have h₁ := BitVec.eq_of_toNat_eq (Int.natCast_inj.mp (hcookie.symm.trans hcookie'))
    have h₂ := dotted_injective (hsrc.symm.trans hsrc')
    have h₃ := dotted_injective (hdst.symm.trans hdst')
    have h₄ := BitVec.eq_of_toNat_eq (Int.natCast_inj.mp (hsport.symm.trans hsport'))
    have h₅ := BitVec.eq_of_toNat_eq (Int.natCast_inj.mp (hdport.symm.trans hdport'))
    obtain ⟨cookie, srcIp4, dstIp4, srcPort, dstPort, family, ipProto⟩ := key
    obtain ⟨cookie', srcIp4', dstIp4', srcPort', dstPort', family', ipProto'⟩ := key'
    obtain ⟨rfl, rfl, -⟩ := hkey
    obtain ⟨rfl, rfl, -⟩ := hkey'
    dsimp only at h₁ h₂ h₃ h₄ h₅
    rw [h₁, h₂, h₃, h₄, h₅]
  · rintro rfl
    exact ⟨hlayer, hcookie, hsrc, hdst, hsport, hdport⟩

/-- The rows of a key in the checkpoint of some maps. -/
structure DeliveredRows (Known : ProcessSocket → Prop) (baselines : Snapshot DeliveredKey UdpField)
    (maps : PacketMaps n) (samples : List UdpSample) (key : DeliveredKey) : Prop where
  exists_iff : (∃ row ∈ samples, row.OfDelivery key) ↔
    Moved baselines ((deliveredTable n).counts maps) key
  counters : ∀ row ∈ samples, row.OfDelivery key → ∀ f, UdpMapCounters.field f row.counters =
    gain baselines ((deliveredTable n).counts maps) key f
  attributed : ∀ row ∈ samples, row.OfDelivery key →
    ∃ slots, maps.delivered.get? key = some slots ∧ ∃ cpus : List (Fin n),
      row.ifindex = (mergedDelivered (cpus.map slots)).ifindex ∧
      (row.NoProcess ∨ ∃ process, Known process ∧ row.Names process ∧
        process.socketInode ≠ 0 ∧
        process.socketInode = (mergedDelivered (cpus.map slots)).socketInode)

/-- A row of a key names an interface and a process that were seen with a datagram, if every record
of the key has seen what it holds. -/
theorem DeliveredRows.names {Known : ProcessSocket → Prop}
    {baselines : Snapshot DeliveredKey UdpField} {maps : PacketMaps n} {samples : List UdpSample}
    {key : DeliveredKey} (h : DeliveredRows Known baselines maps samples key)
    {datagrams : List DeliveredDatagram}
    (hseen : ∀ slots, maps.delivered.get? key = some slots → ∀ cpu, Seen datagrams (slots cpu))
    {row : UdpSample} (hmem : row ∈ samples) (hof : row.OfDelivery key) :
    (row.ifindex = 0 ∨ ∃ datagram ∈ datagrams, row.ifindex = datagram.zero.ifindex.toNat) ∧
      (row.NoProcess ∨ ∃ process, Known process ∧ row.Names process ∧
        ∃ datagram ∈ datagrams, process.socketInode = datagram.zero.socketInode.toNat) := by
  obtain ⟨slots, hslots, cpus, hifindex, hprocess⟩ := h.attributed row hmem hof
  have hrecords : ∀ v ∈ cpus.map slots, Seen datagrams v := by
    intro v hv
    obtain ⟨cpu, -, rfl⟩ := List.mem_map.mp hv
    exact hseen slots hslots cpu
  obtain ⟨hinode, hifindex'⟩ := mergedDelivered_seen hrecords
  rw [← hifindex] at hifindex'
  refine ⟨hifindex', hprocess.imp_right ?_⟩
  rintro ⟨process, hknown, hnames, hnonzero, hsame⟩
  rw [← hsame] at hinode
  exact ⟨process, hknown, hnames, hinode.resolve_left hnonzero⟩

/-- An emission of the delivered pass is of the records of a key: its rows are of the key, carry
what the key has gained, and name what the records hold. -/
structure EmitsDelivery (Known : ProcessSocket → Prop) (baselines : Snapshot DeliveredKey UdpField)
    (maps : PacketMaps n) (em : UdpEmission) (key : DeliveredKey)
    (slots : Fin n → DeliveredValue) : Prop where
  isUdp4 : key.IsUdp4
  listed : maps.delivered.get? key = some slots
  identity : em.identity = key.decode.identity
  nonempty : em.rows ≠ []
  ofDelivery : ∀ row ∈ em.rows, ∀ key' : DeliveredKey, key'.IsUdp4 →
    (row.OfDelivery key' ↔ key = key')
  counters : ∀ row ∈ em.rows, ∀ f, UdpMapCounters.field f row.counters =
    gain baselines ((deliveredTable n).counts maps) key f
  attributed : ∃ cpus : List (Fin n), ∀ row ∈ em.rows,
    row.ifindex = (mergedDelivered (cpus.map slots)).ifindex ∧
    (row.NoProcess ∨ ∃ process, Known process ∧ row.Names process ∧ process.socketInode ≠ 0 ∧
      process.socketInode = (mergedDelivered (cpus.map slots)).socketInode)

/-- What is built from an entry of the dump is of the records that the entry was read from. -/
theorem emitsDelivery_of_built {Known : ProcessSocket → Prop} {c : EbpfIngressCollector}
    {maps : PacketMaps n} {dump : List DeliveredMapEntry} {elapsed : ℤ}
    (hsnapshot : ∀ key : DeliveredKey, deliveredLoop.snapshot dump key.decode.identity =
      (deliveredTable n).counts maps key)
    {item : DeliveredKey × (Fin n → DeliveredValue)} (hitem : item ∈ maps.delivered.items)
    (hkey : item.1.IsUdp4) {e : DeliveredMapEntry} (hreads : ReadsDelivered item e)
    {d : UdpMapCounters} {em : UdpEmission} (hidentity : deliveredLoop.identity e = em.identity)
    (hgain : ∀ f, deliveredLoop.field f d = gain (deliveredLoop.view c.deliveredPrevious)
      (deliveredLoop.snapshot dump) em.identity f)
    (hbuilt : Built describesDelivered elapsed e d em.built em.rows)
    (hbare : em.built.ifindex = e.value.ifindex ∧ em.built.NoProcess) (hne : em.rows ≠ [])
    (hrows : ∀ row ∈ em.rows, AttributedRow Known e em.built row) :
    EmitsDelivery Known c.deliveredBaselines maps em item.1 item.2 := by
  obtain ⟨hdescribes, hcounters, -⟩ := hbuilt
  have hid : em.identity = item.1.decode.identity := by
    rw [← hidentity]
    exact congrArg DeliveredMapKey.identity hreads.1
  refine ⟨hkey, Dict.get?_eq_some.mpr hitem, hid, hne, fun row hrow key hkey' => ?_,
    fun row hrow f => ?_, ?_⟩
  · exact ofDelivery_iff hkey' hkey hreads.1 hdescribes (hrows row hrow)
  · have hbefore : c.deliveredBaselines item.1 =
        deliveredLoop.view c.deliveredPrevious item.1.decode.identity := rfl
    obtain ⟨-, -, -, -, -, -, -, hrowCounters⟩ := (hrows row hrow).columns
    rw [hrowCounters, hcounters, gain_congr hbefore (hsnapshot item.1).symm f, ← hid]
    exact hgain f
  · obtain ⟨-, cpus, -, hvalue⟩ := hreads
    refine ⟨cpus, fun row hrow => ?_⟩
    rw [← hvalue]
    obtain ⟨-, -, -, -, -, -, hifindex, -⟩ := (hrows row hrow).columns
    refine ⟨hifindex.trans hbare.1, ?_⟩
    rcases hrows row hrow with rfl | ⟨process, hknown, hinode, hprocess, rfl⟩
    · exact .inl hbare.2
    · exact .inr ⟨process, hknown, rfl, by rw [hprocess]; exact hinode, hprocess⟩

/-- The rows of a checkpoint all of whose delivered emissions are of records of the map. -/
theorem deliveredRows_of_emissions {Known : ProcessSocket → Prop}
    {baselines : Snapshot DeliveredKey UdpField} {maps : PacketMaps n} {out : Checkpoint}
    (hingress : ∀ em ∈ out.ingress, ∀ row ∈ em.rows, row.layer = .ingress)
    (hemits : ∀ em ∈ out.delivered, ∃ key slots, EmitsDelivery Known baselines maps em key slots)
    {key : DeliveredKey} (hkey : key.IsUdp4)
    (hmoved : (∃ em ∈ out.delivered, em.identity = key.decode.identity) ↔
      Moved baselines ((deliveredTable n).counts maps) key) :
    DeliveredRows Known baselines maps out.samples key := by
  -- a row of the key is of an emission of the key
  have hrow : ∀ row ∈ out.samples, row.OfDelivery key → ∃ em ∈ out.delivered, row ∈ em.rows ∧
      ∃ slots, EmitsDelivery Known baselines maps em key slots := by
    intro row hmem hof
    rcases List.mem_append.mp hmem with hmem | hmem
    · obtain ⟨em, hem, hmem⟩ := List.mem_flatMap.mp hmem
      have hlayer := hof.1.symm.trans (hingress em hem row hmem)
      cases hlayer
    · obtain ⟨em, hem, hmem⟩ := List.mem_flatMap.mp hmem
      obtain ⟨key', slots, hemit⟩ := hemits em hem
      cases (hemit.ofDelivery row hmem key hkey).mp hof
      exact ⟨em, hem, hmem, slots, hemit⟩
  refine ⟨?_, fun row hmem hof f => ?_, fun row hmem hof => ?_⟩
  · rw [← hmoved]
    constructor
    · rintro ⟨row, hmem, hof⟩
      obtain ⟨em, hem, -, slots, hemit⟩ := hrow row hmem hof
      exact ⟨em, hem, hemit.identity⟩
    · rintro ⟨em, hem, hid⟩
      obtain ⟨key', slots, hemit⟩ := hemits em hem
      have hsame : key' = key :=
        DeliveredKey.identity_decode_injective (hemit.identity.symm.trans hid)
      obtain ⟨row, hmem⟩ := List.exists_mem_of_ne_nil _ hemit.nonempty
      exact ⟨row, List.mem_append_right _ (List.mem_flatMap.mpr ⟨em, hem, hmem⟩),
        (hemit.ofDelivery row hmem key hkey).mpr hsame⟩
  · obtain ⟨em, -, hrow, slots, hemit⟩ := hrow row hmem hof
    exact hemit.counters row hrow f
  · obtain ⟨em, -, hrow, slots, hemit⟩ := hrow row hmem hof
    obtain ⟨cpus, hattributed⟩ := hemit.attributed
    exact ⟨slots, hemit.listed, cpus, hattributed row hrow⟩

/-- A collector in cookie mode that emits every row. -/
structure CookieMode (c : EbpfIngressCollector) : Prop where
  attribution : c.deliveryAttribution = .cookie
  reader : c.deliveredReader.isSome
  filter : c.sampleFilter = {}

/-- Every process a scan of a checkpoint finds under the name is known. A checkpoint scans at most
once for each entry it emits. -/
def PacketInterval.KnownScans (Known : ProcessSocket → Prop) (name : Option Str)
    (i : PacketInterval n) (out : Checkpoint) : Prop :=
  ∀ k < out.delivered.length, ∀ found, (i.sockets k).scan name = .ok found →
    ∀ process ∈ found, Known process

theorem PacketInterval.step_deliveredRows {Known : ProcessSocket → Prop} {name : Option Str}
    {s s' : PacketMaps n × EbpfIngressCollector} {i : PacketInterval n}
    {out : EbpfIngressCollector.Checkpoint} (hmode : CookieMode s.2)
    (hcache : KnownCache Known name s.2.processEnricher)
    (hscan : i.KnownScans Known name out)
    (h : i.step s = (.ok out, s')) (hkeys : ∀ key ∈ s'.1.delivered, key.IsUdp4) :
    KnownCache Known name s'.2.processEnricher ∧ ∀ key : DeliveredKey, key.IsUdp4 →
      DeliveredRows Known s.2.deliveredBaselines s'.1 out.samples key := by
  obtain ⟨maps, c⟩ := s
  simp only [step] at h
  rcases hread : c.readCheckpoint (i.input (i.events.foldl PacketMaps.step maps)) with ⟨r, c'⟩
  rw [hread] at h
  cases h
  obtain ⟨hingress, hdelivered, hcache'⟩ := EbpfIngressCollector.readCheckpoint_attributed
    hmode.attribution hmode.reader hmode.filter hcache
    (show EbpfIngressCollector.KnownScans Known name (i.input _) _ from hscan) hread
  obtain ⟨dump, hdump, hitems, hsnapshot⟩ :=
    delivered_dump i.deliveredPrinter (i.events.foldl PacketMaps.step maps)
  have hlisted : listed (i.input (i.events.foldl PacketMaps.step maps)).deliveredDump = dump :=
    congrArg listed hdump
  rw [hlisted] at hdelivered
  refine ⟨hcache', fun key hkey => deliveredRows_of_emissions hingress (fun em hem => ?_) hkey ?_⟩
  · obtain ⟨e, d, he, hidentity, hgain, hbuilt, hbare, hne, hrows⟩ := hdelivered.built em hem
    obtain ⟨item, hitem, hreads⟩ := hitems e he
    have hitemKey := hkeys item.1 (List.mem_map.mpr ⟨item, hitem, rfl⟩)
    exact ⟨item.1, item.2, emitsDelivery_of_built hsnapshot hitem hitemKey hreads hidentity hgain
      hbuilt hbare hne hrows⟩
  · rw [hdelivered.mem_iff]
    unfold Moved
    rw [hsnapshot key]
    rfl

/-! ### Whole runs -/

/-- The name the enricher looks for, if there is one. -/
def EbpfIngressCollector.enricherName (c : EbpfIngressCollector) : Option Str :=
  c.processEnricher.bind ProcessSocketEnricher.processName

/-- The processes a run can know: those in the cache it started with, and those that its scans,
at most one for each entry it emits, find under the name its enricher looks for. -/
def KnownIn (c₀ : EbpfIngressCollector) (run : List (PacketInterval n × Checkpoint))
    (process : ProcessSocket) : Prop :=
  (∃ en ∈ c₀.processEnricher, process ∈ en.cachedSockets) ∨
    ∃ checkpoint ∈ run, ∃ k < checkpoint.2.delivered.length, ∃ found,
      (checkpoint.1.sockets k).scan c₀.enricherName = .ok found ∧ process ∈ found

theorem knownIn_cache (c₀ : EbpfIngressCollector) (run : List (PacketInterval n × Checkpoint)) :
    KnownCache (KnownIn c₀ run) c₀.enricherName c₀.processEnricher := by
  intro en hen
  refine ⟨?_, fun _ hp => .inl ⟨en, hen, hp⟩⟩
  rw [enricherName, Option.mem_def.mp hen]
  rfl

theorem knownIn_scans {c₀ : EbpfIngressCollector} {run : List (PacketInterval n × Checkpoint)} :
    ∀ checkpoint ∈ run, checkpoint.1.KnownScans (KnownIn c₀ run) c₀.enricherName checkpoint.2 :=
  fun checkpoint h k hk found hfound _ hp => .inr ⟨checkpoint, h, k, hk, found, hfound, hp⟩

/-- A run in cookie mode keeps the mode and knows only what it may know. -/
theorem completedRun_cookie {before : List (PacketEvent n)} {intervals : List (PacketInterval n)}
    {c₀ : EbpfIngressCollector} {Known : ProcessSocket → Prop} {name : Option Str}
    (hfresh : c₀.Fresh) (hmode : CookieMode c₀) (hcache : KnownCache Known name c₀.processEnricher)
    {outs : List Checkpoint}
    (hscans : ∀ checkpoint ∈ intervals.zip outs, checkpoint.1.KnownScans Known name checkpoint.2)
    {s : PacketMaps n × EbpfIngressCollector}
    (h : completedRun PacketInterval.step intervals (packetMaps before, c₀) = some (outs, s)) :
    CookieMode s.2 ∧ KnownCache Known name s.2.processEnricher := by
  induction intervals using List.reverseRecOn generalizing outs s with
  | nil =>
    cases h
    exact ⟨hmode, hcache⟩
  | append_singleton intervals last ih =>
    obtain ⟨outs', s', out, hrun, hstep, rfl⟩ := completedRun_concat h
    rw [List.zip_append (completedRun_length hrun), List.forall_mem_append] at hscans
    obtain ⟨hmode', hcache'⟩ := ih hscans.1 hrun
    obtain ⟨hmaps, -, -, -, -⟩ := completedRun_packets hfresh hrun
    obtain ⟨hmaps', hconfig, hreader, -, -⟩ := PacketInterval.step_baselines hstep
    have hkeys : ∀ key ∈ s.1.delivered, key.IsUdp4 := by
      rw [hmaps', hmaps, ← packetMaps_append]
      exact delivered_isUdp4 _
    refine ⟨⟨?_, ?_, ?_⟩, ?_⟩
    · exact (congrArg Prod.snd hconfig).trans hmode'.attribution
    · rw [hreader]
      exact hmode'.reader
    · exact (congrArg Prod.fst hconfig).trans hmode'.filter
    · exact (PacketInterval.step_deliveredRows hmode' hcache'
        (hscans.2 _ (List.mem_singleton_self _)) hstep hkeys).1

/-- The rows of the last checkpoint of a run. -/
theorem completedRun_deliveredRows {before : List (PacketEvent n)}
    {intervals : List (PacketInterval n)} {last : PacketInterval n} {c₀ : EbpfIngressCollector}
    (hfresh : c₀.Fresh) (hmode : CookieMode c₀) {outs : List Checkpoint} {out : Checkpoint}
    {s : PacketMaps n × EbpfIngressCollector}
    (h : completedRun PacketInterval.step (intervals ++ [last]) (packetMaps before, c₀) =
      some (outs ++ [out], s)) {key : DeliveredKey} (hkey : key.IsUdp4) :
    DeliveredRows (KnownIn c₀ ((intervals ++ [last]).zip (outs ++ [out])))
      (if intervals = [] then fun _ => none
        else (deliveredTable n).counts (packetMaps (packetEvents before intervals)))
      (packetMaps (packetEvents before (intervals ++ [last]))) out.samples key := by
  obtain ⟨outs', s', out', hrun, hstep, hout⟩ := completedRun_concat h
  obtain ⟨rfl, he⟩ := List.append_inj' hout rfl
  cases he
  obtain ⟨hmaps, -, -, -, hbaselines⟩ := completedRun_packets hfresh hrun
  obtain ⟨hmaps', -, -, -, -⟩ := PacketInterval.step_baselines hstep
  have hscans := @knownIn_scans n c₀ ((intervals ++ [last]).zip (outs ++ [out]))
  rw [List.zip_append (completedRun_length hrun)] at hscans
  rw [List.zip_append (completedRun_length hrun)]
  obtain ⟨hbefore, hlast⟩ := List.forall_mem_append.mp hscans
  obtain ⟨hmode', hcache'⟩ := completedRun_cookie hfresh hmode (knownIn_cache c₀ _) hbefore hrun
  have hafter : s.1 = packetMaps (packetEvents before (intervals ++ [last])) := by
    rw [hmaps', hmaps, packetEvents_concat, packetMaps_append]
  have hkeys : ∀ key ∈ s.1.delivered, key.IsUdp4 := by
    rw [hafter]
    exact delivered_isUdp4 _
  have hrows := (PacketInterval.step_deliveredRows hmode' hcache'
    (hlast _ (List.mem_singleton_self _)) hstep hkeys).2 key hkey
  rw [hafter, hbaselines hmode.reader, hmaps] at hrows
  exact hrows

/-- Datagrams come to something exactly when there are any. -/
theorem exists_deliveredSum_pos (datagrams : List DeliveredDatagram) :
    (∃ f, 0 < deliveredSum datagrams f) ↔ datagrams ≠ [] := by
  constructor
  · rintro ⟨f, hpos⟩ rfl
    exact lt_irrefl 0 hpos
  · intro hne
    exact ⟨.packets, by rw [deliveredSum_packets]; exact List.length_pos_iff.mpr hne⟩

/-- In cookie mode and without a filter a checkpoint has rows of a socket and a flow exactly when
a datagram was delivered since the checkpoint before and that one has listed the key, and each of
these rows carries all datagrams delivered since then. -/
theorem delivered_rows_report_datagrams (before : List (PacketEvent n))
    (intervals : List (PacketInterval n)) (last : PacketInterval n) (c₀ : EbpfIngressCollector)
    (outs : List Checkpoint) (out : Checkpoint) (s : PacketMaps n × EbpfIngressCollector)
    (key : DeliveredKey) (hfresh : c₀.Fresh) (hmode : CookieMode c₀)
    (h : completedRun PacketInterval.step (intervals ++ [last]) (packetMaps before, c₀) =
      some (outs ++ [out], s)) (hkey : key.IsUdp4)
    (hfit : ∀ f, deliveredSum
      (deliveredDatagrams (packetEvents before (intervals ++ [last])) key) f < 2 ^ 64) :
    ((∃ row ∈ out.samples, row.OfDelivery key) ↔
      intervals ≠ [] ∧ key ∈ (packetMaps (packetEvents before intervals)).delivered ∧
        deliveredDatagrams last.events key ≠ []) ∧
    ∀ row ∈ out.samples, row.OfDelivery key → ∀ f, UdpMapCounters.field f row.counters =
      deliveredSum (deliveredDatagrams last.events key) f := by
  have hrows := completedRun_deliveredRows hfresh hmode h hkey
  have hgain : intervals ≠ [] → key ∈ (packetMaps (packetEvents before intervals)).delivered →
      ∀ f, gain ((deliveredTable n).counts (packetMaps (packetEvents before intervals)))
        ((deliveredTable n).counts (packetMaps (packetEvents before (intervals ++ [last])))) key f =
          deliveredSum (deliveredDatagrams last.events key) f := by
    intro hne hlisted f
    have hfit' := hfit f
    rw [packetEvents_concat, ← chargedIn_delivered] at hfit'
    rw [packetEvents_concat, ← chargedIn_delivered]
    exact (deliveredTable n).gain_eq_chargedIn (s := {}) rfl hlisted hfit'
  have hmoved : Moved (if intervals = [] then fun _ => none
      else (deliveredTable n).counts (packetMaps (packetEvents before intervals)))
      ((deliveredTable n).counts (packetMaps (packetEvents before (intervals ++ [last])))) key ↔
      intervals ≠ [] ∧ key ∈ (packetMaps (packetEvents before intervals)).delivered ∧
        deliveredDatagrams last.events key ≠ [] := by
    by_cases hne : intervals = []
    · rw [if_pos hne]
      exact ⟨fun ⟨a, b, ha, _⟩ => (nomatch ha), fun h => absurd hne h.1⟩
    rw [if_neg hne]
    by_cases hlisted : key ∈ (packetMaps (packetEvents before intervals)).delivered
    · rw [← exists_deliveredSum_pos, moved_iff_gain]
      have hpos : ∀ f, 0 < gain
          ((deliveredTable n).counts (packetMaps (packetEvents before intervals)))
          ((deliveredTable n).counts (packetMaps (packetEvents before (intervals ++ [last])))) key f ↔
            0 < deliveredSum (deliveredDatagrams last.events key) f := by
        intro f
        rw [hgain hne hlisted f, Int.natCast_pos]
      rw [exists_congr hpos]
      exact ⟨fun h => ⟨hne, hlisted, h⟩, fun h => h.2.2⟩
    · refine ⟨fun ⟨a, b, ha, _⟩ => ?_, fun h => absurd h.2.1 hlisted⟩
      change Option.map _ ((packetMaps (packetEvents before intervals)).delivered.get? key) =
        some a at ha
      rw [Dict.get?_eq_none.mpr hlisted] at ha
      cases ha
  refine ⟨hrows.exists_iff.trans hmoved, fun row hmem hof f => ?_⟩
  obtain ⟨hne, hlisted, -⟩ := hmoved.mp (hrows.exists_iff.mp ⟨row, hmem, hof⟩)
  rw [hrows.counters row hmem hof f, if_neg hne]
  exact hgain hne hlisted f

def streamSock : ReceiveSock := ⟨7, 2, some ⟨some ⟨some 555⟩⟩⟩

/-- The frame of the flow as the kernel holds it. -/
def streamSkb : SkBuff where
  head := some fun i => (flowFrame 0 1324 60).bytes[i]?
  networkHeader := 14
  transportHeader := 34
  skbIif := 0
  dev := some 2

def streamReceive (cpu : Fin 2) : PacketEvent 2 :=
  .receives .fentry { cpu, room := true, sk := some streamSock, skb := some streamSkb }

def streamReceiver : ProcessSocket where
  hostPid := 100
  containerPid := 100
  processName := "ffmpeg".toList
  commandLine := "ffmpeg -i udp://198.51.100.20:5000".toList
  netnsId := 0
  containerId := []
  socketInode := 555
  localIp := "198.51.100.20".toList
  localPort := 5000
  remoteIp := "0.0.0.0".toList
  remotePort := 0

def receiveIntervalAt (nowNs : ℤ) (events : List (PacketEvent 2)) : PacketInterval 2 :=
  { streamInterval nowNs events with sockets := fun _ => ⟨nowNs, fun _ => .ok [streamReceiver]⟩ }

def receivingCollector : EbpfIngressCollector where
  ifname := "eth0".toList
  bucketMs := 1000
  processEnricher := some {}
  deliveryAttribution := .cookie
  deliveredReader := some 31

def receiveFirst : PacketInterval 2 := receiveIntervalAt 2000000000 [streamReceive 0]

def receiveSecond : PacketInterval 2 :=
  receiveIntervalAt 4000000000 [streamArrival 1, streamReceive 1, streamReceive 0]

def streamDeliveredKey : DeliveredKey := ⟨7, 0x0A0200C0, 0x146433C6, 40000, 5000, 2, 17⟩

theorem receiveRun_completed : ∃ outs out s,
    completedRun PacketInterval.step ([receiveFirst] ++ [receiveSecond])
      (packetMaps [streamReceive 0], receivingCollector) = some (outs ++ [out], s) := by
  have hsome : (completedRun PacketInterval.step ([receiveFirst] ++ [receiveSecond])
      (packetMaps [streamReceive 0], receivingCollector)).isSome = true := by decide +kernel
  obtain ⟨⟨all, s⟩, hrun⟩ := Option.isSome_iff_exists.mp hsome
  obtain ⟨outs, s', out, -, -, rfl⟩ := completedRun_concat hrun
  exact ⟨outs, out, s, hrun⟩

theorem delivered_rows_report_datagrams_stream : ∃ outs out s,
    completedRun PacketInterval.step ([receiveFirst] ++ [receiveSecond])
      (packetMaps [streamReceive 0], receivingCollector) = some (outs ++ [out], s) ∧
    (∃ row ∈ out.samples, row.OfDelivery streamDeliveredKey) ∧
    ∀ row ∈ out.samples, row.OfDelivery streamDeliveredKey →
      row.counters.packets = 2 ∧ row.counters.bytes = 2632 := by
  obtain ⟨outs, out, s, hrun⟩ := receiveRun_completed
  obtain ⟨hexists, hcounters⟩ := delivered_rows_report_datagrams [streamReceive 0] [receiveFirst]
    receiveSecond receivingCollector outs out s streamDeliveredKey ⟨rfl, rfl, rfl⟩ ⟨rfl, rfl, rfl⟩
    hrun ⟨rfl, rfl, by decide⟩ (by intro f; cases f <;> decide +kernel)
  refine ⟨outs, out, s, hrun, hexists.mpr ⟨List.cons_ne_nil _ _, by decide +kernel,
    by decide +kernel⟩, fun row hrow hof => ⟨?_, ?_⟩⟩
  · have hpackets : deliveredSum (deliveredDatagrams receiveSecond.events streamDeliveredKey)
        .packets = 2 := by decide +kernel
    have h := hcounters row hrow hof .packets
    rw [hpackets] at h
    exact h
  · have hbytes : deliveredSum (deliveredDatagrams receiveSecond.events streamDeliveredKey)
        .bytes = 2632 := by decide +kernel
    have h := hcounters row hrow hof .bytes
    rw [hbytes] at h
    exact h

end UdpAnalyzer

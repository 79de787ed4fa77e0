import UdpAnalyzer.Ingress.Delivery
import UdpAnalyzer.Storage.Samples

/-! Reading the two maps of the kernel (`dump_entries` of `BpftoolMapReader` and of
`BpftoolDeliveredMapReader`). `bpftool` may print the entries of a map in any order, the records
of an entry in any order of the CPUs, and a structure as its bytes or as an object; what is read
is the map all the same. -/

namespace UdpAnalyzer

/-! ### The printed map -/

section
variable {n : ℕ} {K V E : Type} {keyMembers : K → List Member} {valueMembers : V → List Member}

/-- An entry with the records of all CPUs. -/
def PrintsEntry (keyMembers : K → List Member) (valueMembers : V → List Member)
    (item : K × (Fin n → V)) (raw : Json) : Prop :=
  ∃ cpus : List (Fin n), cpus.Perm (List.finRange n) ∧
    Listing (keyMembers item.1) (cpus.map fun cpu => valueMembers (item.2 cpu)) raw

/-- What `run_json` returns for `bpftool map dump`. Nothing is printed of an empty map, or a list
without elements. -/
structure MapPrinter (n : ℕ) {K V : Type} (keyMembers : K → List Member)
    (valueMembers : V → List Member) where
  print : PerCpuMap n K V → Json
  prints : ∀ m, (m.items = [] ∧ print m = .null) ∨
    ∃ items raws, items.Perm m.items ∧ print m = .arr raws ∧
      List.Forall₂ (PrintsEntry keyMembers valueMembers) items raws

/-- `dump_entries`, with the parser of an entry. -/
def dumpEntries (parse : Json → Except PyExc E) (rawEntries : Json) : Except PyExc (List E) :=
  match rawEntries with
  | .null => .ok []
  | rawEntries => do
    let entries ← rawEntries.iterate
    entries.mapM parse

/-- What is on the right of related lists is related to something on the left. -/
theorem exists_of_forall₂_right {A B : Type*} {R : A → B → Prop} {as : List A} {bs : List B}
    (h : List.Forall₂ R as bs) {b : B} (hb : b ∈ bs) : ∃ a ∈ as, R a b := by
  induction h with
  | nil => cases hb
  | cons head _ ih =>
    rcases List.mem_cons.mp hb with rfl | hb
    · exact ⟨_, List.mem_cons_self, head⟩
    · obtain ⟨a, ha, hR⟩ := ih hb
      exact ⟨a, List.mem_cons_of_mem _ ha, hR⟩

/-- The dump of a printed map lists the entries of the map. -/
theorem dumpEntries_printed (printer : MapPrinter n keyMembers valueMembers)
    {parse : Json → Except PyExc E} {R : K × (Fin n → V) → E → Prop}
    (hparse : ∀ item raw, PrintsEntry keyMembers valueMembers item raw →
      ∃ e, parse raw = .ok e ∧ R item e) (m : PerCpuMap n K V) :
    ∃ items dump, items.Perm m.items ∧ dumpEntries parse (printer.print m) = .ok dump ∧
      List.Forall₂ R items dump := by
  rcases printer.prints m with ⟨hempty, hprint⟩ | ⟨items, raws, hperm, hprint, hraws⟩
  · refine ⟨[], [], ?_, ?_, .nil⟩
    · rw [hempty]
    · rw [hprint]
      rfl
  · have hall : ∃ dump, raws.mapM parse = .ok dump ∧ List.Forall₂ R items dump := by
      clear hperm hprint
      induction hraws with
      | nil => exact ⟨[], rfl, .nil⟩
      | @cons item raw items raws head _ ih =>
        obtain ⟨e, he, hR⟩ := hparse item raw head
        obtain ⟨dump, hdump, hrest⟩ := ih
        exact ⟨e :: dump, by rw [List.mapM_cons, he, ok_bind, hdump]; rfl, .cons hR hrest⟩
    obtain ⟨dump, hdump, hR⟩ := hall
    exact ⟨items, dump, hperm, by rw [hprint]; exact hdump, hR⟩

end

/-! ### Entries of the ingress map -/

/-- A value with a member has every member, or null. -/
theorem getMember_of_getMember {raw : Json} {name : String} {v : Json}
    (h : raw.getMember name = .ok v) (name' : String) : ∃ v', raw.getMember name' = .ok v' := by
  cases raw with
  | obj members => exact ⟨_, rfl⟩
  | null | bool _ | int _ | float | str _ | arr _ => cases h

theorem parseBpftoolCounters_listed {records : List UdpCounters} {cpuValues : List Json}
    (value : Json)
    (h : List.Forall₂ (fun record cpuValue => ∃ value, Json.getMember cpuValue "value" = .ok value ∧
      Presents record value) (records.map UdpCounters.members) cpuValues) :
    parseBpftoolCounters value (.arr cpuValues) =
      .ok ((records.map UdpCounters.decode).foldl UdpMapCounters.add ⟨0, 0⟩) := by
  have hfold : ∀ acc : UdpMapCounters, cpuValues.foldlM (fun acc cpuValue => do
        let value ← Json.getMember cpuValue "value"
        let parsed ← parseUdpRecord value
        return acc.add parsed) acc =
      Except.ok ((records.map UdpCounters.decode).foldl UdpMapCounters.add acc) := by
    rw [List.forall₂_map_left_iff] at h
    induction h with
    | nil => exact fun acc => rfl
    | cons hrecord _ ih =>
      intro acc
      obtain ⟨value, hvalue, hpresents⟩ := hrecord
      have hparsed := parseBpftoolCounters_presented _ hpresents
      rw [List.foldlM_cons, hvalue, ok_bind]
      rw [show parseUdpRecord value = _ from hparsed, ok_bind]
      exact ih _
  exact hfold ⟨0, 0⟩

theorem field_foldl_add (f : UdpField) (values : List UdpMapCounters) (acc : UdpMapCounters) :
    UdpMapCounters.field f (values.foldl UdpMapCounters.add acc) =
      UdpMapCounters.field f acc + (values.map (UdpMapCounters.field f)).sum := by
  induction values generalizing acc with
  | nil => exact (add_zero _).symm
  | cons v rest ih =>
    have hadd : UdpMapCounters.field f (acc.add v) =
        UdpMapCounters.field f acc + UdpMapCounters.field f v := by cases f <;> rfl
    rw [List.foldl_cons, ih, hadd, List.map_cons, List.sum_cons, add_assoc]

theorem field_foldl_merge (f : UdpField) (values : List DeliveredMapValue)
    (acc : DeliveredMapValue) :
    UdpMapCounters.field f (values.foldl DeliveredMapValue.merge acc).counters =
      UdpMapCounters.field f acc.counters +
        (values.map fun v => UdpMapCounters.field f v.counters).sum := by
  induction values generalizing acc with
  | nil => exact (add_zero _).symm
  | cons v rest ih =>
    have hmerge : UdpMapCounters.field f (acc.merge v).counters =
        UdpMapCounters.field f acc.counters + UdpMapCounters.field f v.counters := by
      cases f <;> rfl
    rw [List.foldl_cons, ih, hmerge, List.map_cons, List.sum_cons, add_assoc]

section
variable {n : ℕ}

/-- The sum over the CPUs in any order. -/
theorem sum_cpus {cpus : List (Fin n)} (hcpus : cpus.Perm (List.finRange n)) (g : Fin n → ℤ) :
    (cpus.map g).sum = ∑ cpu, g cpu := by
  rw [(hcpus.map g).sum_eq, ← List.ofFn_eq_map, List.sum_ofFn]

/-- What is read of an entry of the ingress map. -/
def ReadsCounters (item : UdpKey × (Fin n → UdpCounters)) (e : UdpMapEntry) : Prop :=
  e.key = item.1.decode ∧
    ∀ f, UdpMapCounters.field f e.counters = ∑ cpu, (((item.2 cpu).counter f).toNat : ℤ)

theorem parseBpftoolEntry_printed (item : UdpKey × (Fin n → UdpCounters)) (raw : Json)
    (h : PrintsEntry UdpKey.members UdpCounters.members item raw) :
    ∃ e, parseBpftoolEntry raw = .ok e ∧ ReadsCounters item e := by
  obtain ⟨cpus, hcpus, hlisting⟩ := h
  obtain ⟨rawKey, hkey, hpresents⟩ := hlisting.key
  obtain ⟨cpuValues, hvalues, hrecords⟩ := hlisting.values
  obtain ⟨value, hvalue⟩ := getMember_of_getMember hkey "value"
  have hrecords' : List.Forall₂ (fun record cpuValue =>
      ∃ value, Json.getMember cpuValue "value" = .ok value ∧ Presents record value)
      ((cpus.map item.2).map UdpCounters.members) cpuValues := by
    rw [List.map_map]
    exact hrecords
  refine ⟨⟨item.1.decode, ((cpus.map item.2).map UdpCounters.decode).foldl UdpMapCounters.add ⟨0, 0⟩⟩,
    ?_, rfl, fun f => ?_⟩
  · rw [parseBpftoolEntry, hkey, ok_bind, parseBpftoolKey_presented _ hpresents, ok_bind, hvalue,
      ok_bind, hvalues, ok_bind, parseBpftoolCounters_listed value hrecords', ok_bind]
    rfl
  · have hdecode : ∀ c : UdpCounters, UdpMapCounters.field f c.decode = ((c.counter f).toNat : ℤ) := by
      intro c
      cases f <;> rfl
    have hzero : UdpMapCounters.field f ⟨0, 0⟩ = 0 := by cases f <;> rfl
    show UdpMapCounters.field f (List.foldl _ _ _) = _
    rw [field_foldl_add, hzero, zero_add, List.map_map, List.map_map, ← sum_cpus hcpus]
    exact congrArg List.sum (List.map_congr_left fun cpu _ => hdecode (item.2 cpu))

/-- What is read of an entry of the delivered map. -/
def ReadsDelivered (item : DeliveredKey × (Fin n → DeliveredValue)) (e : DeliveredMapEntry) :
    Prop :=
  e.key = item.1.decode ∧ ∃ cpus : List (Fin n), cpus.Perm (List.finRange n) ∧
    e.value = mergedDelivered (cpus.map item.2)

theorem parseBpftoolDeliveredEntry_printed (item : DeliveredKey × (Fin n → DeliveredValue))
    (raw : Json) (h : PrintsEntry (fun k => DeliveredKey.members k 0)
      (fun v => DeliveredValue.members v 0) item raw) :
    ∃ e, parseBpftoolDeliveredEntry raw = .ok e ∧ ReadsDelivered item e := by
  obtain ⟨cpus, hcpus, hlisting⟩ := h
  obtain ⟨rawKey, hkey, hpresents⟩ := hlisting.key
  obtain ⟨cpuValues, hvalues, hrecords⟩ := hlisting.values
  obtain ⟨value, hvalue⟩ := getMember_of_getMember hkey "value"
  have hrecords' : List.Forall₂ (fun record cpuValue =>
      ∃ value, Json.getMember cpuValue "value" = .ok value ∧ Presents record value)
      ((cpus.map fun cpu => (item.2 cpu, (0 : BitVec 32))).map fun v => v.1.members v.2)
      cpuValues := by
    rw [List.map_map]
    exact hrecords
  refine ⟨⟨item.1.decode, mergedDelivered (cpus.map item.2)⟩, ?_, rfl, cpus, hcpus, rfl⟩
  have hfst : (cpus.map fun cpu => (item.2 cpu, (0 : BitVec 32))).map Prod.fst = cpus.map item.2 := by
    rw [List.map_map]
    rfl
  rw [parseBpftoolDeliveredEntry, hkey, ok_bind, parseBpftoolDeliveredKey_presented _ hpresents,
    ok_bind, hvalue, ok_bind, hvalues, ok_bind, parseBpftoolDeliveredValue_listed value hrecords',
    ok_bind, hfst]
  rfl

theorem ReadsDelivered.field {item : DeliveredKey × (Fin n → DeliveredValue)}
    {e : DeliveredMapEntry} (h : ReadsDelivered item e) (f : UdpField) :
    UdpMapCounters.field f e.value.counters = ∑ cpu, (((item.2 cpu).count f).toNat : ℤ) := by
  obtain ⟨-, cpus, hcpus, hvalue⟩ := h
  have hdecode : ∀ v : DeliveredValue,
      UdpMapCounters.field f v.decode.counters = ((v.count f).toNat : ℤ) := by
    intro v
    cases f <;> rfl
  have hzero : UdpMapCounters.field f (DeliveredMapValue.counters ⟨0, 0, 0, 0⟩) = 0 := by
    cases f <;> rfl
  rw [hvalue, mergedDelivered, field_foldl_merge, hzero, zero_add, List.map_map, List.map_map,
    ← sum_cpus hcpus]
  exact congrArg List.sum (List.map_congr_left fun cpu _ => hdecode (item.2 cpu))

/-! ### The snapshots of the dumps -/

/-- The dump of the ingress map: every entry is of a key of the map, and the snapshot is the
counters of the map. -/
theorem ingress_dump (printer : MapPrinter n UdpKey.members UdpCounters.members)
    (maps : PacketMaps n) :
    ∃ dump, dumpEntries parseBpftoolEntry (printer.print maps.ingress.counters) = .ok dump ∧
      (∀ e ∈ dump, ∃ key ∈ maps.ingress.counters, e.key = key.decode) ∧
      ∀ key : UdpKey, ingressLoop.snapshot dump key.decode.identity =
        (ingressTable n).counts maps key := by
  obtain ⟨items, dump, hperm, hdump, hreads⟩ :=
    dumpEntries_printed printer parseBpftoolEntry_printed maps.ingress.counters
  refine ⟨dump, hdump, fun e he => ?_, fun key => ?_⟩
  · obtain ⟨item, hitem, hread⟩ := exists_of_forall₂_right hreads he
    exact ⟨item.1, List.mem_map.mpr ⟨item, hperm.mem_iff.mp hitem, rfl⟩, hread.1⟩
  · refine (ingressLoop.snapshot_of_lists UdpKey.identity_decode_injective hperm
      (hreads.imp fun item e hread => ⟨?_, hread.2⟩) key).trans rfl
    exact congrArg UdpMapKey.identity hread.1

theorem delivered_dump (printer : MapPrinter n (fun k => DeliveredKey.members k 0)
    (fun v => DeliveredValue.members v 0)) (maps : PacketMaps n) :
    ∃ dump, dumpEntries parseBpftoolDeliveredEntry (printer.print maps.delivered) = .ok dump ∧
      (∀ e ∈ dump, ∃ item ∈ maps.delivered.items, ReadsDelivered item e) ∧
      ∀ key : DeliveredKey, deliveredLoop.snapshot dump key.decode.identity =
        (deliveredTable n).counts maps key := by
  obtain ⟨items, dump, hperm, hdump, hreads⟩ :=
    dumpEntries_printed printer parseBpftoolDeliveredEntry_printed maps.delivered
  refine ⟨dump, hdump, fun e he => ?_, fun key => ?_⟩
  · obtain ⟨item, hitem, hread⟩ := exists_of_forall₂_right hreads he
    exact ⟨item, hperm.mem_iff.mp hitem, hread⟩
  · refine (deliveredLoop.snapshot_of_lists DeliveredKey.identity_decode_injective hperm
      (hreads.imp fun item e hread => ⟨?_, hread.field⟩) key).trans rfl
    exact congrArg DeliveredMapKey.identity hread.1

end

end UdpAnalyzer

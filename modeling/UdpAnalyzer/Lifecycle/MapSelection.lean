import Mathlib.Data.List.Induction
import Mathlib.Data.List.Nodup
import UdpAnalyzer.Lifecycle.Collector

/-! Which map the ingress collector reads (`BpftoolMapReader.refresh_map_id` of `ebpf.py`): of
the maps that the newest program of its name owns, the one of the wanted name. -/

namespace UdpAnalyzer

/-- A loaded program as `bpftool -j prog show` lists it. Its other members are not read. -/
structure LoadedProgram where
  members : List (Str × Json)
  id : ℕ
  name : Option Str
  mapIds : List ℕ
  id_member : lookupLast "id".toList members = some (.int id)
  name_member : lookupLast "name".toList members = name.map Json.str
  map_ids_member :
    lookupLast "map_ids".toList members = some (.arr (mapIds.map fun i : ℕ => Json.int i)) ∨
      lookupLast "map_ids".toList members = none ∧ mapIds = []

def LoadedProgram.json (p : LoadedProgram) : Json := .obj p.members

/-- A map as `bpftool -j map show` lists it, under the name the kernel keeps. -/
structure LoadedMap where
  members : List (Str × Json)
  id : ℕ
  name : Str
  id_member : lookupLast "id".toList members = some (.int id)
  name_member : lookupLast "name".toList members = some (.str name) ∨
    lookupLast "name".toList members = none ∧ name = []

def LoadedMap.json (m : LoadedMap) : Json := .obj m.members

/-- What is loaded, in the order it is listed. -/
structure Loaded where
  programs : List LoadedProgram
  maps : List LoadedMap
  programs_nodup : (programs.map LoadedProgram.id).Nodup
  maps_nodup : (maps.map LoadedMap.id).Nodup

namespace Loaded

/-- `bpftool` lists what is loaded. -/
def reply (l : Loaded) : Reply
  | .run .bpftoolProgShow _ =>
    .ok { stdout := { json := .ok (.arr (l.programs.map LoadedProgram.json)) } }
  | .run .bpftoolMapShow _ =>
    .ok { stdout := { json := .ok (.arr (l.maps.map LoadedMap.json)) } }
  | _ => .error (.other "unexpected")

/-- The program of the name with the highest id, among those that own maps. -/
structure Newest (l : Loaded) (name : Str) (p : LoadedProgram) : Prop where
  mem : p ∈ l.programs
  named : p.name = some name
  owns : p.mapIds ≠ []
  newest : ∀ q ∈ l.programs, q.name = some name → q.mapIds ≠ [] → q.id ≤ p.id

/-- The name of a map; a map that is not listed has none. -/
def kernelName (l : Loaded) (mapId : ℕ) : Str :=
  ((l.maps.find? fun m => m.id = mapId).map LoadedMap.name).getD []

/-- The newest program owns the map, and the map has the wanted name. -/
def Wanted (l : Loaded) (reader : BpftoolMapReader) (mapId : ℕ) : Prop :=
  ∃ p, l.Newest reader.programName p ∧ mapId ∈ p.mapIds ∧
    l.kernelName mapId = reader.mapName.take 15

end Loaded

/-! ### The calls -/

namespace BpftoolMapReader

/-- What is chosen, without the calls. -/
def choose (reader : BpftoolMapReader) (programs maps : Json) : Except PyExc ℤ := do
  let mapIds ← newestMapIds reader.programName programs
  mapNames maps >>= mapByName reader.programName reader.mapName mapIds

/-- `refresh_map_id`, after the programs have been read. -/
def afterPrograms (reader : BpftoolMapReader) (mapIds : List ℤ) : Meth BpftoolMapReader ℤ := do
  let maps ← runJson .bpftoolMapShow true
  let mapId ← Method.reraise (mapNames maps >>= mapByName reader.programName reader.mapName mapIds)
  Method.update fun r => { r with mapId := some mapId }
  pure mapId

/-- `refresh_map_id` where `bpftool` lists what is loaded. -/
def refreshed (reader : BpftoolMapReader) (l : Loaded) (me : ℕ) (m : Machine) :
    Script SystemCall Value PyExc (Except PyExc ℤ × BpftoolMapReader) × Machine :=
  Script.run (serve me) (refreshMapId reader) m [l.reply, l.reply]

theorem refreshed_eq (reader : BpftoolMapReader) (l : Loaded) (me : ℕ) (m : Machine) :
    reader.refreshed l me m =
      match reader.choose (.arr (l.programs.map LoadedProgram.json))
          (.arr (l.maps.map LoadedMap.json)) with
      | .ok mapId => (.done (.ok mapId, { reader with mapId := some mapId }), m)
      | .error e => (.done (.error e, reader), m) := by
  have hprograms : reader.refreshed l me m = Script.run (serve me)
      ((Method.reraise (newestMapIds reader.programName
        (.arr (l.programs.map LoadedProgram.json))) >>= reader.afterPrograms) reader) m
          [l.reply] := rfl
  rw [hprograms, choose]
  cases newestMapIds reader.programName (.arr (l.programs.map LoadedProgram.json)) with
  | error e => rfl
  | ok mapIds =>
    rw [ok_bind]
    have hmaps : Script.run (serve me) ((Method.reraise (.ok mapIds) >>= reader.afterPrograms) reader)
        m [l.reply] = ((Method.reraise (mapNames (.arr (l.maps.map LoadedMap.json)) >>=
          mapByName reader.programName reader.mapName mapIds) >>= fun mapId =>
            Method.update (fun r => { r with mapId := some mapId }) >>= fun _ =>
              (pure mapId : Meth BpftoolMapReader ℤ)) reader, m) := rfl
    rw [hmaps]
    cases mapNames (.arr (l.maps.map LoadedMap.json)) >>=
      mapByName reader.programName reader.mapName mapIds <;> rfl

end BpftoolMapReader

/-! ### The newest program -/

/-- One item of `lastByKey`. -/
def laterItem {α : Type} (best : Option (ℤ × α)) (item : ℤ × α) : Option (ℤ × α) :=
  match best with
  | some kept => if kept.1 ≤ item.1 then some item else some kept
  | none => some item

/-- The item that is kept is one of the list and has the largest key. -/
theorem foldl_laterItem {α : Type} {keyed : List (ℤ × α)} (h : keyed ≠ []) :
    ∃ item ∈ keyed, keyed.foldl laterItem none = some item ∧
      ∀ other ∈ keyed, other.1 ≤ item.1 := by
  induction keyed using List.reverseRecOn with
  | nil => exact absurd rfl h
  | append_singleton keyed last ih =>
    rw [List.foldl_concat]
    by_cases hnil : keyed = []
    · subst hnil
      refine ⟨last, List.mem_cons_self, rfl, fun other hother => ?_⟩
      rw [List.mem_singleton.mp hother]
    · obtain ⟨item, hitem, hfold, hlargest⟩ := ih hnil
      rw [hfold]
      by_cases hle : item.1 ≤ last.1
      · refine ⟨last, List.mem_append_right _ List.mem_cons_self, if_pos hle, fun other hother => ?_⟩
        rcases List.mem_append.mp hother with hold | hlast
        · exact (hlargest other hold).trans hle
        · rw [List.mem_singleton.mp hlast]
      · refine ⟨item, List.mem_append_left _ hitem, if_neg hle, fun other hother => ?_⟩
        rcases List.mem_append.mp hother with hold | hlast
        · exact hlargest other hold
        · rw [List.mem_singleton.mp hlast]
          exact (not_le.mp hle).le

theorem lastByKey_eq {α : Type} (keyed : List (ℤ × α)) :
    lastByKey keyed = (keyed.foldl laterItem none).map Prod.snd := rfl

namespace LoadedProgram

/-- The program is a candidate for a name. -/
def isCandidate (name : Str) (p : LoadedProgram) : Bool := p.name = some name && p.mapIds ≠ []

theorem getMember_name (p : LoadedProgram) :
    p.json.getMember "name" = .ok ((p.name.map Json.str).getD .null) := by
  rw [json, Json.getMember, p.name_member]

theorem getMember_mapIds (p : LoadedProgram) (h : p.mapIds ≠ []) :
    p.json.getMember "map_ids" = .ok (.arr (p.mapIds.map fun i : ℕ => Json.int i)) := by
  rcases p.map_ids_member with hsome | ⟨-, hnil⟩
  · rw [json, Json.getMember, hsome, Option.getD_some]
  · exact absurd hnil h

theorem truthy_mapIds (p : LoadedProgram) :
    (p.json.getMember "map_ids" >>= fun value => Except.ok value.truthy) =
      (.ok (decide (p.mapIds ≠ [])) : Except PyExc Bool) := by
  rcases p.map_ids_member with hsome | ⟨hnone, hnil⟩
  · rw [json, Json.getMember, hsome, Option.getD_some, ok_bind, Json.truthy]
    cases p.mapIds <;> rfl
  · rw [json, Json.getMember, hnone, hnil]
    rfl

theorem programId_json (p : LoadedProgram) : programId p.json = .ok (p.id : ℤ) := by
  rw [json, programId, Json.intMemberOrZero, p.id_member]
  rfl

end LoadedProgram

namespace LoadedMap

theorem hasText_id (m : LoadedMap) : m.json.hasText "id".toList = .ok true := by
  have hsome := m.id_member
  rw [json, Json.hasText, Except.ok.injEq, List.any_eq_true]
  obtain ⟨before, after, hsplit, -⟩ := List.lookup_eq_some_iff.mp hsome
  refine ⟨("id".toList, .int m.id), ?_, by simp⟩
  rw [← List.mem_reverse, hsplit]
  exact List.mem_append_right _ List.mem_cons_self

theorem subscript_id (m : LoadedMap) : m.json.subscript "id" = .ok (.int m.id) := by
  rw [json, Json.subscript, m.id_member]

theorem getMember_name (m : LoadedMap) :
    m.json.getMember "name" (.str []) = .ok (.str m.name) := by
  rw [json, Json.getMember]
  rcases m.name_member with hsome | ⟨hnone, hnil⟩
  · rw [hsome, Option.getD_some]
  · rw [hnone, hnil, Option.getD_none]

end LoadedMap

/-- The pair of `mapNames` for one map. -/
def readPair (m : Json) : Except PyExc (Option (ℤ × Str)) := do
  if ← m.hasText "id".toList then
    let mapId ← (← m.subscript "id").toInt
    let name ← m.getMember "name" (.str [])
    return some (mapId, name.toText)
  else return none

theorem LoadedMap.readPair_json (m : LoadedMap) :
    readPair m.json = .ok (some ((m.id : ℤ), m.name)) := by
  rw [readPair, m.hasText_id, ok_bind, if_pos rfl, m.subscript_id, ok_bind, Json.toInt, ok_bind,
    m.getMember_name, ok_bind]
  rfl

theorem candidatePrograms_json (name : Str) (programs : List LoadedProgram) :
    candidatePrograms name (programs.map LoadedProgram.json) =
      .ok ((programs.filter (LoadedProgram.isCandidate name)).map LoadedProgram.json) := by
  apply filterM_map_eq_ok
  intro p
  rw [p.getMember_name, ok_bind, LoadedProgram.isCandidate]
  cases hname : p.name with
  | none => rfl
  | some text =>
    show (if (Json.str text).isText name = true then
      p.json.getMember "map_ids" >>= fun value => Except.ok value.truthy else .ok false) = _
    rw [p.truthy_mapIds, Json.isText]
    by_cases htext : text = name
    · simp [htext]
    · simp [htext]

/-- The candidates with their ids. -/
def keyedCandidates (name : Str) (programs : List LoadedProgram) : List (ℤ × Json) :=
  (programs.filter (LoadedProgram.isCandidate name)).map fun p => ((p.id : ℤ), p.json)

theorem mapM_programId (programs : List LoadedProgram) :
    ((programs.map LoadedProgram.json).mapM fun program =>
      (do return (← programId program, program) : Except PyExc (ℤ × Json))) =
        .ok (programs.map fun p => ((p.id : ℤ), p.json)) := by
  apply mapM_map_eq_ok
  intro p
  rw [p.programId_json]
  rfl

theorem newestMapIds_of_none {name : Str} {programs : List LoadedProgram}
    (h : lastByKey (keyedCandidates name programs) = none) :
    newestMapIds name (.arr (programs.map LoadedProgram.json)) =
      .error (.runtimeError ("could not find loaded BPF program named " ++
        String.ofList (Json.reprText name))) := by
  rw [newestMapIds, Json.items, ok_bind, candidatePrograms_json, ok_bind, mapM_programId, ok_bind]
  rw [keyedCandidates] at h
  rw [h]

theorem newestMapIds_of_some {name : Str} {programs : List LoadedProgram} {p : LoadedProgram}
    (h : lastByKey (keyedCandidates name programs) = some p.json) (howns : p.mapIds ≠ []) :
    newestMapIds name (.arr (programs.map LoadedProgram.json)) =
      .ok (p.mapIds.map fun i : ℕ => (i : ℤ)) := by
  have htruthy : (Json.arr (p.mapIds.map fun i : ℕ => Json.int i)).truthy = true := by
    rw [Json.truthy]
    cases hids : p.mapIds with
    | nil => exact absurd hids howns
    | cons i rest => rfl
  rw [newestMapIds, Json.items, ok_bind, candidatePrograms_json, ok_bind, mapM_programId, ok_bind]
  rw [keyedCandidates] at h
  rw [h]
  dsimp only
  rw [p.getMember_mapIds howns, ok_bind, if_pos htruthy, Json.items, ok_bind]
  exact @mapM_map_eq_ok PyExc ℕ Json ℤ Json.toInt (fun i => .int i) (fun i => i) (fun _ => rfl) p.mapIds

namespace Loaded

theorem mem_filter_isCandidate {l : Loaded} {name : Str} {p : LoadedProgram} :
    p ∈ l.programs.filter (LoadedProgram.isCandidate name) ↔
      p ∈ l.programs ∧ p.name = some name ∧ p.mapIds ≠ [] := by
  simp [LoadedProgram.isCandidate]

/-- There is a newest program, and it is the one chosen, or no program of the name owns maps. -/
theorem newest_or_none (l : Loaded) (name : Str) :
    (∃ p, l.Newest name p ∧ lastByKey (keyedCandidates name l.programs) = some p.json) ∨
      (∀ p, ¬ l.Newest name p) ∧ lastByKey (keyedCandidates name l.programs) = none := by
  by_cases hnil : l.programs.filter (LoadedProgram.isCandidate name) = []
  · refine .inr ⟨fun p hp => ?_, ?_⟩
    · have hmem := mem_filter_isCandidate.mpr ⟨hp.mem, hp.named, hp.owns⟩
      rw [hnil] at hmem
      exact absurd hmem List.not_mem_nil
    · rw [keyedCandidates, hnil]
      rfl
  · obtain ⟨item, hitem, hfold, hlargest⟩ := @foldl_laterItem Json
      (keyedCandidates name l.programs) (by simpa [keyedCandidates] using hnil)
    obtain ⟨p, hp, rfl⟩ := List.mem_map.mp hitem
    obtain ⟨hmem, hnamed, howns⟩ := mem_filter_isCandidate.mp hp
    refine .inl ⟨p, ⟨hmem, hnamed, howns, fun q hq hqnamed hqowns => ?_⟩, ?_⟩
    · have hle := hlargest _ (List.mem_map_of_mem (mem_filter_isCandidate.mpr ⟨hq, hqnamed, hqowns⟩))
      exact Int.ofNat_le.mp hle
    · rw [lastByKey_eq, hfold]
      rfl

theorem Newest.unique {l : Loaded} {name : Str} {p q : LoadedProgram} (hp : l.Newest name p)
    (hq : l.Newest name q) : p = q := by
  have hid : p.id = q.id :=
    Nat.le_antisymm (hq.newest p hp.mem hp.named hp.owns) (hp.newest q hq.mem hq.named hq.owns)
  exact List.inj_on_of_nodup_map l.programs_nodup hp.mem hq.mem hid

/-! ### The names of the maps -/

/-- The id and the name of each map. -/
def pairs (l : Loaded) : List (ℤ × Str) := l.maps.map fun m => ((m.id : ℤ), m.name)

theorem mapNames_json (l : Loaded) : mapNames (.arr (l.maps.map LoadedMap.json)) =
    .ok l.pairs := by
  rw [pairs]
  cases l.maps with
  | nil => rfl
  | cons m rest =>
    have hread : mapNames (.arr ((m :: rest).map LoadedMap.json)) =
        ((m :: rest).map LoadedMap.json).mapM readPair >>= fun pairs =>
          .ok (pairs.filterMap id) := rfl
    rw [hread, mapM_map_eq_ok LoadedMap.readPair_json, ok_bind, List.filterMap_map]
    exact congrArg Except.ok (congrFun List.filterMap_eq_map' (m :: rest))

/-- The name that is looked up. -/
theorem nameOfMap_eq (l : Loaded) (mapId : ℕ) :
    nameOfMap l.pairs mapId [] = l.kernelName mapId := by
  rw [nameOfMap, kernelName]
  cases hfind : l.maps.find? fun m => m.id = mapId with
  | none =>
    have hlookup : l.pairs.reverse.lookup (mapId : ℤ) = none := by
      rw [List.lookup_eq_none_iff]
      intro pair hpair
      obtain ⟨m, hm, rfl⟩ := List.mem_map.mp (List.mem_reverse.mp hpair)
      have hne := List.find?_eq_none.mp hfind m hm
      simp only [decide_eq_true_eq] at hne
      exact bne_iff_ne.mpr fun h => hne (Int.ofNat_inj.mp h).symm
    rw [hlookup]
    rfl
  | some m =>
    have hm := List.mem_of_find?_eq_some hfind
    have hid : m.id = mapId := by simpa using List.find?_some hfind
    cases hlookup : l.pairs.reverse.lookup (mapId : ℤ) with
    | none =>
      rw [List.lookup_eq_none_iff] at hlookup
      have hne := hlookup _ (List.mem_reverse.mpr (List.mem_map_of_mem hm))
      simp [hid] at hne
    | some name =>
      obtain ⟨before, after, hsplit, -⟩ := List.lookup_eq_some_iff.mp hlookup
      have hpair : ((mapId : ℤ), name) ∈ l.pairs := by
        rw [← List.mem_reverse, hsplit]
        exact List.mem_append_right _ List.mem_cons_self
      obtain ⟨other, hother, heq⟩ := List.mem_map.mp hpair
      obtain ⟨hotherId, hname⟩ := Prod.mk.inj heq
      have hsame : other.id = m.id := (Int.ofNat_inj.mp hotherId).trans hid.symm
      rw [← List.inj_on_of_nodup_map l.maps_nodup hother hm hsame, ← hname]
      rfl

/-! ### The choice -/

/-- A wanted map is chosen, or there is none and the program says so. -/
theorem choose_wanted_or_error (l : Loaded) (reader : BpftoolMapReader) :
    (∃ i, l.Wanted reader i ∧ reader.choose (.arr (l.programs.map LoadedProgram.json))
      (.arr (l.maps.map LoadedMap.json)) = .ok (i : ℤ)) ∨
    (∀ i, ¬ l.Wanted reader i) ∧ ∃ message, reader.choose
      (.arr (l.programs.map LoadedProgram.json)) (.arr (l.maps.map LoadedMap.json)) =
        .error (.runtimeError message) := by
  unfold BpftoolMapReader.choose
  rcases l.newest_or_none reader.programName with ⟨p, hp, hlast⟩ | ⟨hnone, hlast⟩
  · rw [newestMapIds_of_some hlast hp.owns, ok_bind, l.mapNames_json, ok_bind, mapByName]
    cases hfind : (p.mapIds.map fun i : ℕ => (i : ℤ)).find? fun mapId =>
        nameOfMap l.pairs mapId [] = reader.mapName.take 15 with
    | none =>
      refine .inr ⟨?_, _, rfl⟩
      rintro i ⟨q, hq, hi, hname⟩
      obtain rfl := hp.unique hq
      have hne := List.find?_eq_none.mp hfind i (List.mem_map_of_mem hi)
      rw [l.nameOfMap_eq] at hne
      exact hne (decide_eq_true hname)
    | some mapId =>
      obtain ⟨i, hi, rfl⟩ := List.mem_map.mp (List.mem_of_find?_eq_some hfind)
      have hname := List.find?_some hfind
      rw [l.nameOfMap_eq, decide_eq_true_iff] at hname
      exact .inl ⟨i, ⟨p, hp, hi, hname⟩, rfl⟩
  · rw [newestMapIds_of_none hlast]
    refine .inr ⟨?_, _, rfl⟩
    rintro i ⟨p, hp, -⟩
    exact hnone p hp

/-! ### Other orders -/

/-- What is loaded in one list is loaded in the other. -/
structure Covers (l l' : Loaded) : Prop where
  programs : ∀ p ∈ l.programs, ∃ q ∈ l'.programs,
    q.id = p.id ∧ q.name = p.name ∧ ∀ i, i ∈ q.mapIds ↔ i ∈ p.mapIds
  maps : ∀ m ∈ l.maps, ∃ n ∈ l'.maps, n.id = m.id ∧ n.name = m.name

/-- The same programs and maps, whatever the order they, and the maps of each program, are
listed in. -/
def SameObjects (l l' : Loaded) : Prop := l.Covers l' ∧ l'.Covers l

theorem owns_of_same {p q : LoadedProgram} (h : ∀ i, i ∈ q.mapIds ↔ i ∈ p.mapIds)
    (howns : p.mapIds ≠ []) : q.mapIds ≠ [] := by
  obtain ⟨i, hi⟩ := List.exists_mem_of_ne_nil _ howns
  exact List.ne_nil_of_mem ((h i).mpr hi)

theorem kernelName_of_mem (l : Loaded) {m : LoadedMap} (hm : m ∈ l.maps) :
    l.kernelName m.id = m.name := by
  rw [kernelName]
  cases hfind : l.maps.find? fun other => other.id = m.id with
  | none => exact absurd (List.find?_eq_none.mp hfind m hm) (by simp)
  | some other =>
    have hid : other.id = m.id := by simpa using List.find?_some hfind
    rw [List.inj_on_of_nodup_map l.maps_nodup (List.mem_of_find?_eq_some hfind) hm hid]
    rfl

theorem kernelName_of_unlisted (l : Loaded) {mapId : ℕ} (h : ∀ m ∈ l.maps, m.id ≠ mapId) :
    l.kernelName mapId = [] := by
  rw [kernelName, List.find?_eq_none.mpr fun m hm => by simpa using h m hm]
  rfl

theorem kernelName_congr {l l' : Loaded} (h : l.SameObjects l') (mapId : ℕ) :
    l'.kernelName mapId = l.kernelName mapId := by
  by_cases hlisted : ∃ m ∈ l.maps, m.id = mapId
  · obtain ⟨m, hm, rfl⟩ := hlisted
    obtain ⟨n, hn, hid, hname⟩ := h.1.maps m hm
    rw [l.kernelName_of_mem hm, ← hid, l'.kernelName_of_mem hn, hname]
  · have hl : ∀ m ∈ l.maps, m.id ≠ mapId := fun m hm hid => hlisted ⟨m, hm, hid⟩
    have hl' : ∀ m ∈ l'.maps, m.id ≠ mapId := fun m hm hid => by
      obtain ⟨n, hn, hnid, -⟩ := h.2.maps m hm
      exact hl n hn (hnid.trans hid)
    rw [l.kernelName_of_unlisted hl, l'.kernelName_of_unlisted hl']

theorem Newest.congr {l l' : Loaded} (h : l.SameObjects l') {name : Str} {p : LoadedProgram}
    (hp : l.Newest name p) : ∃ q, l'.Newest name q ∧ ∀ i, i ∈ q.mapIds ↔ i ∈ p.mapIds := by
  obtain ⟨q, hq, hid, hname, hids⟩ := h.1.programs p hp.mem
  refine ⟨q, ⟨hq, hname.trans hp.named, owns_of_same hids hp.owns, fun r hr hrname hrowns => ?_⟩,
    hids⟩
  obtain ⟨s, hs, hsid, hsname, hsids⟩ := h.2.programs r hr
  rw [hid, ← hsid]
  exact hp.newest s hs (hsname.trans hrname) (owns_of_same hsids hrowns)

theorem Wanted.congr {l l' : Loaded} (h : l.SameObjects l') {reader : BpftoolMapReader} {i : ℕ}
    (hi : l.Wanted reader i) : l'.Wanted reader i := by
  obtain ⟨p, hp, hmem, hname⟩ := hi
  obtain ⟨q, hq, hids⟩ := hp.congr h
  exact ⟨q, hq, (hids i).mpr hmem, (kernelName_congr h i).trans hname⟩

end Loaded

/-- In whatever order the programs, the maps and the maps of each program are listed, and
whatever else is loaded: the one map of the wanted name that the newest program owns is returned
and kept; where there is none, the program raises and keeps what it had. What is returned is
always such a map. -/
theorem refreshMapId_selects (reader : BpftoolMapReader) (l l' : Loaded) (h : l.SameObjects l')
    (me : ℕ) (m : Machine) :
    (∀ i, (∀ j, l.Wanted reader j ↔ j = i) →
      reader.refreshed l' me m = (.done (.ok (i : ℤ), { reader with mapId := some (i : ℤ) }), m)) ∧
    ((∀ i, ¬ l.Wanted reader i) → ∃ message,
      reader.refreshed l' me m = (.done (.error (.runtimeError message), reader), m)) ∧
    ((∃ i, l.Wanted reader i) → ∃ i, l.Wanted reader i ∧
      reader.refreshed l' me m =
        (.done (.ok (i : ℤ), { reader with mapId := some (i : ℤ) }), m)) := by
  have hback : ∀ i, l'.Wanted reader i → l.Wanted reader i := fun i hi => hi.congr ⟨h.2, h.1⟩
  rw [BpftoolMapReader.refreshed_eq]
  rcases l'.choose_wanted_or_error reader with ⟨i, hi, hchoose⟩ | ⟨hnone, message, hchoose⟩
  · rw [hchoose]
    refine ⟨fun j hj => ?_, fun hnone => absurd (hback i hi) (hnone i),
      fun _ => ⟨i, hback i hi, rfl⟩⟩
    rw [(hj i).mp (hback i hi)]
  · rw [hchoose]
    refine ⟨fun j hj => ?_, fun _ => ⟨message, rfl⟩, fun ⟨i, hi⟩ => absurd (hi.congr h) (hnone i)⟩
    exact absurd (((hj j).mpr rfl).congr h) (hnone j)

/-! An orphaned program of the same name with a counter map of its own, and the current one with
two maps, listed in two orders. -/

def orphanProgram : LoadedProgram where
  members := [("id".toList, .int 7), ("name".toList, .str udpIngressProgramName),
    ("map_ids".toList, .arr [.int 1])]
  id := 7
  name := some udpIngressProgramName
  mapIds := [1]
  id_member := rfl
  name_member := rfl
  map_ids_member := .inl rfl

def currentProgram (mapIds : List ℕ) : LoadedProgram where
  members := [("id".toList, .int 22), ("name".toList, .str udpIngressProgramName),
    ("map_ids".toList, .arr (mapIds.map fun i : ℕ => Json.int i))]
  id := 22
  name := some udpIngressProgramName
  mapIds := mapIds
  id_member := rfl
  name_member := rfl
  map_ids_member := .inl rfl

def namedMap (id : ℕ) (name : Str) : LoadedMap where
  members := [("id".toList, .int id), ("name".toList, .str name)]
  id := id
  name := name
  id_member := rfl
  name_member := .inl rfl

def orphanFirst : Loaded where
  programs := [orphanProgram, currentProgram [3, 9]]
  maps := [namedMap 9 "udp_ingress_dro".toList, namedMap 3 "udp_ingress_cou".toList,
    namedMap 1 "udp_ingress_cou".toList]
  programs_nodup := by decide
  maps_nodup := by decide

def orphanLast : Loaded where
  programs := [currentProgram [9, 3], orphanProgram]
  maps := orphanFirst.maps.reverse
  programs_nodup := by decide
  maps_nodup := by decide

theorem mem_currentProgram (i : ℕ) :
    i ∈ (currentProgram [9, 3]).mapIds ↔ i ∈ (currentProgram [3, 9]).mapIds := by
  simp only [currentProgram, List.mem_cons, List.not_mem_nil, or_false]
  exact or_comm

theorem orphan_sameObjects : orphanFirst.SameObjects orphanLast where
  left :=
    { programs := List.forall_mem_cons.mpr ⟨⟨orphanProgram, List.mem_cons_of_mem _ List.mem_cons_self,
        rfl, rfl, fun _ => Iff.rfl⟩, List.forall_mem_singleton.mpr
          ⟨currentProgram [9, 3], List.mem_cons_self, rfl, rfl, mem_currentProgram⟩⟩
      maps := fun m hm => ⟨m, List.mem_reverse.mpr hm, rfl, rfl⟩ }
  right :=
    { programs := List.forall_mem_cons.mpr ⟨⟨currentProgram [3, 9],
        List.mem_cons_of_mem _ List.mem_cons_self, rfl, rfl, fun i => (mem_currentProgram i).symm⟩,
          List.forall_mem_singleton.mpr ⟨orphanProgram, List.mem_cons_self, rfl, rfl,
            fun _ => Iff.rfl⟩⟩
      maps := fun m hm => ⟨m, List.mem_reverse.mp hm, rfl, rfl⟩ }

/-- The current program is the newest, and its map 3 is the wanted one. -/
theorem orphanFirst_wanted (i : ℕ) : orphanFirst.Wanted {} i ↔ i = 3 := by
  have hnewest : orphanFirst.Newest udpIngressProgramName (currentProgram [3, 9]) :=
    ⟨List.mem_cons_of_mem _ List.mem_cons_self, rfl, List.cons_ne_nil _ _,
      List.forall_mem_cons.mpr ⟨fun _ _ => (by decide : 7 ≤ 22),
        List.forall_mem_singleton.mpr fun _ _ => Nat.le_refl 22⟩⟩
  constructor
  · rintro ⟨p, hp, hmem, hname⟩
    obtain rfl := hp.unique hnewest
    simp only [currentProgram, List.mem_cons, List.not_mem_nil, or_false] at hmem
    rcases hmem with rfl | rfl
    · rfl
    · exact absurd hname (by decide +kernel)
  · rintro rfl
    exact ⟨_, hnewest, List.mem_cons_self, by decide +kernel⟩

theorem refreshMapId_selects_orphan : BpftoolMapReader.refreshed {} orphanLast 0 {} =
    (.done (.ok 3, { mapId := some 3 }), {}) :=
  (refreshMapId_selects {} orphanFirst orphanLast orphan_sameObjects 0 {}).1 3 orphanFirst_wanted

end UdpAnalyzer

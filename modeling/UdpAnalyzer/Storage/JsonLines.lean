import Mathlib.Data.Char
import Mathlib.Data.List.Lex
import Mathlib.Data.List.Sort
import UdpAnalyzer.Lib.JsonRoundTrip
import UdpAnalyzer.Lib.UrlEncoded
import UdpAnalyzer.Output

/-! The rows as lines of JSON (`output.py`), and how a file of such lines is read
(`harness/assert_output.py`). The lines of several checkpoints, appended to one file, are read as
the rows that were emitted, in their order, whatever characters the texts of a row have: no text
can break a line, end an object or bring a member. -/

namespace UdpAnalyzer

def ColumnValue.json : ColumnValue → Json
  | .int n => .int n
  | .text s => .str s

/-- The members of a dictionary. -/
def jsonMembers (data : List (String × ColumnValue)) : List (Str × Json) :=
  data.map fun column => (column.1.toList, column.2.json)

/-- `sort_keys=True`. -/
def sortedMembers (members : List (Str × Json)) : List (Str × Json) :=
  members.insertionSort fun m m' => m.1 ≤ m'.1

/-- `json.dumps(data)`. -/
def dumpsDict (data : List (String × ColumnValue)) : Str := (Json.obj (jsonMembers data)).dumps

/-- `json.dumps(data, sort_keys=True)`. -/
def dumpsSorted (data : List (String × ColumnValue)) : Str :=
  (Json.obj (sortedMembers (jsonMembers data))).dumps

section
variable {α : Type} (toDict : α → List (String × ColumnValue))

/-- `emit_samples`: what is printed. -/
def emitSamples (samples : List α) (output : String) : Except PyExc Str :=
  if output = "none" then .ok []
  else if output = "json" then .ok (printedLines (samples.map fun sample => dumpsSorted (toDict sample)))
  else if output = "table" then .ok (emitTable toDict samples)
  else .error .valueError

end

/-! ### Reading -/

section
variable (floatOf : List Char → JsonFloat)

/-- The loop of `read_rows` over the lines from a number on: blank lines are passed over, and a
line that is no JSON ends it. -/
def readJsonLines : ℕ → List Str → Except ℕ (List Json)
  | _, [] => .ok []
  | lineNumber, line :: rest =>
    let stripped := strip line
    if stripped = [] then readJsonLines (lineNumber + 1) rest
    else
      match Json.loads floatOf stripped with
      | none => .error lineNumber
      | some row => (readJsonLines (lineNumber + 1) rest).map (row :: ·)

/-- A line that holds a value and nothing else. -/
structure IsJsonLine (line : Str) (row : Json) : Prop where
  printable : ∀ c ∈ line, Json.IsPrintable c
  stripped : strip line = line
  nonempty : line ≠ []
  loads : Json.loads floatOf line = some row

variable {floatOf}

/-- No control character is in such a line. -/
theorem IsJsonLine.not_mem {line : Str} {row : Json} (h : IsJsonLine floatOf line row) {c : Char}
    (hc : ¬ Json.IsPrintable c) : c ∉ line := fun hmem => hc (h.printable c hmem)

theorem readJsonLines_lines {lines : List Str} {rows : List Json}
    (h : List.Forall₂ (IsJsonLine floatOf) lines rows) (blank : List Str)
    (hblank : ∀ line ∈ blank, strip line = []) (lineNumber : ℕ) :
    readJsonLines floatOf lineNumber (lines ++ blank) = .ok rows := by
  induction h generalizing lineNumber with
  | nil =>
    rw [List.nil_append]
    induction blank generalizing lineNumber with
    | nil => rfl
    | cons line blank ih =>
      rw [readJsonLines, if_pos (hblank line List.mem_cons_self)]
      exact ih (fun line hline => hblank line (List.mem_cons_of_mem _ hline)) _
  | cons hline _ ih =>
    rw [List.cons_append, readJsonLines, hline.stripped, if_neg hline.nonempty, hline.loads]
    dsimp only
    rw [ih]
    rfl

/-! ### The lines of rows -/

/-- A line that starts and ends with a visible character is not stripped. -/
theorem strip_of_ends {text : Str} {c d : Char} (hc : isSpace c = false) (hd : isSpace d = false) :
    strip (c :: text ++ [d]) = c :: text ++ [d] := by
  rw [strip, lstrip, List.cons_append, List.dropWhile_cons_of_neg (by rw [hc]; decide),
    ← List.cons_append, rstrip, List.rdropWhile_concat_neg _ _ _ (by rw [hd]; decide)]

theorem floatFree_obj {members : List (Str × Json)}
    (h : ∀ m ∈ members, ∃ value : ColumnValue, m.2 = value.json) :
    Json.FloatFree (.obj members) := by
  refine .obj fun m hm => ?_
  obtain ⟨value, hvalue⟩ := h m hm
  rw [hvalue]
  cases value with
  | int n => exact .int n
  | text s => exact .str s

theorem isJsonLine_obj (floatOf : List Char → JsonFloat) {members : List (Str × Json)}
    (h : ∀ m ∈ members, ∃ value : ColumnValue, m.2 = value.json) :
    IsJsonLine floatOf (Json.obj members).dumps (.obj members) where
  printable := (floatFree_obj h).isPrintable
  stripped := by
    rw [Json.dumps]
    exact strip_of_ends (by decide) (by decide)
  nonempty := by
    rw [Json.dumps]
    exact List.cons_ne_nil _ _
  loads := Json.loads_dumps floatOf (floatFree_obj h)

end

theorem exists_json_of_mem_jsonMembers {data : List (String × ColumnValue)} {m : Str × Json}
    (h : m ∈ jsonMembers data) : ∃ value : ColumnValue, m.2 = value.json := by
  obtain ⟨column, -, rfl⟩ := List.mem_map.mp h
  exact ⟨column.2, rfl⟩

theorem perm_sortedMembers (members : List (Str × Json)) : (sortedMembers members).Perm members :=
  List.perm_insertionSort _ _

theorem isJsonLine_dumpsSorted (floatOf : List Char → JsonFloat)
    (data : List (String × ColumnValue)) :
    IsJsonLine floatOf (dumpsSorted data) (.obj (sortedMembers (jsonMembers data))) :=
  isJsonLine_obj floatOf fun _ hm =>
    exists_json_of_mem_jsonMembers ((perm_sortedMembers _).mem_iff.mp hm)

theorem isJsonLine_dumpsDict (floatOf : List Char → JsonFloat)
    (data : List (String × ColumnValue)) :
    IsJsonLine floatOf (dumpsDict data) (.obj (jsonMembers data)) :=
  isJsonLine_obj floatOf fun _ hm => exists_json_of_mem_jsonMembers hm

/-! ### Members -/

/-- The value of a name that occurs once does not depend on the order of the members. -/
theorem lookup_eq_some_iff_mem {members : List (Str × Json)} (h : (members.map Prod.fst).Nodup)
    {name : Str} {value : Json} : members.lookup name = some value ↔ (name, value) ∈ members := by
  induction members with
  | nil => simp
  | cons m members ih =>
    obtain ⟨k, v⟩ := m
    rw [List.map_cons, List.nodup_cons] at h
    by_cases hk : name = k
    · subst hk
      rw [List.lookup_cons_self, Option.some.injEq, List.mem_cons, Prod.mk.injEq]
      refine ⟨fun hv => .inl ⟨rfl, hv.symm⟩, ?_⟩
      rintro (⟨-, hv⟩ | hmem)
      · exact hv.symm
      · exact absurd (List.mem_map_of_mem hmem) h.1
    · rw [List.lookup_cons, beq_eq_false_iff_ne.mpr hk, ih h.2, List.mem_cons, Prod.mk.injEq]
      exact ⟨.inr, fun hor => hor.resolve_left fun heq => hk heq.1⟩

theorem lookup_of_perm {members members' : List (Str × Json)} (hperm : members'.Perm members)
    (h : (members.map Prod.fst).Nodup) (name : Str) :
    members'.lookup name = members.lookup name := by
  refine Option.ext fun value => ?_
  rw [lookup_eq_some_iff_mem h, lookup_eq_some_iff_mem ((hperm.map _).nodup_iff.mpr h),
    hperm.mem_iff]

theorem lookup_jsonMembers (data : List (String × ColumnValue)) (column : String) :
    (jsonMembers data).lookup column.toList = (data.lookup column).map ColumnValue.json := by
  induction data with
  | nil => rfl
  | cons c data ih =>
    obtain ⟨name, value⟩ := c
    rw [jsonMembers, List.map_cons]
    by_cases hname : column = name
    · subst hname
      rw [List.lookup_cons_self, List.lookup_cons_self]
      rfl
    · have htext : column.toList ≠ name.toList := fun h => hname (String.toList_injective h)
      rw [Dict.lookup_cons_of_ne hname, List.lookup_cons, beq_eq_false_iff_ne.mpr htext]
      exact ih

theorem nodup_jsonMembers {data : List (String × ColumnValue)} (h : (data.map Prod.fst).Nodup) :
    ((jsonMembers data).map Prod.fst).Nodup := by
  have hnames : (jsonMembers data).map Prod.fst = (data.map Prod.fst).map String.toList := by
    rw [jsonMembers, List.map_map, List.map_map]
    rfl
  rw [hnames]
  exact h.map fun _ _ heq => String.toList_injective heq

/-- The columns of a dictionary do not depend on the order its members are written in. -/
theorem lookupLast_of_perm {data : List (String × ColumnValue)} (h : (data.map Prod.fst).Nodup)
    {members : List (Str × Json)} (hperm : members.Perm (jsonMembers data)) (column : String) :
    lookupLast column.toList members = (data.lookup column).map ColumnValue.json := by
  rw [lookupLast, lookup_of_perm ((List.reverse_perm _).trans hperm) (nodup_jsonMembers h),
    lookup_jsonMembers]

/-- The row has the columns of the dictionary and no others. -/
def HasColumns (data : List (String × ColumnValue)) (row : Json) : Prop :=
  ∃ members, row = .obj members ∧ ∀ column : String,
    lookupLast column.toList members = (data.lookup column).map ColumnValue.json

theorem hasColumns_jsonMembers {data : List (String × ColumnValue)}
    (h : (data.map Prod.fst).Nodup) : HasColumns data (.obj (jsonMembers data)) :=
  ⟨_, rfl, lookupLast_of_perm h (List.Perm.refl _)⟩

theorem hasColumns_sortedMembers {data : List (String × ColumnValue)}
    (h : (data.map Prod.fst).Nodup) : HasColumns data (.obj (sortedMembers (jsonMembers data))) :=
  ⟨_, rfl, lookupLast_of_perm h (perm_sortedMembers _)⟩

section
variable (bucketStartIso : ℤ → Str)

/-- The columns of a sample. -/
def UdpSample.columns : List String :=
  ["ts", "bucket_start_ns", "bucket_ms", "src_ip", "dst_ip", "src_port", "dst_port", "ip_proto",
    "ifindex", "ifname", "netns_id", "container_id", "process_name", "host_pid", "container_pid",
    "socket_id", "packets", "bytes", "layer"]

def ChannelSample.columns : List String :=
  ["ts", "bucket_start_ns", "bucket_ms", "layer", "channel", "unit", "url", "host", "src_ip",
    "dst_ip", "src_port", "dst_port", "ip_proto", "ifindex", "ifname", "host_pid", "socket_id",
    "cgroup_id", "tx_bytes", "rx_bytes", "tx_calls", "rx_calls", "connections", "status",
    "tcp_state", "bytes", "packets"]

theorem UdpSample.toDict_columns (sample : UdpSample) :
    (sample.toDict bucketStartIso).map Prod.fst = columns := rfl

theorem ChannelSample.toDict_columns (sample : ChannelSample) :
    (sample.toDict bucketStartIso).map Prod.fst = columns := rfl

theorem UdpSample.nodup_toDict (sample : UdpSample) :
    ((sample.toDict bucketStartIso).map Prod.fst).Nodup := by
  rw [toDict_columns]
  decide +kernel

theorem ChannelSample.nodup_toDict (sample : ChannelSample) :
    ((sample.toDict bucketStartIso).map Prod.fst).Nodup := by
  rw [toDict_columns]
  decide +kernel

end

/-! ### Files of rows -/

theorem splitOn_printedLines {lines : List Str} (h : ∀ line ∈ lines, '\n' ∉ line) :
    (printedLines lines).splitOn '\n' = lines ++ [[]] := by
  have hjoin : printedLines lines = ['\n'].intercalate (lines ++ [[]]) := by
    induction lines with
    | nil => rfl
    | cons line lines ih =>
      have hrest := ih fun l hl => h l (List.mem_cons_of_mem _ hl)
      rw [printedLines_cons, hrest, List.cons_append]
      cases lines with
      | nil => simp
      | cons l lines => simp
  rw [hjoin, List.splitOn_intercalate]
  · intro line hline
    rcases List.mem_append.mp hline with hline | hline
    · exact h line hline
    · rw [List.mem_singleton.mp hline]
      exact List.not_mem_nil
  · exact List.append_ne_nil_of_right_ne_nil _ (List.cons_ne_nil _ _)

end UdpAnalyzer

import UdpAnalyzer.Ingress.Rows
import UdpAnalyzer.Storage.JsonLines

/-! The test harness (`harness/assert_output.py`): it reads the lines the analyzer printed and
checks the rows. It accepts what the ingress collector and its dry run print, whichever
checkpoints the rows are of; rows of channels it never accepts, since their layer is none of the
two it knows. -/

namespace UdpAnalyzer

/-- An expected row of the dry run: source, port of the destination, layer and process. -/
abbrev ExpectedRow := String × ℤ × String × String

/-- How the script ends when it does not accept its input: `SystemExit`, or an exception. -/
inductive HarnessExit where
  /-- `{path}:{line_number}: invalid JSON` -/
  | invalidJson (lineNumber : ℕ)
  /-- `no analyzer rows were produced` -/
  | noRows
  /-- `row {index}: missing fields: {sorted(missing)}` -/
  | missingFields (index : ℕ) (fields : List String)
  /-- `row {index}: {field} must be an integer` -/
  | notInteger (index : ℕ) (field : String)
  /-- `row {index}: counters must not be negative` -/
  | negative (index : ℕ)
  /-- `row {index}: unexpected layer {row['layer']!r}` -/
  | unexpectedLayer (index : ℕ) (layer : Json)
  /-- `dry-run output missing expected rows: {sorted(missing)}` -/
  | missingRows (rows : List ExpectedRow)
  /-- `eBPF output did not include ingress rows` -/
  | noIngress
  /-- `eBPF output did not include positive packet counts` -/
  | noPackets
  | raised (e : PyExc)

/-- `REQUIRED_FIELDS`, in the order `sorted` gives them. -/
def requiredFields : List String :=
  ["bucket_ms", "bytes", "dst_ip", "dst_port", "ifindex", "ifname", "layer", "packets", "src_ip",
    "src_port", "ts"]

def integerFields : List String := ["src_port", "dst_port", "ifindex", "packets", "bytes"]

/-- An exception no one handles. -/
def raising {α : Type} : Except PyExc α → Except HarnessExit α
  | .ok a => .ok a
  | .error e => .error (.raised e)

namespace Json

/-- The texts among what a row iterates over: the names of an object. -/
def iterated : Json → Except PyExc (List Str)
  | .obj members => .ok (members.map Prod.fst)
  | .arr items =>
    if items.any fun item => match item with | .arr _ | .obj _ => true | _ => false then
      .error .typeError
    else .ok (items.filterMap fun item => match item with | .str s => some s | _ => none)
  | .str s => .ok (s.map fun c => [c])
  | _ => .error .typeError

/-- `row[field]`. -/
def item (row : Json) (field : String) : Except PyExc Json :=
  match row with
  | .obj members =>
    match lookupLast field.toList members with
    | some value => .ok value
    | none => .error .keyError
  | _ => .error .typeError

/-- `isinstance(value, int)`, of which the truth values are. -/
def isInteger : Json → Bool
  | .int _ | .bool _ => true
  | _ => false

/-- The number of an integer. -/
def integer : Json → ℤ
  | .int n => n
  | .bool true => 1
  | _ => 0

end Json

/-! ### The checks -/

def checkFields (index : ℕ) (row : Json) : Except HarnessExit Unit := do
  let names ← raising row.iterated
  let missing := requiredFields.filter fun field => field.toList ∉ names
  if missing = [] then return () else .error (.missingFields index missing)

def checkInteger (index : ℕ) (row : Json) (field : String) : Except HarnessExit Unit := do
  let value ← raising (row.item field)
  if value.isInteger then return () else .error (.notInteger index field)

def checkCounters (index : ℕ) (row : Json) : Except HarnessExit Unit := do
  let packets ← raising (row.item "packets")
  let bytes ← raising (row.item "bytes")
  if packets.integer < 0 ∨ bytes.integer < 0 then .error (.negative index) else return ()

def checkLayer (index : ℕ) (row : Json) : Except HarnessExit Unit := do
  match ← raising (row.item "layer") with
  | .str s =>
    if s = "ingress".toList ∨ s = "delivered".toList then return ()
    else .error (.unexpectedLayer index (.str s))
  | .arr _ | .obj _ => .error (.raised .typeError)
  | layer => .error (.unexpectedLayer index layer)

def validateRow (index : ℕ) (row : Json) : Except HarnessExit Unit := do
  checkFields index row
  integerFields.forM (checkInteger index row)
  checkCounters index row
  checkLayer index row

/-- The rows from an index on. -/
def validateRowsFrom (index : ℕ) : List Json → Except HarnessExit Unit
  | [] => .ok ()
  | row :: rows => do
    validateRow index row
    validateRowsFrom (index + 1) rows

/-- `validate_rows`. -/
def validateRows (rows : List Json) (allowEmpty : Bool) : Except HarnessExit Unit :=
  if rows = [] ∧ allowEmpty = false then .error .noRows else validateRowsFrom 0 rows

/-- `expected` of `validate_dry_run`. -/
def expectedRows : List ExpectedRow :=
  [("192.0.2.10", 5000, "delivered", "ffmpeg"), ("192.0.2.11", 5001, "delivered", "ffmpeg"),
    ("192.0.2.12", 5999, "ingress", "")]

namespace Json

def equalsText (text : String) : Json → Bool
  | .str s => s = text.toList
  | _ => false

/-- Lists and dictionaries cannot be put into a set. -/
def isHashable : Json → Bool
  | .arr _ | .obj _ => false
  | _ => true

end Json

/-- What is present of a row: its source, port, layer and process name, which may be absent. -/
def presentRow (row : Json) : Except PyExc (Json × Json × Json × Json) := do
  let srcIp ← row.item "src_ip"
  let dstPort ← row.item "dst_port"
  let layer ← row.item "layer"
  let processName := (row.item "process_name").toOption.getD (.str [])
  if srcIp.isHashable && dstPort.isHashable && layer.isHashable && processName.isHashable then
    return (srcIp, dstPort, layer, processName)
  else .error .typeError

def isExpected (expected : ExpectedRow) (present : Json × Json × Json × Json) : Bool :=
  present.1.equalsText expected.1 && present.2.1.integer = expected.2.1 &&
    present.2.2.1.equalsText expected.2.2.1 && present.2.2.2.equalsText expected.2.2.2

/-- `validate_dry_run`. -/
def validateDryRun (rows : List Json) : Except HarnessExit Unit := do
  let present ← raising (rows.mapM presentRow)
  let missing := expectedRows.filter fun expected => !present.any (isExpected expected)
  if missing = [] then return () else .error (.missingRows missing)

/-- `validate_ebpf`. -/
def validateEbpf (rows : List Json) (allowEmpty : Bool) : Except HarnessExit Unit := do
  if allowEmpty = true ∧ rows = [] then return ()
  else
    let layers ← raising (rows.mapM fun row => row.item "layer")
    let packets ← raising (rows.mapM fun row => row.item "packets")
    if layers.any (Json.equalsText "ingress") = false then .error .noIngress
    else if (packets.any fun packets => 0 < packets.integer) = false then .error .noPackets
    else return ()

inductive HarnessProfile where
  | generic | dryRun | ebpf

/-- The check of a profile. -/
def validateProfile : HarnessProfile → List Json → Bool → Except HarnessExit Unit
  | .generic, _, _ => .ok ()
  | .dryRun, rows, _ => validateDryRun rows
  | .ebpf, rows, allowEmpty => validateEbpf rows allowEmpty

section
variable (floatOf : List Char → JsonFloat)

/-- `read_rows`, of the bytes of a file. -/
def readRows (bytes : List UInt8) : Except HarnessExit (List Json) :=
  match decodeUtf8 bytes with
  | none => .error (.raised .unicodeDecodeError)
  | some text =>
    match readJsonLines floatOf 1 ((universalNewlines text).splitOn '\n') with
    | .error lineNumber => .error (.invalidJson lineNumber)
    | .ok rows => .ok rows

/-- `main`: the number of the rows it reports. -/
def assertOutput (profile : HarnessProfile) (allowEmpty : Bool) (bytes : List UInt8) :
    Except HarnessExit ℕ := do
  let rows ← readRows floatOf bytes
  validateRows rows allowEmpty
  validateProfile profile rows allowEmpty
  return rows.length

end

/-! ### What the analyzer printed -/

theorem universalNewlines_of_not_mem {text : Str} (h : '\r' ∉ text) :
    universalNewlines text = text := by
  induction text with
  | nil => rfl
  | cons c text ih =>
    rw [List.mem_cons, not_or] at h
    rw [universalNewlines, ih h.2]
    · exact fun _ hc => absurd hc.symm h.1
    · exact fun hc => absurd hc.symm h.1

/-- The row that is read for a sample. -/
def rowOf (data : List (String × ColumnValue)) : Json := .obj (sortedMembers (jsonMembers data))

/-- The bytes of what was printed of some batches, each by one call. -/
def printedFile {α : Type} (toDict : α → List (String × ColumnValue)) (batches : List (List α)) :
    Except PyExc (List UInt8) := do
  let texts ← batches.mapM fun batch => emitSamples toDict batch "json"
  return encodeUtf8 texts.flatten

theorem printedLines_flatten (batches : List (List Str)) :
    (batches.map printedLines).flatten = printedLines batches.flatten := by
  induction batches with
  | nil => rfl
  | cons lines batches ih =>
    rw [List.map_cons, List.flatten_cons, ih, List.flatten_cons, printedLines, printedLines,
      printedLines, List.flatMap_append]

section
variable {α : Type} (toDict : α → List (String × ColumnValue))

theorem printedFile_eq (batches : List (List α)) : printedFile toDict batches =
    .ok (encodeUtf8 (printedLines (batches.flatten.map fun sample => dumpsSorted (toDict sample)))) := by
  have htexts : (batches.mapM fun batch => emitSamples toDict batch "json") =
      .ok (batches.map fun batch =>
        printedLines (batch.map fun sample => dumpsSorted (toDict sample))) := by
    have h := List.mapM_pure (m := Except PyExc) (l := batches)
      (f := fun batch => printedLines (batch.map fun sample => dumpsSorted (toDict sample)))
    exact h
  have hflat := printedLines_flatten
    (batches.map fun batch => batch.map fun sample => dumpsSorted (toDict sample))
  rw [List.map_map, ← List.map_flatten] at hflat
  rw [printedFile, htexts, ok_bind, ← hflat]
  rfl

/-- The rows that are read are the samples that were printed. -/
theorem readRows_printedFile (floatOf : List Char → JsonFloat) (samples : List α) :
    readRows floatOf (encodeUtf8 (printedLines (samples.map fun sample =>
      dumpsSorted (toDict sample)))) = .ok (samples.map fun sample => rowOf (toDict sample)) := by
  have hlines : List.Forall₂ (IsJsonLine floatOf)
      (samples.map fun sample => dumpsSorted (toDict sample))
      (samples.map fun sample => rowOf (toDict sample)) := by
    rw [List.forall₂_map_left_iff, List.forall₂_map_right_iff, List.forall₂_same]
    exact fun sample _ => isJsonLine_dumpsSorted floatOf (toDict sample)
  have hunbroken : ∀ line ∈ samples.map fun sample => dumpsSorted (toDict sample), '\n' ∉ line := by
    intro line hline
    obtain ⟨row, -, hrow⟩ := exists_of_forall₂ hlines hline
    exact hrow.not_mem (by decide)
  have hreturn : '\r' ∉ printedLines (samples.map fun sample => dumpsSorted (toDict sample)) := by
    intro hmem
    obtain ⟨line, hline, hmem⟩ := List.mem_flatMap.mp hmem
    obtain ⟨row, -, hrow⟩ := exists_of_forall₂ hlines hline
    rcases List.mem_append.mp hmem with hmem | hmem
    · exact hrow.not_mem (by decide) hmem
    · exact absurd (List.mem_singleton.mp hmem) (by decide)
  rw [readRows, decodeUtf8_encodeUtf8]
  dsimp only
  rw [universalNewlines_of_not_mem hreturn, splitOn_printedLines hunbroken,
    readJsonLines_lines hlines [[]] (fun line hline => by rw [List.mem_singleton.mp hline]; rfl)]

end

/-! ### The checks of a printed row -/

/-- What the checks ask of a dictionary: the required fields, integers where they are asked for. -/
structure IsRow (data : List (String × ColumnValue)) (packets bytes : ℤ) (layer : Str) :
    Prop where
  nodup : (data.map Prod.fst).Nodup
  fields : ∀ field ∈ requiredFields, field ∈ data.map Prod.fst
  integers : ∀ field ∈ integerFields, ∃ n, data.lookup field = some (.int n)
  packets : data.lookup "packets" = some (.int packets)
  bytes : data.lookup "bytes" = some (.int bytes)
  layer : data.lookup "layer" = some (.text layer)

theorem item_rowOf {data : List (String × ColumnValue)} (hnodup : (data.map Prod.fst).Nodup)
    {column : String} {value : ColumnValue} (h : data.lookup column = some value) :
    (rowOf data).item column = .ok value.json := by
  rw [rowOf, Json.item, lookupLast_of_perm hnodup (perm_sortedMembers _), h]
  rfl

theorem mem_names_rowOf {data : List (String × ColumnValue)} {field : String}
    (h : field ∈ data.map Prod.fst) :
    field.toList ∈ (sortedMembers (jsonMembers data)).map Prod.fst := by
  rw [((perm_sortedMembers _).map Prod.fst).mem_iff, jsonMembers, List.map_map]
  obtain ⟨column, hcolumn, rfl⟩ := List.mem_map.mp h
  exact List.mem_map.mpr ⟨column, hcolumn, rfl⟩

namespace IsRow

variable {data : List (String × ColumnValue)} {packets bytes : ℤ} {layer : Str}

theorem checkFields (h : IsRow data packets bytes layer) (index : ℕ) :
    checkFields index (rowOf data) = .ok () := by
  have hmissing : (requiredFields.filter fun field =>
      field.toList ∉ (sortedMembers (jsonMembers data)).map Prod.fst) = [] := by
    refine List.filter_eq_nil_iff.mpr fun field hfield => ?_
    rw [decide_eq_true_eq, not_not]
    exact mem_names_rowOf (h.fields field hfield)
  rw [UdpAnalyzer.checkFields, rowOf, Json.iterated, raising, ok_bind]
  dsimp only
  rw [hmissing, if_pos rfl]
  rfl

theorem checkInteger (h : IsRow data packets bytes layer) (index : ℕ) {field : String}
    (hfield : field ∈ integerFields) : checkInteger index (rowOf data) field = .ok () := by
  obtain ⟨n, hn⟩ := h.integers field hfield
  rw [UdpAnalyzer.checkInteger, item_rowOf h.nodup hn]
  rfl

theorem checkCounters (h : IsRow data packets bytes layer) (index : ℕ) :
    checkCounters index (rowOf data) =
      if packets < 0 ∨ bytes < 0 then .error (.negative index) else .ok () := by
  rw [UdpAnalyzer.checkCounters, item_rowOf h.nodup h.packets, item_rowOf h.nodup h.bytes]
  rfl

theorem checkLayer (h : IsRow data packets bytes layer) (index : ℕ) :
    checkLayer index (rowOf data) =
      if layer = "ingress".toList ∨ layer = "delivered".toList then .ok ()
      else .error (.unexpectedLayer index (.str layer)) := by
  rw [UdpAnalyzer.checkLayer, item_rowOf h.nodup h.layer]
  rfl

/-- Only the counters and the layer of a printed row decide whether it is accepted. -/
theorem validateRow (h : IsRow data packets bytes layer) (index : ℕ) :
    validateRow index (rowOf data) =
      if packets < 0 ∨ bytes < 0 then .error (.negative index)
      else if layer = "ingress".toList ∨ layer = "delivered".toList then .ok ()
      else .error (.unexpectedLayer index (.str layer)) := by
  have hintegers : integerFields.forM (UdpAnalyzer.checkInteger index (rowOf data)) =
      Except.ok () := by
    have hall : ∀ fields : List String, fields ⊆ integerFields →
        fields.forM (UdpAnalyzer.checkInteger index (rowOf data)) = Except.ok () := by
      intro fields hfields
      induction fields with
      | nil => rfl
      | cons field fields ih =>
        rw [List.cons_subset] at hfields
        show (UdpAnalyzer.checkInteger index (rowOf data) field >>= fun _ => fields.forM _) = _
        rw [h.checkInteger index hfields.1, ok_bind]
        exact ih hfields.2
    exact hall integerFields (List.Subset.refl _)
  rw [UdpAnalyzer.validateRow, h.checkFields, ok_bind, hintegers, ok_bind, h.checkCounters]
  split_ifs with hcounters hlayer
  · rfl
  · rw [ok_bind, h.checkLayer, if_pos hlayer]
  · rw [ok_bind, h.checkLayer, if_neg hlayer]

end IsRow

variable (bucketStartIso : ℤ → Str)

theorem UdpSample.isRow (sample : UdpSample) : IsRow (sample.toDict bucketStartIso) sample.packets
    sample.bytes sample.layer.text where
  nodup := sample.nodup_toDict bucketStartIso
  fields := by
    rw [toDict_columns]
    decide +kernel
  integers := by
    simp only [integerFields, List.forall_mem_cons]
    exact ⟨⟨_, rfl⟩, ⟨_, rfl⟩, ⟨_, rfl⟩, ⟨_, rfl⟩, ⟨_, rfl⟩, fun _ h => nomatch h⟩
  packets := rfl
  bytes := rfl
  layer := rfl

theorem ChannelSample.isRow (sample : ChannelSample) : IsRow (sample.toDict bucketStartIso)
    (sample.rxCalls + sample.txCalls) (sample.txBytes + sample.rxBytes) sample.layer.text where
  nodup := sample.nodup_toDict bucketStartIso
  fields := by
    rw [toDict_columns]
    decide +kernel
  integers := by
    simp only [integerFields, List.forall_mem_cons]
    exact ⟨⟨_, rfl⟩, ⟨_, rfl⟩, ⟨_, rfl⟩, ⟨_, rfl⟩, ⟨_, rfl⟩, fun _ h => nomatch h⟩
  packets := rfl
  bytes := rfl
  layer := rfl

/-! ### The verdict on a list of rows -/

/-- The counters and the layer of a row are ones the harness lets pass. -/
def PassesChecks (packets bytes : ℤ) (layer : Str) : Prop :=
  0 ≤ packets ∧ 0 ≤ bytes ∧ (layer = "ingress".toList ∨ layer = "delivered".toList)

theorem IsRow.validateRow_ok_iff {data : List (String × ColumnValue)} {packets bytes : ℤ}
    {layer : Str} (h : IsRow data packets bytes layer) (index : ℕ) :
    UdpAnalyzer.validateRow index (rowOf data) = .ok () ↔ PassesChecks packets bytes layer := by
  rw [h.validateRow, PassesChecks]
  split_ifs with hcounters hlayer
  · refine ⟨(nomatch ·), fun hpass => ?_⟩
    omega
  · exact ⟨fun _ => ⟨by omega, by omega, hlayer⟩, fun _ => rfl⟩
  · exact ⟨(nomatch ·), fun hpass => absurd hpass.2.2 hlayer⟩

section
variable {α : Type} {toDict : α → List (String × ColumnValue)} {packets bytes : α → ℤ}
  {layer : α → Str}

theorem validateRowsFrom_ok_iff
    (h : ∀ sample, IsRow (toDict sample) (packets sample) (bytes sample) (layer sample))
    (samples : List α) (index : ℕ) :
    validateRowsFrom index (samples.map fun sample => rowOf (toDict sample)) = .ok () ↔
      ∀ sample ∈ samples, PassesChecks (packets sample) (bytes sample) (layer sample) := by
  induction samples generalizing index with
  | nil => exact ⟨fun _ _ hmem => absurd hmem List.not_mem_nil, fun _ => rfl⟩
  | cons sample samples ih =>
    rw [List.map_cons, validateRowsFrom, List.forall_mem_cons, ← ih (index + 1),
      ← (h sample).validateRow_ok_iff index]
    constructor
    · intro heq
      obtain ⟨_, hfirst, hrest⟩ := bind_eq_ok heq
      exact ⟨hfirst, hrest⟩
    · rintro ⟨hfirst, hrest⟩
      rw [hfirst, ok_bind, hrest]

theorem validateRows_ok_iff
    (h : ∀ sample, IsRow (toDict sample) (packets sample) (bytes sample) (layer sample))
    (samples : List α) (allowEmpty : Bool) :
    validateRows (samples.map fun sample => rowOf (toDict sample)) allowEmpty = .ok () ↔
      (samples = [] → allowEmpty = true) ∧
        ∀ sample ∈ samples, PassesChecks (packets sample) (bytes sample) (layer sample) := by
  rw [validateRows, ← validateRowsFrom_ok_iff h samples 0]
  simp only [List.map_eq_nil_iff]
  split_ifs with hempty
  · refine ⟨(nomatch ·), fun hok => ?_⟩
    have hallow := hok.1 hempty.1
    rw [hempty.2] at hallow
    cases hallow
  · refine ⟨fun heq => ⟨fun hnil => ?_, heq⟩, fun hok => hok.2⟩
    exact eq_true_of_ne_false fun hfalse => hempty ⟨hnil, hfalse⟩

/-- What the script needs to accept a printed file. -/
theorem assertOutput_ok_iff (floatOf : List Char → JsonFloat) (profile : HarnessProfile)
    (allowEmpty : Bool) (samples : List α) (n : ℕ) :
    assertOutput floatOf profile allowEmpty (encodeUtf8 (printedLines (samples.map fun sample =>
      dumpsSorted (toDict sample)))) = .ok n ↔
      n = samples.length ∧
        validateRows (samples.map fun sample => rowOf (toDict sample)) allowEmpty = .ok () ∧
        validateProfile profile (samples.map fun sample => rowOf (toDict sample)) allowEmpty =
          .ok () := by
  rw [assertOutput, readRows_printedFile, ok_bind]
  constructor
  · intro h
    obtain ⟨_, hrows, h⟩ := bind_eq_ok h
    obtain ⟨_, hprofile, h⟩ := bind_eq_ok h
    cases h
    exact ⟨List.length_map _, hrows, hprofile⟩
  · rintro ⟨rfl, hrows, hprofile⟩
    rw [hrows, ok_bind, hprofile, ok_bind, List.length_map]
    rfl

theorem mapM_item_rowOf {column : String} {value : α → ColumnValue}
    (hnodup : ∀ sample, ((toDict sample).map Prod.fst).Nodup)
    (h : ∀ sample, (toDict sample).lookup column = some (value sample)) (samples : List α) :
    (samples.map fun sample => rowOf (toDict sample)).mapM (fun row => row.item column) =
      .ok (samples.map fun sample => (value sample).json) :=
  mapM_map_eq_ok (fun sample => item_rowOf (hnodup sample) (h sample)) samples

/-- The profile of the eBPF collector asks for a row of the ingress layer and for packets. -/
theorem validateEbpf_ok_iff
    (h : ∀ sample, IsRow (toDict sample) (packets sample) (bytes sample) (layer sample))
    (samples : List α) (allowEmpty : Bool) :
    validateEbpf (samples.map fun sample => rowOf (toDict sample)) allowEmpty = .ok () ↔
      (allowEmpty = true ∧ samples = []) ∨
        (∃ sample ∈ samples, layer sample = "ingress".toList) ∧
          ∃ sample ∈ samples, 0 < packets sample := by
  rw [validateEbpf]
  simp only [List.map_eq_nil_iff]
  split_ifs with hempty
  · exact ⟨fun _ => .inl hempty, fun _ => rfl⟩
  have hlayers := mapM_item_rowOf (fun sample => (h sample).nodup) (fun sample => (h sample).layer)
    samples
  have hpackets := mapM_item_rowOf (fun sample => (h sample).nodup)
    (fun sample => (h sample).packets) samples
  have hingress : (samples.map fun sample => (ColumnValue.text (layer sample)).json).any
      (Json.equalsText "ingress") = true ↔ ∃ sample ∈ samples, layer sample = "ingress".toList := by
    rw [List.any_map, List.any_eq_true]
    exact exists_congr fun sample => and_congr_right fun _ => decide_eq_true_iff
  have hpositive : ((samples.map fun sample => (ColumnValue.int (packets sample)).json).any
      fun packets => 0 < packets.integer) = true ↔ ∃ sample ∈ samples, 0 < packets sample := by
    rw [List.any_map, List.any_eq_true]
    exact exists_congr fun sample => and_congr_right fun _ => decide_eq_true_iff
  rw [hlayers, hpackets, raising, ok_bind, raising, ok_bind, or_iff_right hempty, ← hingress,
    ← hpositive]
  split_ifs with h₁ h₂
  · exact ⟨(nomatch ·), fun hboth => absurd (h₁.symm.trans hboth.1) Bool.false_ne_true⟩
  · exact ⟨(nomatch ·), fun hboth => absurd (h₂.symm.trans hboth.2) Bool.false_ne_true⟩
  · exact ⟨fun _ => ⟨eq_true_of_ne_false h₁, eq_true_of_ne_false h₂⟩, fun _ => rfl⟩

end

end UdpAnalyzer

import UdpAnalyzer.Models

/-! The table of samples (`writers.py`): its columns, the values of a row, and the integers the
two databases take. Both get the same text of a schema, in which `INTEGER` has 64 bits for
SQLite and 32 bits for DuckDB. -/

namespace UdpAnalyzer

inductive ColumnType where
  | integer | text
  deriving DecidableEq, Repr

/-- `SCHEMA_COLUMNS`. -/
def schemaColumns : List (String × ColumnType) :=
  [("bucket_start_ns", .integer), ("bucket_ms", .integer), ("ts", .text), ("src_ip", .text),
    ("dst_ip", .text), ("src_port", .integer), ("dst_port", .integer), ("ip_proto", .integer),
    ("ifindex", .integer), ("ifname", .text), ("netns_id", .integer), ("container_id", .text),
    ("process_name", .text), ("host_pid", .integer), ("container_pid", .integer),
    ("socket_id", .integer), ("packets", .integer), ("bytes", .integer), ("layer", .text)]

def columnType (column : String) : Option ColumnType := schemaColumns.lookup column

/-- `INSERT_COLUMNS`. -/
def insertColumns : List String :=
  ["bucket_start_ns", "bucket_ms", "ts", "src_ip", "dst_ip", "src_port", "dst_port", "ip_proto",
    "ifindex", "ifname", "netns_id", "container_id", "process_name", "host_pid", "container_pid",
    "socket_id", "packets", "bytes", "layer"]

inductive ColumnValue where
  | int (n : ℤ)
  | text (s : Str)
  deriving DecidableEq, Repr

def Layer.text : Layer → Str
  | .ingress => "ingress".toList
  | .delivered => "delivered".toList
  | .tcpChannel => "tcp_channel".toList
  | .udpChannel => "udp_channel".toList

inductive Backend where
  | sqlite | duckdb
  deriving DecidableEq, Repr

namespace Backend

/-- The bits of the type a database makes of `INTEGER`. -/
def integerBits : Backend → ℕ
  | sqlite => 64
  | duckdb => 32

/-- The integers of the type. -/
def Holds (b : Backend) (n : ℤ) : Prop := -2 ^ (b.integerBits - 1) ≤ n ∧ n < 2 ^ (b.integerBits - 1)

instance (b : Backend) (n : ℤ) : Decidable (b.Holds n) := inferInstanceAs (Decidable (_ ∧ _))

/-- Whether a value fits the type of a column. -/
def fits (b : Backend) : ColumnType → ColumnValue → Bool
  | .integer, .int n => b.Holds n
  | .text, .text _ => true
  | _, _ => false

def fitsColumn (b : Backend) (column : String) (value : ColumnValue) : Bool :=
  (columnType column).any fun type => b.fits type value

/-- What the driver raises for an integer that does not fit. -/
def overflow : Backend → PyExc
  | sqlite => .overflowError
  | duckdb => .other "ConversionException"

end Backend

-- the conversion of the time to text goes through floating point, and any text fits
variable (bucketStartIso : ℤ → Str)

/-- `UdpSample.to_dict`. -/
def UdpSample.toDict (sample : UdpSample) : List (String × ColumnValue) :=
  [("ts", .text (bucketStartIso sample.bucketStartNs)),
    ("bucket_start_ns", .int sample.bucketStartNs), ("bucket_ms", .int sample.bucketMs),
    ("src_ip", .text sample.srcIp), ("dst_ip", .text sample.dstIp),
    ("src_port", .int sample.srcPort), ("dst_port", .int sample.dstPort),
    ("ip_proto", .int sample.ipProto), ("ifindex", .int sample.ifindex),
    ("ifname", .text sample.ifname), ("netns_id", .int sample.netnsId),
    ("container_id", .text sample.containerId), ("process_name", .text sample.processName),
    ("host_pid", .int sample.hostPid), ("container_pid", .int sample.containerPid),
    ("socket_id", .int sample.socketId), ("packets", .int sample.packets),
    ("bytes", .int sample.bytes), ("layer", .text sample.layer.text)]

/-- `sample_values`. -/
def sampleValues (sample : UdpSample) : Except PyExc (List ColumnValue) :=
  insertColumns.mapM fun column =>
    match (sample.toDict bucketStartIso).lookup column with
    | some value => .ok value
    | none => .error .keyError

namespace Backend

/-- The insertion of a row. -/
def insertRow (b : Backend) (sample : UdpSample) : Except PyExc (List ColumnValue) := do
  let values ← sampleValues bucketStartIso sample
  if (insertColumns.zip values).all fun p => b.fitsColumn p.1 p.2 then return values
  else .error b.overflow

/-- The rows `write_samples` of the SQLite and the DuckDB writer inserts, and `flush` of the
Parquet writer, which has collected them and inserts them into a DuckDB table. -/
def writeSamples (b : Backend) (rows : List UdpSample) : Except PyExc (List (List ColumnValue)) :=
  if rows = [] then .ok [] else rows.mapM (b.insertRow bucketStartIso)

end Backend

/-- Every value of a sample fits the type of its column. -/
def Storable (b : Backend) (sample : UdpSample) : Prop :=
  ∃ values, sampleValues bucketStartIso sample = .ok values ∧
    ∀ p ∈ insertColumns.zip values, b.fitsColumn p.1 p.2 = true

/-! ### What is stored -/

/-- The integers of a row. -/
def UdpSample.integers (sample : UdpSample) : List ℤ :=
  [sample.bucketStartNs, sample.bucketMs, sample.srcPort, sample.dstPort, sample.ipProto,
    sample.ifindex, sample.netnsId, sample.hostPid, sample.containerPid, sample.socketId,
    sample.packets, sample.bytes]

theorem sampleValues_eq (sample : UdpSample) : sampleValues bucketStartIso sample =
    .ok [.int sample.bucketStartNs, .int sample.bucketMs,
      .text (bucketStartIso sample.bucketStartNs), .text sample.srcIp, .text sample.dstIp,
      .int sample.srcPort, .int sample.dstPort, .int sample.ipProto, .int sample.ifindex,
      .text sample.ifname, .int sample.netnsId, .text sample.containerId,
      .text sample.processName, .int sample.hostPid, .int sample.containerPid,
      .int sample.socketId, .int sample.packets, .int sample.bytes, .text sample.layer.text] := rfl

/-- The types of the columns a row is inserted into, in the order of its values. -/
theorem insertColumns_types : insertColumns.map columnType =
    [some .integer, some .integer, some .text, some .text, some .text, some .integer, some .integer,
      some .integer, some .integer, some .text, some .integer, some .text, some .text,
      some .integer, some .integer, some .integer, some .integer, some .integer, some .text] := by
  decide +kernel

/-- Only the integers of a sample may fail to fit. -/
theorem storable_iff (b : Backend) (sample : UdpSample) :
    Storable bucketStartIso b sample ↔ ∀ n ∈ sample.integers, b.Holds n := by
  have htyped : ∀ values : List ColumnValue,
      (∀ p ∈ insertColumns.zip values, b.fitsColumn p.1 p.2 = true) ↔
        ∀ p ∈ (insertColumns.map columnType).zip values,
          (p.1.any fun type => b.fits type p.2) = true := by
    intro values
    rw [List.zip_map_left, List.forall_mem_map]
    rfl
  unfold Storable
  rw [sampleValues_eq]
  simp only [Except.ok.injEq, exists_eq_left', htyped, insertColumns_types]
  simp [Backend.fits, UdpSample.integers]

theorem insertRow_returns_iff (b : Backend) (sample : UdpSample) :
    Returns (b.insertRow bucketStartIso sample) ↔ Storable bucketStartIso b sample := by
  unfold Backend.insertRow
  rw [returns_bind]
  constructor
  · rintro ⟨values, hvalues, hinserted⟩
    refine ⟨values, hvalues, ?_⟩
    split_ifs at hinserted with hall
    · exact List.all_eq_true.mp hall
    · obtain ⟨_, herror⟩ := hinserted
      cases herror
  · rintro ⟨values, hvalues, hall⟩
    refine ⟨values, hvalues, values, ?_⟩
    rw [if_pos (List.all_eq_true.mpr hall)]
    rfl

/-- A batch is inserted exactly when each of its samples can be stored. -/
theorem writeSamples_returns_iff (b : Backend) (rows : List UdpSample) :
    Returns (b.writeSamples bucketStartIso rows) ↔
      ∀ sample ∈ rows, Storable bucketStartIso b sample := by
  unfold Backend.writeSamples
  split_ifs with hempty
  · subst hempty
    exact ⟨fun _ sample hmem => absurd hmem List.not_mem_nil, fun _ => ⟨[], rfl⟩⟩
  · rw [returns_mapM]
    exact forall₂_congr fun sample _ => insertRow_returns_iff bucketStartIso b sample

end UdpAnalyzer

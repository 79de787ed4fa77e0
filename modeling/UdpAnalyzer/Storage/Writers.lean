import UdpAnalyzer.Lib.History
import UdpAnalyzer.Storage.Schema

/-! The local writers of samples (`writers.py`), over all the runs against one path. SQLite
appends every batch to its file and commits it. Parquet keeps the rows of the run in memory and
writes the whole file anew whenever it is flushed, so that the rows of a run before are gone. -/

namespace UdpAnalyzer

variable (bucketStartIso : ℤ → Str)

/-- The rows of a table, each with the values of its columns. -/
abbrev Table := List (List ColumnValue)

namespace Backend

/-- `executemany`: the rows are inserted up to the first that does not fit. -/
def executeMany (b : Backend) : List UdpSample → Except PyExc Unit × Table
  | [] => (.ok (), [])
  | row :: rows =>
    match b.insertRow bucketStartIso row with
    | .error e => (.error e, [])
    | .ok values => (executeMany b rows).map id (values :: ·)

end Backend

/-- `SampleWriter`, with what is found at the path. -/
structure LocalWriter where
  State : Type
  /-- `__init__`. -/
  init : Table → State
  writeSamples : List UdpSample → State → Except PyExc Unit × State
  flush : State → Except PyExc Unit × State
  close : State → Except PyExc Unit × State
  stored : State → Table

/-! ### SQLite -/

/-- The rows of the database, and the ones of the transaction that is open. -/
structure SqliteState where
  committed : Table
  pending : Table

namespace SqliteState

/-- `SQLiteWriter.write_samples`. -/
def writeSamples (rows : List UdpSample) (self : SqliteState) : Except PyExc Unit × SqliteState :=
  if rows = [] then (.ok (), self)
  else
    match Backend.sqlite.executeMany bucketStartIso rows with
    | (.error e, inserted) => (.error e, ⟨self.committed, self.pending ++ inserted⟩)
    | (.ok _, inserted) => (.ok (), ⟨self.committed ++ (self.pending ++ inserted), []⟩)

/-- `SQLiteWriter.flush`. -/
def flush (self : SqliteState) : Except PyExc Unit × SqliteState :=
  (.ok (), ⟨self.committed ++ self.pending, []⟩)

/-- `SQLiteWriter.close`, which rolls back what is not committed. -/
def close (self : SqliteState) : Except PyExc Unit × SqliteState :=
  (.ok (), ⟨self.committed, []⟩)

end SqliteState

/-- `SQLiteWriter`. -/
def sqliteWriter : LocalWriter where
  State := SqliteState
  init table := ⟨table, []⟩
  writeSamples := SqliteState.writeSamples bucketStartIso
  flush := SqliteState.flush
  close := SqliteState.close
  stored := SqliteState.committed

/-! ### Parquet -/

/-- The rows of the file, and the ones written since the writer was made. -/
structure ParquetState where
  file : Table
  rows : List UdpSample

namespace ParquetState

/-- `ParquetWriter.write_samples`. -/
def writeSamples (rows : List UdpSample) (self : ParquetState) : Except PyExc Unit × ParquetState :=
  (.ok (), ⟨self.file, self.rows ++ rows⟩)

/-- `ParquetWriter.flush`: the table is one in memory, and `COPY TO` replaces the file. -/
def flush (self : ParquetState) : Except PyExc Unit × ParquetState :=
  if self.rows = [] then (.ok (), self)
  else
    match Backend.duckdb.executeMany bucketStartIso self.rows with
    | (.error e, _) => (.error e, self)
    | (.ok _, inserted) => (.ok (), ⟨inserted, self.rows⟩)

end ParquetState

/-- `ParquetWriter`. -/
def parquetWriter : LocalWriter where
  State := ParquetState
  init table := ⟨table, []⟩
  writeSamples := ParquetState.writeSamples
  flush := ParquetState.flush bucketStartIso
  close := ParquetState.flush bucketStartIso
  stored := ParquetState.file

/-! ### Runs -/

inductive WriterCall where
  | writeSamples (rows : List UdpSample)
  | flush

/-- The rows a call writes. -/
def WriterCall.rows : WriterCall → List UdpSample
  | .writeSamples rows => rows
  | .flush => []

def rowsOfRun (calls : List WriterCall) : List UdpSample := calls.flatMap WriterCall.rows

namespace LocalWriter

section

variable (w : LocalWriter)

def call : WriterCall → w.State → Except PyExc Unit × w.State
  | .writeSamples rows => w.writeSamples rows
  | .flush => w.flush

/-- What follows a call that returned. -/
def andThen (next : w.State → Except PyExc Unit × w.State) :
    Except PyExc Unit × w.State → Except PyExc Unit × w.State
  | (.error e, self) => (.error e, self)
  | (.ok _, self) => next self

/-- The calls of a run, up to the first that raises. -/
def calls : List WriterCall → w.State → Except PyExc Unit × w.State
  | [], self => (.ok (), self)
  | c :: rest, self => w.andThen (calls rest) (w.call c self)

/-- A run with the writer: `finally`, however the calls ended, it is flushed, and closed unless
that raised. -/
def run (table : Table) (calls : List WriterCall) : Table :=
  w.stored (w.andThen w.close (w.flush (w.calls calls (w.init table)).2)).2

/-- What is found at the path after runs, the first of which found nothing there. -/
def runs (runs : List (List WriterCall)) : Table := runs.foldl w.run []

end

/-- The store holds the rows written in all the runs, in order, each once. -/
def KeepsHistory (w : LocalWriter) (runs : List (List WriterCall)) : Prop :=
  (runs.flatMap rowsOfRun).mapM (sampleValues bucketStartIso) = .ok (w.runs runs)

end LocalWriter

/-! ### The rows that are inserted -/

/-- The values of a row, in the order of the columns. -/
def UdpSample.columnValues (sample : UdpSample) : List ColumnValue :=
  insertColumns.filterMap fun column => (sample.toDict bucketStartIso).lookup column

theorem sampleValues_eq_columnValues (sample : UdpSample) :
    sampleValues bucketStartIso sample = .ok (sample.columnValues bucketStartIso) := rfl

theorem mapM_sampleValues (rows : List UdpSample) : rows.mapM (sampleValues bucketStartIso) =
    .ok (rows.map (UdpSample.columnValues bucketStartIso)) := by
  have h := mapM_map_eq_ok (sampleValues_eq_columnValues bucketStartIso) rows
  rwa [List.map_id'] at h

/-- Every value fits the type of its column. -/
def Backend.Fits (b : Backend) (values : List ColumnValue) : Prop :=
  ∀ p ∈ insertColumns.zip values, b.fitsColumn p.1 p.2 = true

theorem storable_iff_fits (b : Backend) (sample : UdpSample) :
    Storable bucketStartIso b sample ↔ b.Fits (sample.columnValues bucketStartIso) := by
  constructor
  · rintro ⟨values, hvalues, hfits⟩
    rw [sampleValues_eq_columnValues] at hvalues
    cases hvalues
    exact hfits
  · exact fun hfits => ⟨_, sampleValues_eq_columnValues bucketStartIso sample, hfits⟩

theorem insertRow_eq_ok_iff {b : Backend} {sample : UdpSample} {values : List ColumnValue} :
    b.insertRow bucketStartIso sample = .ok values ↔
      b.Fits values ∧ values = sample.columnValues bucketStartIso := by
  unfold Backend.insertRow
  rw [sampleValues_eq_columnValues, ok_bind]
  split_ifs with hall
  · have hfits := List.all_eq_true.mp hall
    constructor
    · intro h
      cases h
      exact ⟨hfits, rfl⟩
    · rintro ⟨_, rfl⟩
      rfl
  · constructor
    · intro h
      cases h
    · rintro ⟨hfits, rfl⟩
      exact absurd (List.all_eq_true.mpr hfits) hall

theorem executeMany_of_storable {b : Backend} {rows : List UdpSample}
    (h : ∀ row ∈ rows, Storable bucketStartIso b row) : b.executeMany bucketStartIso rows =
      (.ok (), rows.map (UdpSample.columnValues bucketStartIso)) := by
  induction rows with
  | nil => rfl
  | cons row rest ih =>
    obtain ⟨hrow, hrest⟩ := List.forall_mem_cons.mp h
    have hinserted := (insertRow_eq_ok_iff bucketStartIso).mpr
      ⟨(storable_iff_fits bucketStartIso b row).mp hrow, rfl⟩
    rw [Backend.executeMany, hinserted, ih hrest]
    rfl

/-- Whatever is inserted fits, also before a row that does not. -/
theorem executeMany_fits (b : Backend) (rows : List UdpSample) :
    ∀ values ∈ (b.executeMany bucketStartIso rows).2, b.Fits values := by
  induction rows with
  | nil => exact fun values hmem => absurd hmem List.not_mem_nil
  | cons row rest ih =>
    rw [Backend.executeMany]
    cases h : b.insertRow bucketStartIso row with
    | error e => exact fun values hmem => absurd hmem List.not_mem_nil
    | ok inserted =>
      exact List.forall_mem_cons.mpr ⟨((insertRow_eq_ok_iff bucketStartIso).mp h).1, ih⟩

/-! ### What the stores keep -/

namespace LocalWriter

variable {bucketStartIso} {w : LocalWriter}

theorem keepsHistory_iff {runs : List (List WriterCall)} :
    w.KeepsHistory bucketStartIso runs ↔
      (runs.flatMap rowsOfRun).map (UdpSample.columnValues bucketStartIso) = w.runs runs := by
  unfold KeepsHistory
  rw [mapM_sampleValues, Except.ok.injEq]

theorem calls_cons_of_ok {c : WriterCall} {rest : List WriterCall} {self next : w.State}
    (h : w.call c self = (.ok (), next)) : w.calls (c :: rest) self = w.calls rest next := by
  rw [calls, h, andThen]

/-- A run nothing raises in. -/
theorem run_of_ok {calls : List WriterCall} {table : Table} {written flushed closed : w.State}
    (hcalls : w.calls calls (w.init table) = (.ok (), written))
    (hflush : w.flush written = (.ok (), flushed)) (hclose : w.close flushed = (.ok (), closed)) :
    w.run table calls = w.stored closed := by
  rw [run, hcalls, hflush, andThen, hclose]

/-- A property of tables that the writer keeps, by one of its states that every method keeps. -/
structure Keeps (w : LocalWriter) (inv : w.State → Prop) (good : Table → Prop) : Prop where
  init : ∀ table, good table → inv (w.init table)
  write : ∀ rows self, inv self → inv (w.writeSamples rows self).2
  flush : ∀ self, inv self → inv (w.flush self).2
  close : ∀ self, inv self → inv (w.close self).2
  stored : ∀ self, inv self → good (w.stored self)

variable {inv : w.State → Prop} {good : Table → Prop}

theorem andThen_invariant {next : w.State → Except PyExc Unit × w.State}
    (hnext : ∀ self, inv self → inv (next self).2) {p : Except PyExc Unit × w.State}
    (h : inv p.2) : inv (w.andThen next p).2 := by
  obtain ⟨outcome, self⟩ := p
  cases outcome with
  | error e => exact h
  | ok _ => exact hnext self h

theorem Keeps.calls (h : w.Keeps inv good) (calls : List WriterCall) (self : w.State)
    (hself : inv self) : inv (w.calls calls self).2 := by
  induction calls generalizing self with
  | nil => exact hself
  | cons c rest ih =>
    refine andThen_invariant ih ?_
    cases c with
    | writeSamples rows => exact h.write rows self hself
    | flush => exact h.flush self hself

/-- What every method keeps holds of the store after every run. -/
theorem Keeps.runs (h : w.Keeps inv good) (hempty : good []) (runs : List (List WriterCall)) :
    good (w.runs runs) := by
  have hrun : ∀ calls table, good table → good (w.run table calls) := by
    intro calls table htable
    have hcalls := h.calls calls _ (h.init table htable)
    exact h.stored _ (andThen_invariant h.close (h.flush _ hcalls))
  have hall : ∀ table, good table → good (runs.foldl w.run table) := by
    induction runs with
    | nil => exact fun table htable => htable
    | cons calls rest ih => exact fun table htable => ih _ (hrun calls table htable)
  exact hall [] hempty

/-- A store that holds only what fits keeps the history only of rows that can be stored. -/
theorem KeepsHistory.storable {b : Backend} {runs : List (List WriterCall)}
    (hkeeps : w.KeepsHistory bucketStartIso runs) (hfits : ∀ values ∈ w.runs runs, b.Fits values) :
    ∀ row ∈ runs.flatMap rowsOfRun, Storable bucketStartIso b row := by
  intro row hrow
  rw [storable_iff_fits]
  refine hfits _ ?_
  rw [← keepsHistory_iff.mp hkeeps]
  exact List.mem_map_of_mem hrow

end LocalWriter

/-- Every row of the table fits its columns. -/
def Backend.FitsAll (b : Backend) (table : Table) : Prop := ∀ values ∈ table, b.Fits values

theorem Backend.FitsAll.append {b : Backend} {table more : Table} (h : b.FitsAll table)
    (hmore : b.FitsAll more) : b.FitsAll (table ++ more) :=
  List.forall_mem_append.mpr ⟨h, hmore⟩

theorem Backend.fitsAll_nil (b : Backend) : b.FitsAll [] :=
  fun _ hmem => absurd hmem List.not_mem_nil

theorem sqliteWriter_keeps : (sqliteWriter bucketStartIso).Keeps
    (fun self : SqliteState =>
      Backend.sqlite.FitsAll self.committed ∧ Backend.sqlite.FitsAll self.pending)
    Backend.sqlite.FitsAll where
  init _ htable := ⟨htable, Backend.fitsAll_nil _⟩
  write rows self h := by
    have hinserted := executeMany_fits bucketStartIso .sqlite rows
    show _ ∧ _
    dsimp only [sqliteWriter, SqliteState.writeSamples]
    split_ifs with hempty
    · exact h
    · revert hinserted
      rcases Backend.sqlite.executeMany bucketStartIso rows with ⟨outcome, inserted⟩
      intro hinserted
      cases outcome with
      | error e => exact ⟨h.1, h.2.append hinserted⟩
      | ok _ => exact ⟨h.1.append (h.2.append hinserted), Backend.fitsAll_nil _⟩
  flush _ h := ⟨h.1.append h.2, Backend.fitsAll_nil _⟩
  close _ h := ⟨h.1, Backend.fitsAll_nil _⟩
  stored _ h := h.1

theorem parquetState_flush_fitsAll (self : ParquetState) (h : Backend.duckdb.FitsAll self.file) :
    Backend.duckdb.FitsAll (self.flush bucketStartIso).2.file := by
  have hinserted := executeMany_fits bucketStartIso .duckdb self.rows
  unfold ParquetState.flush
  split_ifs with hempty
  · exact h
  · revert hinserted
    rcases Backend.duckdb.executeMany bucketStartIso self.rows with ⟨outcome, inserted⟩
    intro hinserted
    cases outcome with
    | error e => exact h
    | ok _ => exact hinserted

theorem parquetWriter_keeps : (parquetWriter bucketStartIso).Keeps
    (fun self : ParquetState => Backend.duckdb.FitsAll self.file) Backend.duckdb.FitsAll where
  init _ htable := htable
  write _ _ h := h
  flush := parquetState_flush_fitsAll bucketStartIso
  close := parquetState_flush_fitsAll bucketStartIso
  stored _ h := h

/-! ### Rows that fit -/

theorem SqliteState.writeSamples_of_storable {rows : List UdpSample}
    (h : ∀ row ∈ rows, Storable bucketStartIso .sqlite row) (table : Table) :
    SqliteState.writeSamples bucketStartIso rows ⟨table, []⟩ =
      (.ok (), ⟨table ++ rows.map (UdpSample.columnValues bucketStartIso), []⟩) := by
  unfold SqliteState.writeSamples
  rw [executeMany_of_storable bucketStartIso h]
  split_ifs with hempty
  · rw [hempty, List.map_nil, List.append_nil]
  · rfl

theorem ParquetState.flush_of_storable {rows : List UdpSample}
    (h : ∀ row ∈ rows, Storable bucketStartIso .duckdb row) (file : Table) :
    ParquetState.flush bucketStartIso ⟨file, rows⟩ =
      (.ok (), ⟨replaceRun file (rows.map (UdpSample.columnValues bucketStartIso)), rows⟩) := by
  unfold ParquetState.flush
  dsimp only
  rw [executeMany_of_storable bucketStartIso h]
  split_ifs with hempty
  · rw [hempty, List.map_nil, replaceRun_nil]
  · rw [replaceRun_of_ne_nil (List.map_eq_nil_iff.not.mpr hempty)]

/-- A run of SQLite in which every row fits: each batch is there once it is written. -/
theorem sqliteWriter_calls {calls : List WriterCall}
    (h : ∀ row ∈ rowsOfRun calls, Storable bucketStartIso .sqlite row) (table : Table) :
    (sqliteWriter bucketStartIso).calls calls (⟨table, []⟩ : SqliteState) =
      (.ok (), (⟨table ++ (rowsOfRun calls).map (UdpSample.columnValues bucketStartIso), []⟩ :
        SqliteState)) := by
  induction calls generalizing table with
  | nil =>
    rw [rowsOfRun, List.flatMap_nil, List.map_nil, List.append_nil]
    rfl
  | cons c rest ih =>
    rw [rowsOfRun, List.flatMap_cons, List.forall_mem_append] at h
    have hcall : (sqliteWriter bucketStartIso).call c (⟨table, []⟩ : SqliteState) =
        (.ok (), (⟨table ++ c.rows.map (UdpSample.columnValues bucketStartIso), []⟩ :
          SqliteState)) := by
      cases c with
      | flush => rfl
      | writeSamples rows => exact SqliteState.writeSamples_of_storable bucketStartIso h.1 table
    refine (LocalWriter.calls_cons_of_ok hcall).trans ?_
    rw [ih h.2, rowsOfRun, rowsOfRun, List.flatMap_cons, List.map_append, List.append_assoc]

theorem sqliteWriter_run {calls : List WriterCall}
    (h : ∀ row ∈ rowsOfRun calls, Storable bucketStartIso .sqlite row) (table : Table) :
    (sqliteWriter bucketStartIso).run table calls =
      appendRun table ((rowsOfRun calls).map (UdpSample.columnValues bucketStartIso)) := by
  exact (LocalWriter.run_of_ok (sqliteWriter_calls bucketStartIso h table) rfl rfl).trans
    (List.append_nil _)

/-- A run of Parquet in which every row fits: the rows are kept, and the file is the one found
at least as long as there are none. -/
theorem parquetWriter_calls {calls : List WriterCall} {rows : List UdpSample}
    (h : ∀ row ∈ rows ++ rowsOfRun calls, Storable bucketStartIso .duckdb row) (file : Table) :
    ∃ file', (parquetWriter bucketStartIso).calls calls (⟨file, rows⟩ : ParquetState) =
        (.ok (), (⟨file', rows ++ rowsOfRun calls⟩ : ParquetState)) ∧
      (rows ++ rowsOfRun calls = [] → file' = file) := by
  induction calls generalizing file rows with
  | nil =>
    rw [rowsOfRun, List.flatMap_nil, List.append_nil]
    exact ⟨file, rfl, fun _ => rfl⟩
  | cons c rest ih =>
    have hrows : rows ++ rowsOfRun (c :: rest) = (rows ++ c.rows) ++ rowsOfRun rest := by
      rw [rowsOfRun, List.flatMap_cons, List.append_assoc, rowsOfRun]
    rw [hrows] at h ⊢
    cases c with
    | writeSamples written => exact ih h file
    | flush =>
      rw [WriterCall.rows, List.append_nil] at h ⊢
      have hflush : (parquetWriter bucketStartIso).call .flush (⟨file, rows⟩ : ParquetState) = _ :=
        ParquetState.flush_of_storable bucketStartIso
          (fun row hrow => h row (List.mem_append_left _ hrow)) file
      obtain ⟨file', hcalls, hfile⟩ := ih h (replaceRun file
        (rows.map (UdpSample.columnValues bucketStartIso)))
      refine ⟨file', (LocalWriter.calls_cons_of_ok hflush).trans hcalls, ?_⟩
      intro hempty
      rw [hfile hempty, (List.append_eq_nil_iff.mp hempty).1, List.map_nil, replaceRun_nil]

theorem parquetWriter_run {calls : List WriterCall}
    (h : ∀ row ∈ rowsOfRun calls, Storable bucketStartIso .duckdb row) (table : Table) :
    (parquetWriter bucketStartIso).run table calls =
      replaceRun table ((rowsOfRun calls).map (UdpSample.columnValues bucketStartIso)) := by
  obtain ⟨file, hcalls, hfile⟩ : ∃ file, (parquetWriter bucketStartIso).calls calls
        (⟨table, []⟩ : ParquetState) = (.ok (), (⟨file, rowsOfRun calls⟩ : ParquetState)) ∧
      (rowsOfRun calls = [] → file = table) := parquetWriter_calls bucketStartIso h table
  have hflush := ParquetState.flush_of_storable bucketStartIso h
  refine (LocalWriter.run_of_ok hcalls (hflush _) (hflush _)).trans ?_
  show replaceRun (replaceRun file _) _ = _
  rw [replaceRun_replaceRun]
  by_cases hempty : rowsOfRun calls = []
  · rw [hempty, List.map_nil, replaceRun_nil, replaceRun_nil, hfile hempty]
  · have hne : (rowsOfRun calls).map (UdpSample.columnValues bucketStartIso) ≠ [] :=
      fun h => hempty (List.map_eq_nil_iff.mp h)
    rw [replaceRun_of_ne_nil hne, replaceRun_of_ne_nil hne]

/-! ### The history -/

/-- The values that runs wrote, one list for each run. -/
def valuesOfRuns (runs : List (List WriterCall)) : List Table :=
  runs.map fun calls => (rowsOfRun calls).map (UdpSample.columnValues bucketStartIso)

/-- The table after runs each of which does to it what `step` does with its rows. -/
theorem LocalWriter.runs_eq_foldl {w : LocalWriter} {b : Backend} {step : Table → Table → Table}
    (hrun : ∀ {calls}, (∀ row ∈ rowsOfRun calls, Storable bucketStartIso b row) → ∀ table,
      w.run table calls = step table ((rowsOfRun calls).map (UdpSample.columnValues bucketStartIso)))
    {runs : List (List WriterCall)}
    (h : ∀ row ∈ runs.flatMap rowsOfRun, Storable bucketStartIso b row) :
    w.runs runs = (valuesOfRuns bucketStartIso runs).foldl step [] := by
  have hall : ∀ table,
      runs.foldl w.run table = (valuesOfRuns bucketStartIso runs).foldl step table := by
    induction runs with
    | nil => exact fun table => rfl
    | cons calls rest ih =>
      rw [List.flatMap_cons, List.forall_mem_append] at h
      intro table
      rw [List.foldl_cons, valuesOfRuns, List.map_cons, List.foldl_cons, hrun h.1, ih h.2,
        valuesOfRuns]
  exact hall []

/-- The runs that write rows. -/
def runsWithRows (runs : List (List WriterCall)) : List (List WriterCall) :=
  runs.filter fun calls => rowsOfRun calls ≠ []

theorem flatten_valuesOfRuns (runs : List (List WriterCall)) :
    (valuesOfRuns bucketStartIso runs).flatten =
      (runs.flatMap rowsOfRun).map (UdpSample.columnValues bucketStartIso) := by
  rw [List.map_flatMap, valuesOfRuns, ← List.flatMap_def]

theorem length_filter_valuesOfRuns (runs : List (List WriterCall)) :
    ((valuesOfRuns bucketStartIso runs).filter (· ≠ [])).length = (runsWithRows runs).length := by
  rw [valuesOfRuns, List.filter_map, List.length_map, runsWithRows]
  simp [Function.comp_def]

/-- SQLite keeps what fits its columns; Parquet, of what fits its own, all there is only when at
most one of the runs writes rows. -/
theorem local_history_kept_iff (runs : List (List WriterCall)) :
    ((sqliteWriter bucketStartIso).KeepsHistory bucketStartIso runs ↔
      ∀ row ∈ runs.flatMap rowsOfRun, Storable bucketStartIso .sqlite row) ∧
    ((parquetWriter bucketStartIso).KeepsHistory bucketStartIso runs ↔
      (∀ row ∈ runs.flatMap rowsOfRun, Storable bucketStartIso .duckdb row) ∧
        (runsWithRows runs).length ≤ 1) := by
  have hsqlite := (sqliteWriter_keeps bucketStartIso).runs (Backend.fitsAll_nil _) runs
  have hparquet := (parquetWriter_keeps bucketStartIso).runs (Backend.fitsAll_nil _) runs
  have hparquet_runs : (∀ row ∈ runs.flatMap rowsOfRun, Storable bucketStartIso .duckdb row) →
      ((parquetWriter bucketStartIso).KeepsHistory bucketStartIso runs ↔
        (runsWithRows runs).length ≤ 1) := by
    intro h
    rw [LocalWriter.keepsHistory_iff, ← flatten_valuesOfRuns, ← length_filter_valuesOfRuns
      bucketStartIso, LocalWriter.runs_eq_foldl bucketStartIso (parquetWriter_run bucketStartIso) h]
    exact flatten_eq_foldl_replaceRun_iff _
  constructor
  · constructor
    · exact fun hkeeps => hkeeps.storable hsqlite
    · intro h
      rw [LocalWriter.keepsHistory_iff, ← flatten_valuesOfRuns,
        LocalWriter.runs_eq_foldl bucketStartIso (sqliteWriter_run bucketStartIso) h]
      exact (foldl_appendRun _ []).symm
  · constructor
    · intro hkeeps
      have hstorable := hkeeps.storable hparquet
      exact ⟨hstorable, (hparquet_runs hstorable).mp hkeeps⟩
    · exact fun h => (hparquet_runs h.1).mpr h.2

/-! ### A capture in two runs -/

/-- The sample of the tests of the writers. -/
def capturedSample : UdpSample where
  bucketStartNs := 1000000000
  bucketMs := 1000
  srcIp := "192.0.2.10".toList
  dstIp := "198.51.100.20".toList
  srcPort := 40000
  dstPort := 5000
  ifindex := 2
  ifname := "eth0".toList
  packets := 10
  bytes := 13160

def capturedIso : ℤ → Str := fun _ => "1970-01-01T00:00:01.000Z".toList

/-- The run that writes the sample. -/
def captureRun : List WriterCall := [.writeSamples [capturedSample]]

/-- After a second run the file has one row of two. -/
theorem second_run_loses_rows : (parquetWriter capturedIso).runs [captureRun, captureRun] =
      [capturedSample.columnValues capturedIso] ∧
    ¬ (parquetWriter capturedIso).KeepsHistory capturedIso [captureRun, captureRun] := by
  have hruns : (parquetWriter capturedIso).runs [captureRun, captureRun] =
      [capturedSample.columnValues capturedIso] := by decide +kernel
  refine ⟨hruns, fun hkeeps => ?_⟩
  have hrows := congrArg List.length (LocalWriter.keepsHistory_iff.mp hkeeps)
  rw [hruns, List.length_map] at hrows
  revert hrows
  decide

end UdpAnalyzer

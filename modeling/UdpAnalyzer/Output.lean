import UdpAnalyzer.DryRun
import UdpAnalyzer.Lib.Columns
import UdpAnalyzer.Storage.Schema

/-! The table the rows are printed in (`output.py`). It is one table for any kind of sample, with
one choice of columns for the whole list. The columns of channels are chosen when a row is of
TCP, so that the rows of UDP channels are printed without their channel, unit and host. -/

namespace UdpAnalyzer

/-- `TABLE_COLUMNS`. -/
def tableColumns : List String :=
  ["ts", "layer", "src_ip", "src_port", "dst_ip", "dst_port", "ifname", "process_name", "host_pid",
    "packets", "bytes"]

/-- `CHANNEL_TABLE_COLUMNS`. -/
def channelTableColumns : List String :=
  ["ts", "layer", "channel", "unit", "host", "dst_ip", "dst_port", "tx_bytes", "rx_bytes",
    "connections", "status"]

/-- `str` of an integer. -/
def intText : ℤ → Str
  | .ofNat n => decimal n
  | .negSucc n => '-' :: decimal (n + 1)

/-- `str` of a value. -/
def ColumnValue.str : ColumnValue → Str
  | .int n => intText n
  | .text s => s

/-- `str(data.get(column, ""))`. -/
def cell (data : List (String × ColumnValue)) (column : String) : Str :=
  ((data.lookup column).map ColumnValue.str).getD []

/-- `max(len(column), *(len(row[index]) for row in rows))` for each of the columns. -/
def tableWidths (columns : List String) (rows : List (List Str)) : List ℕ :=
  columns.zipIdx.map fun column =>
    (rows.map fun row => (row.getD column.2 []).length).foldl max column.1.toList.length

section Table

variable {α : Type} (toDict : α → List (String × ColumnValue))

/-- `_table_columns`. -/
def tableColumnsOf : List α → List String
  | [] => tableColumns
  | sample :: samples =>
    if (toDict sample).lookup "layer" = some (.text "tcp_channel".toList) then channelTableColumns
    else tableColumnsOf samples

/-- The cells of a sample in the columns of a list of samples. -/
def tableRow (columns : List String) (sample : α) : List Str :=
  columns.map (cell (toDict sample))

/-- The line of dashes. -/
def ruleLine (widths : List ℕ) : Str :=
  [' ', ' '].intercalate (widths.map fun width => List.replicate width '-')

/-- `_emit_table`: what is printed. -/
def emitTable (samples : List α) : Str :=
  if samples.isEmpty then printedLines ["(no samples)".toList]
  else
    let columns := tableColumnsOf toDict samples
    let rows := samples.map (tableRow toDict columns)
    let widths := tableWidths columns rows
    printedLines (tableLine widths (columns.map String.toList) :: ruleLine widths ::
      rows.map (tableLine widths))

/-- Unbroken lines that are a table of samples: a header whose words are the names of the columns,
a rule, and one line for each sample, the cells of all at the starts of the columns. -/
structure TableOf (samples : List α) (columns : List String) (widths : List ℕ) (header rule : Str)
    (lines : List Str) : Prop where
  unbroken : ∀ line ∈ header :: rule :: lines, '\n' ∉ line
  names : words header = columns.map String.toList
  header : CellsAt (columnStarts widths) (columns.map String.toList) header
  dashes : ∀ c ∈ rule, c = '-' ∨ c = ' '
  rule : CellsAt (columnStarts widths) (widths.map fun width => List.replicate width '-') rule
  rows : List.Forall₂ (fun sample => CellsAt (columnStarts widths) (tableRow toDict columns sample))
    samples lines

end Table

/-! ### Channels -/

-- as for the samples that are stored, the conversion of the time goes through floating point
variable (bucketStartIso : ℤ → Str)

def MatchStatus.text : MatchStatus → Str
  | .unknownUnit => "unknown_unit".toList
  | .unexpectedFlow => "unexpected_flow".toList
  | .matched => "matched".toList

namespace ChannelSample

/-- `ChannelTcpSample.to_dict` and `ChannelUdpSample.to_dict`. -/
def toDict (sample : ChannelSample) : List (String × ColumnValue) :=
  [("ts", .text (bucketStartIso sample.bucketStartNs)),
    ("bucket_start_ns", .int sample.bucketStartNs), ("bucket_ms", .int sample.bucketMs),
    ("layer", .text sample.layer.text), ("channel", .text sample.channel),
    ("unit", .text sample.unit), ("url", .text sample.url), ("host", .text sample.host),
    ("src_ip", .text sample.srcIp), ("dst_ip", .text sample.dstIp),
    ("src_port", .int sample.srcPort), ("dst_port", .int sample.dstPort),
    ("ip_proto", .int sample.ipProto), ("ifindex", .int sample.ifindex),
    ("ifname", .text sample.ifname), ("host_pid", .int sample.hostPid),
    ("socket_id", .int sample.socketId), ("cgroup_id", .int sample.cgroupId),
    ("tx_bytes", .int sample.txBytes), ("rx_bytes", .int sample.rxBytes),
    ("tx_calls", .int sample.txCalls), ("rx_calls", .int sample.rxCalls),
    ("connections", .int sample.connections), ("status", .text sample.status.text),
    ("tcp_state", .int sample.state), ("bytes", .int (sample.txBytes + sample.rxBytes)),
    ("packets", .int (sample.rxCalls + sample.txCalls))]

/-- What a channel table is about: the fields of a row, by name, as they are printed. -/
def shown (sample : ChannelSample) : List (String × Str) :=
  [("channel", sample.channel), ("unit", sample.unit), ("host", sample.host),
    ("tx_bytes", intText sample.txBytes), ("rx_bytes", intText sample.rxBytes),
    ("status", sample.status.text)]

/-- The texts of a row in the columns of channels, apart from the fixed ones. -/
def texts (sample : ChannelSample) : List Str :=
  [bucketStartIso sample.bucketStartNs, sample.channel, sample.unit, sample.host, sample.dstIp]

end ChannelSample

/-- What is printed is a table of the samples, and each line of it has the fields of its sample
in the columns of their names. -/
def ShowsChannels (samples : List ChannelSample) (printed : Str) : Prop :=
  ∃ columns widths header rule lines, printed = printedLines (header :: rule :: lines) ∧
    TableOf (ChannelSample.toDict bucketStartIso) samples columns widths header rule lines ∧
    List.Forall₂ (fun sample line => ∀ field ∈ sample.shown, ∃ i start : ℕ,
      columns[i]? = some field.1 ∧ (columnStarts widths)[i]? = some start ∧
        field.2 <+: line.drop start) samples lines

/-! ### The columns -/

theorem le_foldl_max (ns : List ℕ) (n : ℕ) :
    n ≤ ns.foldl max n ∧ ∀ m ∈ ns, m ≤ ns.foldl max n := by
  induction ns generalizing n with
  | nil => exact ⟨le_rfl, fun m hmem => absurd hmem List.not_mem_nil⟩
  | cons first rest ih =>
    obtain ⟨hle, hall⟩ := ih (max n first)
    rw [List.foldl_cons]
    refine ⟨(le_max_left _ _).trans hle, List.forall_mem_cons.mpr ⟨?_, hall⟩⟩
    exact (le_max_right _ _).trans hle

theorem length_tableWidths (columns : List String) (rows : List (List Str)) :
    (tableWidths columns rows).length = columns.length := by
  rw [tableWidths, List.length_map, List.length_zipIdx]

theorem getElem_tableWidths (columns : List String) (rows : List (List Str)) (i : ℕ)
    (h : i < (tableWidths columns rows).length) (hi : i < columns.length) :
    (tableWidths columns rows)[i] =
      (rows.map fun row => (row.getD i []).length).foldl max columns[i].toList.length := by
  simp [tableWidths]

theorem fitColumns_header (columns : List String) (rows : List (List Str)) :
    FitColumns (tableWidths columns rows) (columns.map String.toList) := by
  refine List.forall₂_iff_get.mpr ⟨by rw [length_tableWidths, List.length_map], ?_⟩
  intro i hwidth hcell
  rw [List.get_eq_getElem, List.get_eq_getElem, List.getElem_map,
    getElem_tableWidths columns rows i hwidth (by rwa [List.length_map] at hcell)]
  exact (le_foldl_max _ _).1

theorem fitColumns_row {columns : List String} {rows : List (List Str)} {row : List Str}
    (hmem : row ∈ rows) (hlength : row.length = columns.length) :
    FitColumns (tableWidths columns rows) row := by
  refine List.forall₂_iff_get.mpr ⟨by rw [length_tableWidths, hlength], ?_⟩
  intro i hwidth hcell
  rw [List.get_eq_getElem, List.get_eq_getElem,
    getElem_tableWidths columns rows i hwidth (hlength ▸ hcell)]
  refine (le_foldl_max _ _).2 _ (List.mem_map.mpr ⟨row, hmem, ?_⟩)
  rw [List.getD_eq_getElem?_getD, List.getElem?_eq_getElem hcell, Option.getD_some]

/-- The rule is the line of cells of dashes, which are as wide as their columns. -/
theorem ruleLine_eq (widths : List ℕ) :
    ruleLine widths = tableLine widths (widths.map fun width => List.replicate width '-') := by
  rw [ruleLine, tableLine]
  congr 1
  induction widths with
  | nil => rfl
  | cons width widths ih =>
    rw [List.map_cons, List.zipWith_cons_cons, ← ih, padRight, List.length_replicate, Nat.sub_self,
      List.replicate_zero, List.append_nil]

theorem fitColumns_rule (widths : List ℕ) :
    FitColumns widths (widths.map fun width => List.replicate width '-') := by
  rw [FitColumns, List.forall₂_map_right_iff]
  exact List.forall₂_same.mpr fun width _ => (List.length_replicate (n := width)).le

theorem mem_ruleLine {widths : List ℕ} {c : Char} (h : c ∈ ruleLine widths) : c = '-' ∨ c = ' ' := by
  by_cases hblank : c = ' '
  · exact Or.inr hblank
  · rw [ruleLine_eq, mem_tableLine hblank (by rw [List.length_map])] at h
    obtain ⟨dashes, hdashes, hc⟩ := h
    obtain ⟨width, -, rfl⟩ := List.mem_map.mp hdashes
    exact Or.inl (List.eq_of_mem_replicate hc)

section Table

variable {α : Type} {toDict : α → List (String × ColumnValue)}

/-- A row of TCP channels. -/
abbrev IsTcpRow (toDict : α → List (String × ColumnValue)) (sample : α) : Prop :=
  (toDict sample).lookup "layer" = some (.text "tcp_channel".toList)

variable (toDict)

/-- The columns are the ones of channels exactly when there is a row of TCP. -/
theorem tableColumnsOf_eq (samples : List α) :
    (∃ sample ∈ samples, IsTcpRow toDict sample) ∧
        tableColumnsOf toDict samples = channelTableColumns ∨
      (¬ ∃ sample ∈ samples, IsTcpRow toDict sample) ∧
        tableColumnsOf toDict samples = tableColumns := by
  induction samples with
  | nil => exact Or.inr ⟨fun ⟨_, hmem, _⟩ => List.not_mem_nil hmem, rfl⟩
  | cons sample samples ih =>
    have hcons : (∃ s ∈ sample :: samples, IsTcpRow toDict s) ↔
        IsTcpRow toDict sample ∨ ∃ s ∈ samples, IsTcpRow toDict s := by simp
    rw [hcons, tableColumnsOf]
    split_ifs with htcp
    · exact Or.inl ⟨Or.inl htcp, rfl⟩
    · simpa only [htcp, false_or] using ih

/-- The names of the columns are words. -/
theorem tableColumnsOf_words (samples : List α) :
    ∀ name ∈ (tableColumnsOf toDict samples).map String.toList, IsWord name := by
  have hnames : ∀ column ∈ tableColumns ++ channelTableColumns, column.toList ≠ [] ∧
      column.toList.all (fun c => isSpace c = false) = true := by decide +kernel
  refine List.forall_mem_map.mpr fun column hmem => ?_
  have hmem : column ∈ tableColumns ++ channelTableColumns := by
    rcases tableColumnsOf_eq toDict samples with ⟨-, heq⟩ | ⟨-, heq⟩
    · exact List.mem_append_right _ (heq ▸ hmem)
    · exact List.mem_append_left _ (heq ▸ hmem)
  exact isWord_of_all (hnames column hmem).1 (hnames column hmem).2

/-- The widths of the columns of a table of samples. -/
def samplesWidths (samples : List α) : List ℕ :=
  tableWidths (tableColumnsOf toDict samples)
    (samples.map (tableRow toDict (tableColumnsOf toDict samples)))

def headerLine (samples : List α) : Str :=
  tableLine (samplesWidths toDict samples) ((tableColumnsOf toDict samples).map String.toList)

def sampleLine (samples : List α) (sample : α) : Str :=
  tableLine (samplesWidths toDict samples) (tableRow toDict (tableColumnsOf toDict samples) sample)

variable {toDict}

theorem emitTable_eq {samples : List α} (hne : samples ≠ []) : emitTable toDict samples =
    printedLines (headerLine toDict samples :: ruleLine (samplesWidths toDict samples) ::
      samples.map (sampleLine toDict samples)) := by
  unfold emitTable
  rw [if_neg (by rwa [List.isEmpty_iff])]
  dsimp only
  rw [List.map_map]
  rfl

/-- The table depends on the cells of the columns that are chosen alone. -/
theorem emitTable_congr {samples samples' : List α}
    (hcolumns : tableColumnsOf toDict samples = tableColumnsOf toDict samples')
    (hrows : samples.map (tableRow toDict (tableColumnsOf toDict samples)) =
      samples'.map (tableRow toDict (tableColumnsOf toDict samples))) :
    emitTable toDict samples = emitTable toDict samples' := by
  have hempty : samples.isEmpty = samples'.isEmpty := by
    rw [← List.isEmpty_map, hrows, List.isEmpty_map]
  unfold emitTable
  rw [hempty, ← hcolumns]
  dsimp only
  rw [hrows]

theorem length_samplesWidths (samples : List α) :
    (samplesWidths toDict samples).length = (tableColumnsOf toDict samples).length :=
  length_tableWidths _ _

theorem headerLine_unbroken (samples : List α) : '\n' ∉ headerLine toDict samples := by
  intro hmem
  rw [headerLine, mem_tableLine (by decide) (by rw [length_samplesWidths, List.length_map])] at hmem
  obtain ⟨name, hname, hbreak⟩ := hmem
  have hspace := (tableColumnsOf_words toDict samples name hname).plain _ hbreak
  exact absurd hspace (by decide)

theorem words_headerLine (samples : List α) :
    words (headerLine toDict samples) = (tableColumnsOf toDict samples).map String.toList :=
  words_tableLine (tableColumnsOf_words toDict samples) (by rw [length_samplesWidths, List.length_map])

theorem ruleLine_unbroken (widths : List ℕ) : '\n' ∉ ruleLine widths := by
  intro hmem
  rcases mem_ruleLine hmem with h | h <;> exact absurd h (by decide)

theorem mem_sampleLine {samples : List α} {sample : α} :
    '\n' ∈ sampleLine toDict samples sample ↔
      ∃ text ∈ tableRow toDict (tableColumnsOf toDict samples) sample, '\n' ∈ text :=
  mem_tableLine (by decide) (by rw [length_samplesWidths, tableRow, List.length_map])

/-- The lines of a list of samples without line feeds are a table of them. -/
theorem emitTable_tableOf {samples : List α}
    (hplain : ∀ sample ∈ samples, ∀ text ∈ tableRow toDict (tableColumnsOf toDict samples) sample,
      '\n' ∉ text) :
    TableOf toDict samples (tableColumnsOf toDict samples) (samplesWidths toDict samples)
      (headerLine toDict samples) (ruleLine (samplesWidths toDict samples))
      (samples.map (sampleLine toDict samples)) where
  unbroken := by
    refine List.forall_mem_cons.mpr ⟨headerLine_unbroken samples, List.forall_mem_cons.mpr
      ⟨ruleLine_unbroken _, List.forall_mem_map.mpr fun sample hsample hbreak => ?_⟩⟩
    obtain ⟨text, htext, hbreak⟩ := mem_sampleLine.mp hbreak
    exact hplain sample hsample text htext hbreak
  names := words_headerLine samples
  header := cellsAt_tableLine (fitColumns_header _ _)
  dashes _ hmem := mem_ruleLine hmem
  rule := by
    rw [ruleLine_eq]
    exact cellsAt_tableLine (fitColumns_rule _)
  rows := by
    rw [List.forall₂_map_right_iff]
    refine List.forall₂_same.mpr fun sample hmem => ?_
    exact cellsAt_tableLine (fitColumns_row (List.mem_map_of_mem hmem)
      (by rw [tableRow, List.length_map]))

/-- Whatever table the text is of the samples, its columns are theirs, and no cell breaks it. -/
theorem tableOf_emitTable {samples : List α} {columns : List String} {widths : List ℕ}
    {header rule : Str} {lines : List Str} (hne : samples ≠ [])
    (hprinted : emitTable toDict samples = printedLines (header :: rule :: lines))
    (h : TableOf toDict samples columns widths header rule lines) :
    columns = tableColumnsOf toDict samples ∧ ∀ sample ∈ samples,
      ∀ text ∈ tableRow toDict (tableColumnsOf toDict samples) sample, '\n' ∉ text := by
  rw [emitTable_eq hne] at hprinted
  have hlength : samples.length = lines.length := h.rows.length_eq
  have hlines := printedLines_eq_of_length h.unbroken (by simpa using hlength) hprinted
  obtain ⟨hheader, hrest⟩ := List.cons.inj hlines
  obtain ⟨-, hrows⟩ := List.cons.inj hrest
  constructor
  · have hnames := h.names
    rw [← hheader, words_headerLine] at hnames
    exact (List.map_injective_iff.mpr (fun _ _ h => String.toList_injective h) hnames).symm
  · intro sample hsample text htext hbreak
    have hline : sampleLine toDict samples sample ∈ lines :=
      hrows ▸ List.mem_map_of_mem hsample
    exact h.unbroken _ (List.mem_cons_of_mem _ (List.mem_cons_of_mem _ hline))
      (mem_sampleLine.mpr ⟨text, htext, hbreak⟩)

end Table

/-! ### Rows of channels -/

theorem isTcpRow_iff (sample : ChannelSample) :
    IsTcpRow (ChannelSample.toDict bucketStartIso) sample ↔ sample.layer = .tcpChannel := by
  have hlookup : (sample.toDict bucketStartIso).lookup "layer" = some (.text sample.layer.text) := rfl
  rw [IsTcpRow, hlookup, Option.some.injEq, ColumnValue.text.injEq]
  cases sample.layer <;> decide

theorem tableRow_channel (sample : ChannelSample) :
    tableRow (ChannelSample.toDict bucketStartIso) channelTableColumns sample =
      [bucketStartIso sample.bucketStartNs, sample.layer.text, sample.channel, sample.unit,
        sample.host, sample.dstIp, intText sample.dstPort, intText sample.txBytes,
        intText sample.rxBytes, intText sample.connections, sample.status.text] := rfl

theorem tableRow_plain (sample : ChannelSample) :
    tableRow (ChannelSample.toDict bucketStartIso) tableColumns sample =
      [bucketStartIso sample.bucketStartNs, sample.layer.text, sample.srcIp, intText sample.srcPort,
        sample.dstIp, intText sample.dstPort, sample.ifname, [], intText sample.hostPid,
        intText (sample.rxCalls + sample.txCalls), intText (sample.txBytes + sample.rxBytes)] := rfl

theorem intText_unbroken (n : ℤ) : '\n' ∉ intText n := by
  have hdecimal : ∀ k, '\n' ∉ decimal k := by
    intro k hmem
    exact absurd (Nat.isDigit_of_mem_toDigits (by decide) (by decide) hmem) (by decide)
  cases n with
  | ofNat k => exact hdecimal k
  | negSucc k => exact List.not_mem_cons_of_ne_of_not_mem (by decide) (hdecimal (k + 1))

/-- Only the texts of a row may have a line feed. -/
theorem tableRow_unbroken_iff (sample : ChannelSample) :
    (∀ text ∈ tableRow (ChannelSample.toDict bucketStartIso) channelTableColumns sample,
      '\n' ∉ text) ↔ ∀ text ∈ sample.texts bucketStartIso, '\n' ∉ text := by
  have hlayer : '\n' ∉ sample.layer.text := by
    cases sample.layer <;> decide
  have hstatus : '\n' ∉ sample.status.text := by
    cases sample.status <;> decide
  rw [tableRow_channel]
  simp [ChannelSample.texts, hlayer, hstatus, intText_unbroken]

/-- What is shown of a row is in the columns of channels. -/
theorem shown_columns (sample : ChannelSample) : ∀ field ∈ sample.shown, ∃ i : ℕ,
    channelTableColumns[i]? = some field.1 ∧
      (tableRow (ChannelSample.toDict bucketStartIso) channelTableColumns sample)[i]? =
        some field.2 := by
  rw [tableRow_channel]
  unfold ChannelSample.shown
  simp only [List.forall_mem_cons]
  exact ⟨⟨2, rfl, rfl⟩, ⟨3, rfl, rfl⟩, ⟨4, rfl, rfl⟩, ⟨7, rfl, rfl⟩, ⟨8, rfl, rfl⟩, ⟨10, rfl, rfl⟩,
    fun _ hmem => absurd hmem List.not_mem_nil⟩

variable {bucketStartIso} in
/-- What is shown of a row is printed. -/
theorem ShowsChannels.infix_printed {samples : List ChannelSample} {printed : Str}
    (h : ShowsChannels bucketStartIso samples printed) :
    ∀ sample ∈ samples, ∀ field ∈ sample.shown, field.2 <:+: printed := by
  obtain ⟨columns, widths, header, rule, lines, rfl, -, hshown⟩ := h
  intro sample hsample field hfield
  obtain ⟨line, hline, hfields⟩ := exists_of_forall₂ hshown hsample
  obtain ⟨i, start, -, -, hprefix⟩ := hfields field hfield
  have hinfix : field.2 <:+: line := hprefix.isInfix.trans (List.drop_suffix _ _).isInfix
  exact hinfix.trans (infix_printedLines (List.mem_cons_of_mem _ (List.mem_cons_of_mem _ hline)))

/-- A table of rows shows their channels exactly when there is a row of TCP, which is when the
columns of channels are chosen, and no text of a row has a line feed. -/
theorem channel_table_shows_iff (samples : List ChannelSample) :
    ShowsChannels bucketStartIso samples
        (emitTable (ChannelSample.toDict bucketStartIso) samples) ↔
      (∃ sample ∈ samples, sample.layer = .tcpChannel) ∧
        ∀ sample ∈ samples, ∀ text ∈ sample.texts bucketStartIso, '\n' ∉ text := by
  have htcp : (∃ sample ∈ samples, IsTcpRow (ChannelSample.toDict bucketStartIso) sample) ↔
      ∃ sample ∈ samples, sample.layer = .tcpChannel := by
    simp only [isTcpRow_iff]
  have hcolumns := tableColumnsOf_eq (ChannelSample.toDict bucketStartIso) samples
  rw [htcp] at hcolumns
  constructor
  · rintro ⟨columns, widths, header, rule, lines, hprinted, htable, hshown⟩
    obtain ⟨sample, hsample⟩ : ∃ sample, sample ∈ samples := by
      refine List.exists_mem_of_ne_nil samples fun hempty => ?_
      -- without rows one line is printed, which is no table
      subst hempty
      have hcount := (count_printedLines_iff _).mpr htable.unbroken
      rw [← hprinted] at hcount
      exact absurd hcount (Nat.ne_of_lt (Nat.succ_lt_succ (Nat.succ_pos _)))
    have hne := List.ne_nil_of_mem hsample
    obtain ⟨rfl, hplain⟩ := tableOf_emitTable hne hprinted htable
    rcases hcolumns with ⟨hexists, heq⟩ | ⟨-, heq⟩
    · rw [heq] at hplain
      exact ⟨hexists, fun sample hsample =>
        (tableRow_unbroken_iff bucketStartIso sample).mp (hplain sample hsample)⟩
    · obtain ⟨line, -, hfields⟩ := exists_of_forall₂ hshown hsample
      obtain ⟨i, start, hchannel, -, -⟩ := hfields ("channel", sample.channel) List.mem_cons_self
      rw [heq] at hchannel
      have hchannel : "channel" ∈ tableColumns := List.mem_of_getElem? hchannel
      exact absurd hchannel (by decide)
  · rintro ⟨hexists, hplain⟩
    obtain ⟨-, heq⟩ : _ ∧ tableColumnsOf _ samples = channelTableColumns :=
      hcolumns.resolve_right fun h => h.1 hexists
    have hne : samples ≠ [] := List.ne_nil_of_mem hexists.choose_spec.1
    have hunbroken : ∀ sample ∈ samples, ∀ text ∈ tableRow (ChannelSample.toDict bucketStartIso)
        (tableColumnsOf (ChannelSample.toDict bucketStartIso) samples) sample, '\n' ∉ text := by
      rw [heq]
      exact fun sample hsample =>
        (tableRow_unbroken_iff bucketStartIso sample).mpr (hplain sample hsample)
    have htable := emitTable_tableOf hunbroken
    refine ⟨_, _, _, _, _, emitTable_eq hne, htable, ?_⟩
    have hrows := htable.rows
    rw [heq] at hrows ⊢
    refine hrows.imp fun sample line hcells field hfield => ?_
    obtain ⟨i, hcolumn, hcell⟩ := shown_columns bucketStartIso sample field hfield
    obtain ⟨start, hstart, hprefix⟩ := hcells.exists_start hcell
    exact ⟨i, start, hcolumn, hstart, hprefix⟩

theorem tableColumnsOf_plain {samples : List ChannelSample}
    (hudp : ∀ sample ∈ samples, sample.layer ≠ .tcpChannel) :
    tableColumnsOf (ChannelSample.toDict bucketStartIso) samples = tableColumns := by
  rcases tableColumnsOf_eq (ChannelSample.toDict bucketStartIso) samples with
    ⟨⟨sample, hmem, htcp⟩, -⟩ | ⟨-, heq⟩
  · exact absurd ((isTcpRow_iff bucketStartIso sample).mp htcp) (hudp sample hmem)
  · exact heq

theorem emitTable_plain_congr {samples samples' : List ChannelSample}
    (hudp : ∀ sample ∈ samples, sample.layer ≠ .tcpChannel)
    (hudp' : ∀ sample ∈ samples', sample.layer ≠ .tcpChannel)
    (hrows : samples.map (tableRow (ChannelSample.toDict bucketStartIso) tableColumns) =
      samples'.map (tableRow (ChannelSample.toDict bucketStartIso) tableColumns)) :
    emitTable (ChannelSample.toDict bucketStartIso) samples =
      emitTable (ChannelSample.toDict bucketStartIso) samples' := by
  have hcolumns := tableColumnsOf_plain bucketStartIso hudp
  have hcolumns' := tableColumnsOf_plain bucketStartIso hudp'
  exact emitTable_congr (hcolumns.trans hcolumns'.symm) (by rwa [hcolumns])

/-- The table of rows of which none is of TCP is the same whatever their channels, units, hosts
and verdicts are, and however their bytes are divided. -/
theorem emitTable_anonymous {samples : List ChannelSample}
    (hudp : ∀ sample ∈ samples, sample.layer ≠ .tcpChannel) (channel unit host : ChannelSample → Str)
    (status : ChannelSample → MatchStatus) (moved : ChannelSample → ℤ) :
    emitTable (ChannelSample.toDict bucketStartIso) (samples.map fun sample =>
        { sample with
          channel := channel sample, unit := unit sample, host := host sample
          status := status sample, txBytes := sample.txBytes + moved sample
          rxBytes := sample.rxBytes - moved sample }) =
      emitTable (ChannelSample.toDict bucketStartIso) samples := by
  refine emitTable_plain_congr bucketStartIso (List.forall_mem_map.mpr hudp) hudp ?_
  rw [List.map_map]
  refine List.map_congr_left fun sample _ => ?_
  rw [Function.comp_apply, tableRow_plain, tableRow_plain]
  dsimp only
  rw [sub_eq_add_neg, add_add_add_comm, add_neg_cancel, add_zero]

/-! ### The rows of the demonstration -/

/-- The collector after its first checkpoint, of a catalogue without targets. -/
def demoCollector : ChannelDryRunCollector where
  catalog := .ofTargets []
  bucketMs := 1000

def demoRow : ChannelSample :=
  UdpChannelDryRunCollector.row { demoCollector with tick := 1 } 1700000003000000000
    UdpChannelDryRunCollector.demoTarget

def demoIso : ℤ → Str := fun _ => "2023-11-14T22:13:23.000Z".toList

/-- The channel and the unit of the row of the demonstration are nowhere in its table. -/
theorem udp_table_hides_channel :
    (UdpChannelDryRunCollector.readCheckpoint demoCollector 1700000003000000000).1 =
        .ok [demoRow] ∧
      ¬ ShowsChannels demoIso [demoRow] (emitTable (ChannelSample.toDict demoIso) [demoRow]) ∧
      ¬ demoRow.channel <:+: emitTable (ChannelSample.toDict demoIso) [demoRow] ∧
      ¬ demoRow.unit <:+: emitTable (ChannelSample.toDict demoIso) [demoRow] := by
  have hchannel : ¬ demoRow.channel <:+: emitTable (ChannelSample.toDict demoIso) [demoRow] := by
    decide +kernel
  refine ⟨by decide +kernel, fun hshows => hchannel ?_, hchannel, by decide +kernel⟩
  exact hshows.infix_printed demoRow List.mem_cons_self ("channel", demoRow.channel)
    List.mem_cons_self

end UdpAnalyzer

import UdpAnalyzer.Ingress.Receivers

/-! The `udp` table with anything in the columns the program does not read: any words, printed
with any widths, further columns after the inode, and blanks at the end of a line. -/

namespace UdpAnalyzer

/-- A word, and the width it is printed with. -/
structure OtherColumn where
  text : Str
  width : ℕ := 0
  word : IsWord text := by exact isWord_of_all (by decide) (by decide)

def OtherColumn.column (c : OtherColumn) : ℕ × Str := (c.width, c.text)

/-- The line of a socket, its addresses as they are stored, in network byte order. -/
structure InetLine where
  slot : OtherColumn
  localAddr : BitVec 32
  localPort : BitVec 16
  localWidth : ℕ := 0
  remoteAddr : BitVec 32
  remotePort : BitVec 16
  remoteWidth : ℕ := 0
  state : OtherColumn
  queues : OtherColumn
  timer : OtherColumn
  retransmits : OtherColumn
  uid : OtherColumn
  timeout : OtherColumn
  inode : ℕ
  inodeWidth : ℕ := 0
  further : List OtherColumn := []
  blanks : ℕ := 0

namespace InetLine

def columns (l : InetLine) : List (ℕ × Str) :=
  [l.slot.column, (l.localWidth, inetEndpoint l.localAddr l.localPort),
    (l.remoteWidth, inetEndpoint l.remoteAddr l.remotePort), l.state.column, l.queues.column,
    l.timer.column, l.retransmits.column, l.uid.column, l.timeout.column,
    (l.inodeWidth, decimal l.inode)] ++ l.further.map OtherColumn.column

def text (l : InetLine) : Str := printColumns l.columns ++ List.replicate l.blanks ' '

def row (l : InetLine) : UdpSocketRow where
  localIp := dotted l.localAddr
  localPort := l.localPort.toNat
  remoteIp := dotted l.remoteAddr
  remotePort := l.remotePort.toNat
  socketInode := l.inode

theorem isWord_columns (l : InetLine) : ∀ column ∈ l.columns, IsWord column.2 := by
  intro column hcolumn
  rcases List.mem_append.mp hcolumn with hread | hfurther
  · simp only [List.mem_cons, List.not_mem_nil, or_false] at hread
    rcases hread with rfl | rfl | rfl | rfl | rfl | rfl | rfl | rfl | rfl | rfl
    · exact l.slot.word
    · exact isWord_inetEndpoint _ _
    · exact isWord_inetEndpoint _ _
    · exact l.state.word
    · exact l.queues.word
    · exact l.timer.word
    · exact l.retransmits.word
    · exact l.uid.word
    · exact l.timeout.word
    · exact isWord_decimal l.inode
  · obtain ⟨c, -, rfl⟩ := List.mem_map.mp hfurther
    exact c.word

theorem parse_text (l : InetLine) : parseProcNetLine l.text = .ok [l.row] := by
  have hinode : intOfText 10 (decimal l.inode) = .ok (l.inode : ℤ) := by
    rw [intOfText, decimal, parseInt_toDigits]
  unfold parseProcNetLine text printColumns
  rw [words_columnLine l.isWord_columns]
  simp only [columns, List.cons_append, List.map_cons, parseProcAddress_inet, hinode, ok_bind]
  rfl

theorem text_unbroken (l : InetLine) : ∀ c ∈ l.text, isLineBreak c = false :=
  columnLine_unbroken l.isWord_columns l.blanks

end InetLine

/-- A table: the header and the lines of the sockets. -/
structure InetTable where
  header : Str
  lines : List InetLine
  unbroken : ∀ c ∈ header, isLineBreak c = false

def InetTable.text (table : InetTable) : Str :=
  (table.header :: table.lines.map InetLine.text).flatMap fun line => line ++ ['\n']

/-- Every table is read as its sockets, in order, and an address of it is the text that the BPF
decoder gives for a word exactly when it is the address of that word. -/
theorem parseProcNetUdp_inetLines (table : InetTable) :
    parseProcNetUdp table.text = .ok (table.lines.map InetLine.row) ∧
      ∀ line ∈ table.lines, ∀ addr : BitVec 32,
        (ipv4FromBpfInt addr.toNat = .ok line.row.localIp ↔ addr = line.localAddr) ∧
        (ipv4FromBpfInt addr.toNat = .ok line.row.remoteIp ↔ addr = line.remoteAddr) := by
  refine ⟨parseProcNetUdp_lines ?_ (forall₂_lines InetLine.parse_text table.lines),
    fun line _ addr => ?_⟩
  · rw [List.forall_mem_cons]
    refine ⟨table.unbroken, fun line hline => ?_⟩
    obtain ⟨l, -, rfl⟩ := List.mem_map.mp hline
    exact l.text_unbroken
  · rw [ipv4FromBpfInt_toNat, Except.ok.injEq, Except.ok.injEq]
    exact ⟨dotted_injective.eq_iff, dotted_injective.eq_iff⟩

/-! ### The table of the kernel -/

/-- A socket as a line of the kernel. -/
def InetSocket.inetLine (s : InetSocket) : InetLine where
  slot := ⟨decimal s.columns.bucket ++ [':'], 6,
    (isWord_decimal _).append (isWord_of_all (by decide) (by decide))⟩
  localAddr := s.localAddr
  localPort := s.localPort
  remoteAddr := s.remoteAddr
  remotePort := s.remotePort
  state := ⟨upperHex 2 s.columns.state.toNat, 0, isWord_upperHex (by decide) _⟩
  queues := ⟨upperHex 8 s.columns.txQueue.toNat ++ ':' :: upperHex 8 s.columns.rxQueue.toNat, 0,
    (isWord_upperHex (by decide) _).colon (isWord_upperHex (by decide) _)⟩
  timer := ⟨upperHex 2 0 ++ ':' :: upperHex 8 0, 0,
    (isWord_upperHex (by decide) _).colon (isWord_upperHex (by decide) _)⟩
  retransmits := ⟨upperHex 8 0, 0, isWord_upperHex (by decide) _⟩
  uid := ⟨decimal s.columns.uid.toNat, 5, isWord_decimal _⟩
  timeout := ⟨decimal 0, 8, isWord_decimal _⟩
  inode := s.columns.inode.toNat
  further := [⟨decimal s.columns.refs, 0, isWord_decimal _⟩,
    ⟨s.columns.pointer, 0, s.columns.pointer_word⟩,
    ⟨decimal s.columns.drops.toNat, 0, isWord_decimal _⟩]
  blanks := 127 - (printColumns (s.columns.line (inetEndpoint s.localAddr s.localPort)
    (inetEndpoint s.remoteAddr s.remotePort))).length

/-- The `udp` table of the kernel is such a table. -/
theorem inetTable_eq_text (sockets : List InetSocket) : inetTable sockets =
    InetTable.text ⟨padRight 127 inetHeader, sockets.map InetSocket.inetLine,
      forall_mem_of_all (by decide +kernel)⟩ := by
  unfold inetTable InetTable.text
  rw [List.flatMap_cons, List.flatMap_cons, List.flatMap_map, List.flatMap_map, List.flatMap_map]
  rfl

end UdpAnalyzer

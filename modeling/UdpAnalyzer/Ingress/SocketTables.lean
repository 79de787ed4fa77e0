import UdpAnalyzer.Ingress.Inventory
import UdpAnalyzer.Lib.Printf

/-! The socket tables of a network namespace, `udp` and `udp6`, as the kernel prints them on a
little-endian machine, and what the program reads back. An address is printed in words of 32
bits, each the number its four bytes in memory stand for. -/

namespace UdpAnalyzer

/-! ### What the kernel prints -/

/-- The columns that do not depend on the address family. How the address of the socket in
memory is printed is a matter of settings. -/
structure SocketColumns where
  bucket : ℕ
  state : BitVec 8 := 7
  txQueue : BitVec 32 := 0
  rxQueue : BitVec 32 := 0
  uid : BitVec 32 := 0
  inode : BitVec 64
  refs : ℕ := 2
  pointer : Str := ['0']
  drops : BitVec 32 := 0
  pointer_word : IsWord pointer := by exact isWord_of_all (by decide) (by decide)

/-- A UDP socket over IPv4; addresses as they are stored, in network byte order. -/
structure InetSocket where
  localAddr : BitVec 32
  localPort : BitVec 16
  remoteAddr : BitVec 32
  remotePort : BitVec 16
  columns : SocketColumns

/-- The four words of an IPv6 address. -/
structure In6Addr where
  word0 : BitVec 32
  word1 : BitVec 32
  word2 : BitVec 32
  word3 : BitVec 32
  deriving DecidableEq, Repr

/-- A UDP socket over IPv6. -/
structure Inet6Socket where
  localAddr : In6Addr
  localPort : BitVec 16
  remoteAddr : In6Addr
  remotePort : BitVec 16
  columns : SocketColumns

/-- `%08X:%04X`. -/
def inetEndpoint (addr : BitVec 32) (port : BitVec 16) : Str :=
  upperHex 8 addr.toNat ++ ':' :: upperHex 4 port.toNat

/-- The digits of an IPv6 address. -/
def In6Addr.digits (a : In6Addr) : Str :=
  upperHex 8 a.word0.toNat ++ upperHex 8 a.word1.toNat ++ upperHex 8 a.word2.toNat ++
    upperHex 8 a.word3.toNat

/-- `%08X%08X%08X%08X:%04X`. -/
def inet6Endpoint (addr : In6Addr) (port : BitVec 16) : Str :=
  addr.digits ++ ':' :: upperHex 4 port.toNat

/-- The columns of a line with their widths:
`%5d: %s %s %02X %08X:%08X %02X:%08lX %08X %5u %8d %lu %d %pK %u`. -/
def SocketColumns.line (c : SocketColumns) (local_ remote : Str) : List (ℕ × Str) :=
  [(6, decimal c.bucket ++ [':']), (0, local_), (0, remote), (0, upperHex 2 c.state.toNat),
    (0, upperHex 8 c.txQueue.toNat ++ ':' :: upperHex 8 c.rxQueue.toNat),
    (0, upperHex 2 0 ++ ':' :: upperHex 8 0), (0, upperHex 8 0), (5, decimal c.uid.toNat),
    (8, decimal 0), (0, decimal c.inode.toNat), (0, decimal c.refs),
    (0, c.pointer), (0, decimal c.drops.toNat)]

def printColumns (columns : List (ℕ × Str)) : Str :=
  columnLine (columns.map fun c => padLeft c.1 c.2)

def inetHeader : Str :=
  ("   sl  local_address rem_address   st tx_queue rx_queue tr tm->when retrnsmt   uid" ++
    "  timeout inode ref pointer drops").toList

/-- The `udp` table; its lines are filled up to 127 characters. -/
def inetTable (sockets : List InetSocket) : Str :=
  (inetHeader :: sockets.map fun s => printColumns (s.columns.line
    (inetEndpoint s.localAddr s.localPort) (inetEndpoint s.remoteAddr s.remotePort))).flatMap
      fun line => padRight 127 line ++ ['\n']

def inet6Header : Str :=
  ("  sl  local_address                         remote_address                        st" ++
    " tx_queue rx_queue tr tm->when retrnsmt   uid  timeout inode ref pointer drops").toList

/-- The `udp6` table. -/
def inet6Table (sockets : List Inet6Socket) : Str :=
  (inet6Header :: sockets.map fun s => printColumns (s.columns.line
    (inet6Endpoint s.localAddr s.localPort) (inet6Endpoint s.remoteAddr s.remotePort))).flatMap
      fun line => line ++ ['\n']

/-! ### What the program reads -/

/-- The four bytes of a word from the lowest on, dotted. -/
def dotted (addr : BitVec 32) : Str :=
  let word := addr.toNat
  decimal (word % 256) ++ '.' :: decimal (word / 256 % 256) ++
    '.' :: decimal (word / 65536 % 256) ++ '.' :: decimal (word / 16777216 % 256)

/-- The four words, printed with colons between them. -/
def In6Addr.text (a : In6Addr) : Str :=
  upperHex 8 a.word0.toNat ++ ':' :: upperHex 8 a.word1.toNat ++ ':' :: upperHex 8 a.word2.toNat ++
    ':' :: upperHex 8 a.word3.toNat

def InetSocket.row (s : InetSocket) : UdpSocketRow where
  localIp := dotted s.localAddr
  localPort := s.localPort.toNat
  remoteIp := dotted s.remoteAddr
  remotePort := s.remotePort.toNat
  socketInode := s.columns.inode.toNat

def Inet6Socket.row (s : Inet6Socket) : UdpSocketRow where
  localIp := s.localAddr.text
  localPort := s.localPort.toNat
  remoteIp := s.remoteAddr.text
  remotePort := s.remotePort.toNat
  socketInode := s.columns.inode.toNat

example : parseProcNetUdp (inetTable
    [⟨0x0100007F, 5000, 0, 0, { bucket := 7, uid := 1000, inode := 869157 }⟩]) =
      .ok [⟨"127.0.0.1".toList, 5000, "0.0.0.0".toList, 0, 869157⟩] := by decide +kernel

/-- The BPF decoder reads an address the same way. -/
theorem ipv4FromBpfInt_toNat (addr : BitVec 32) : ipv4FromBpfInt addr.toNat = .ok (dotted addr) := by
  have hlt := addr.isLt
  rw [ipv4FromBpfInt, if_pos (by omega)]
  rfl

theorem colon_not_mem_digits {base : ℕ} {s : Str} (h : AllDigits base s) : ':' ∉ s := by
  intro hc
  obtain ⟨d, -, hd⟩ := h ':' hc
  cases hd

/-- An endpoint is its address and its port. -/
theorem parseProcAddress_endpoint {ip : Str} (hip : ':' ∉ ip) (port : BitVec 16) :
    parseProcAddress (ip ++ ':' :: upperHex 4 port.toNat) =
      if ip.length = 8 then (bytesOfHex ip).map fun bytes =>
        (joined ['.'] (bytes.reverse.map decimal), (port.toNat : ℤ))
      else if ip.length = 32 then .ok (joined [':'] (chunks 8 4 ip), (port.toNat : ℤ))
      else .ok (ip, (port.toNat : ℤ)) := by
  have hplain : ∀ c ∈ ip, (decide (c ≠ ':')) = true := fun c hc =>
    decide_eq_true fun he => hip (he ▸ hc)
  have hafter : afterFirst ':' (ip ++ ':' :: upperHex 4 port.toNat) =
      some (upperHex 4 port.toNat) := afterFirst_append_cons hip _
  have htake : (ip ++ ':' :: upperHex 4 port.toNat).takeWhile (· ≠ ':') = ip := by
    rw [List.takeWhile_append_of_pos hplain, List.takeWhile_cons_of_neg (by decide), List.append_nil]
  have hport : intOfText 16 (upperHex 4 port.toNat) = .ok (port.toNat : ℤ) := by
    rw [intOfText, parseInt_upperHex (by decide) port.isLt]
  unfold parseProcAddress
  rw [hafter]
  dsimp only
  rw [htake, hport, ok_bind]
  split_ifs
  · cases bytesOfHex ip <;> rfl
  · rfl
  · rfl

theorem bytesOfHex_upperDigits {a b : ℕ} (ha : a < 16) (hb : b < 16) (rest : Str) :
    bytesOfHex (upperDigit a :: upperDigit b :: rest) =
      (bytesOfHex rest).map fun bytes => (16 * a + b) :: bytes := by
  rw [bytesOfHex, digitValue_upperDigit a ha, digitValue_upperDigit b hb]
  simp only [Option.filter_some, ha, hb, decide_true, if_true]
  cases bytesOfHex rest <;> rfl

/-- The bytes of a printed word, the highest first. -/
theorem bytesOfHex_upperHex (n : ℕ) : bytesOfHex (upperHex 8 n) =
    .ok [n / 16777216 % 256, n / 65536 % 256, n / 256 % 256, n % 256] := by
  have hdigit : ∀ k, n / 16 ^ k % 16 < 16 := fun k => Nat.mod_lt _ (by decide)
  simp only [upperHex]
  rw [bytesOfHex_upperDigits (hdigit 7) (hdigit 6), bytesOfHex_upperDigits (hdigit 5) (hdigit 4),
    bytesOfHex_upperDigits (hdigit 3) (hdigit 2), bytesOfHex_upperDigits (hdigit 1) (hdigit 0)]
  show Except.ok _ = _
  congr 1
  simp only [Nat.reducePow, List.cons.injEq, and_true, Nat.div_one]
  omega

theorem parseProcAddress_inet (addr : BitVec 32) (port : BitVec 16) :
    parseProcAddress (inetEndpoint addr port) = .ok (dotted addr, (port.toNat : ℤ)) := by
  rw [inetEndpoint, parseProcAddress_endpoint (colon_not_mem_digits (allDigits_upperHex _ _)),
    if_pos (length_upperHex _ _), bytesOfHex_upperHex]
  simp [Except.map, joined, dotted]

theorem parseProcAddress_inet6 (addr : In6Addr) (port : BitVec 16) :
    parseProcAddress (inet6Endpoint addr port) = .ok (addr.text, (port.toNat : ℤ)) := by
  have hcolon : ':' ∉ addr.digits := by
    simp only [In6Addr.digits, List.mem_append, not_or]
    exact ⟨⟨⟨colon_not_mem_digits (allDigits_upperHex _ _),
      colon_not_mem_digits (allDigits_upperHex _ _)⟩,
      colon_not_mem_digits (allDigits_upperHex _ _)⟩, colon_not_mem_digits (allDigits_upperHex _ _)⟩
  have hlength : addr.digits.length = 32 := by simp [In6Addr.digits]
  have hchunks : joined [':'] (chunks 8 4 addr.digits) = addr.text := by
    have htake : ∀ (n : ℕ) (rest : Str), (upperHex 8 n ++ rest).take 8 = upperHex 8 n := by
      intro n rest
      rw [List.take_append_of_le_length (length_upperHex 8 n).ge,
        List.take_of_length_le (length_upperHex 8 n).le]
    have hdrop : ∀ (n : ℕ) (rest : Str), (upperHex 8 n ++ rest).drop 8 = rest := by
      intro n rest
      rw [List.drop_append_of_le_length (length_upperHex 8 n).ge,
        List.drop_of_length_le (length_upperHex 8 n).le, List.nil_append]
    have hlast : ∀ n : ℕ, (upperHex 8 n).take 8 = upperHex 8 n := fun n =>
      List.take_of_length_le (length_upperHex 8 n).le
    simp only [In6Addr.digits, List.append_assoc, chunks, htake, hdrop, hlast, joined]
    simp only [In6Addr.text, List.append_assoc, List.cons_append, List.nil_append]
  rw [inet6Endpoint, parseProcAddress_endpoint hcolon, if_neg (by rw [hlength]; decide),
    if_pos hlength, hchunks]

theorem isWord_decimal (n : ℕ) : IsWord (decimal n) :=
  (allDigits_toDigits n).isWord Nat.toDigits_ne_nil

theorem isWord_upperHex {width : ℕ} (h : 0 < width) (n : ℕ) : IsWord (upperHex width n) :=
  (allDigits_upperHex width n).isWord fun hnil => by
    have hlength := length_upperHex width n
    rw [hnil] at hlength
    exact absurd hlength.symm h.ne'

theorem IsWord.append {s t : Str} (hs : IsWord s) (ht : IsWord t) : IsWord (s ++ t) :=
  ⟨List.append_ne_nil_of_left_ne_nil hs.ne_nil t, fun c hc =>
    (List.mem_append.mp hc).elim (hs.plain c) (ht.plain c)⟩

/-- Two words with a colon between them. -/
theorem IsWord.colon {s t : Str} (hs : IsWord s) (ht : IsWord t) : IsWord (s ++ ':' :: t) :=
  hs.append (@IsWord.append [':'] t (isWord_of_all (by decide) (by decide)) ht)

/-- Every column is a word. -/
theorem SocketColumns.isWord_line (c : SocketColumns) {local_ remote : Str} (hl : IsWord local_)
    (hr : IsWord remote) : ∀ column ∈ c.line local_ remote, IsWord column.2 := by
  have hhex : ∀ {width : ℕ} (n : ℕ), 0 < width → IsWord (upperHex width n) := fun n h =>
    isWord_upperHex h n
  simp only [line, List.forall_mem_cons]
  refine ⟨(isWord_decimal _).append (isWord_of_all (by decide) (by decide)), hl, hr, hhex _ (by decide),
    (hhex _ (by decide)).colon (hhex _ (by decide)), (hhex _ (by decide)).colon (hhex _ (by decide)),
    hhex _ (by decide), isWord_decimal _, isWord_decimal _, isWord_decimal _, isWord_decimal _,
    c.pointer_word, isWord_decimal _, fun c hc => absurd hc List.not_mem_nil⟩

/-- A line of a table, filled up or not, is read as its socket. -/
theorem parseProcNetLine_columns {c : SocketColumns} {local_ remote : Str} (hl : IsWord local_)
    (hr : IsWord remote) {localIp remoteIp : Str} {localPort remotePort : ℤ}
    (hlocal : parseProcAddress local_ = .ok (localIp, localPort))
    (hremote : parseProcAddress remote = .ok (remoteIp, remotePort)) (k : ℕ) :
    parseProcNetLine (printColumns (c.line local_ remote) ++ List.replicate k ' ') =
      .ok [⟨localIp, localPort, remoteIp, remotePort, c.inode.toNat⟩] := by
  have hinode : intOfText 10 (decimal c.inode.toNat) = .ok (c.inode.toNat : ℤ) := by
    rw [intOfText, decimal, parseInt_toDigits]
  unfold parseProcNetLine printColumns
  rw [words_columnLine (c.isWord_line hl hr)]
  simp only [SocketColumns.line, List.map_cons, List.map_nil, hlocal, hremote, hinode, ok_bind]
  rfl

/-- A table whose lines are read one by one. -/
theorem parseProcNetUdp_lines {header : Str} {lines : List Str} {rows : List UdpSocketRow}
    (hunbroken : ∀ line ∈ header :: lines, ∀ c ∈ line, isLineBreak c = false)
    (h : List.Forall₂ (fun line row => parseProcNetLine line = .ok [row]) lines rows) :
    parseProcNetUdp ((header :: lines).flatMap fun line => line ++ ['\n']) = .ok rows := by
  have hread : lines.mapM parseProcNetLine = .ok (rows.map fun row => [row]) := by
    rw [mapM_eq_ok_iff, List.forall₂_map_right_iff]
    exact h
  unfold parseProcNetUdp
  rw [splitLines_table hunbroken, List.drop_one, List.tail_cons, hread, ok_bind]
  show Except.ok _ = _
  rw [← List.flatMap_def, List.flatMap_singleton']

theorem isWord_inetEndpoint (addr : BitVec 32) (port : BitVec 16) : IsWord (inetEndpoint addr port) :=
  (isWord_upperHex (by decide) _).colon (isWord_upperHex (by decide) _)

theorem isWord_inet6Endpoint (addr : In6Addr) (port : BitVec 16) :
    IsWord (inet6Endpoint addr port) := by
  have hhex : ∀ n : ℕ, IsWord (upperHex 8 n) := fun n => isWord_upperHex (by decide) n
  exact (((hhex _).append (hhex _)).append (hhex _)).append (hhex _) |>.colon
    (isWord_upperHex (by decide) _)

/-- Lines printed from sockets are read as the rows of the sockets. -/
theorem forall₂_lines {S : Type} {line : S → Str} {row : S → UdpSocketRow}
    (h : ∀ s, parseProcNetLine (line s) = .ok [row s]) (sockets : List S) :
    List.Forall₂ (fun line row => parseProcNetLine line = .ok [row]) (sockets.map line)
      (sockets.map row) := by
  induction sockets with
  | nil => exact .nil
  | cons s rest ih => exact .cons (h s) ih

/-- The `udp` table is read as its sockets, in order. -/
theorem parseProcNetUdp_inetTable (sockets : List InetSocket) :
    parseProcNetUdp (inetTable sockets) = .ok (sockets.map InetSocket.row) := by
  have htable : inetTable sockets = (padRight 127 inetHeader :: sockets.map fun s =>
      padRight 127 (printColumns (s.columns.line (inetEndpoint s.localAddr s.localPort)
        (inetEndpoint s.remoteAddr s.remotePort)))).flatMap fun line => line ++ ['\n'] := by
    unfold inetTable
    rw [List.flatMap_cons, List.flatMap_cons, List.flatMap_map, List.flatMap_map]
  rw [htable]
  apply parseProcNetUdp_lines
  · rw [List.forall_mem_cons]
    refine ⟨forall_mem_of_all (by decide +kernel), fun line hline => ?_⟩
    obtain ⟨s, -, rfl⟩ := List.mem_map.mp hline
    exact columnLine_unbroken (s.columns.isWord_line (isWord_inetEndpoint _ _)
      (isWord_inetEndpoint _ _)) _
  · exact forall₂_lines (fun s => parseProcNetLine_columns (isWord_inetEndpoint _ _)
      (isWord_inetEndpoint _ _) (parseProcAddress_inet _ _) (parseProcAddress_inet _ _) _) sockets

/-- So is the `udp6` table. -/
theorem parseProcNetUdp_inet6Table (sockets : List Inet6Socket) :
    parseProcNetUdp (inet6Table sockets) = .ok (sockets.map Inet6Socket.row) := by
  apply parseProcNetUdp_lines
  · rw [List.forall_mem_cons]
    refine ⟨forall_mem_of_all (by decide +kernel), fun line hline => ?_⟩
    obtain ⟨s, -, rfl⟩ := List.mem_map.mp hline
    have hunbroken := columnLine_unbroken (s.columns.isWord_line (isWord_inet6Endpoint s.localAddr
      s.localPort) (isWord_inet6Endpoint s.remoteAddr s.remotePort)) 0
    rwa [List.replicate_zero, List.append_nil] at hunbroken
  · refine forall₂_lines (fun s => ?_) sockets
    have hline := @parseProcNetLine_columns s.columns _ _ (isWord_inet6Endpoint s.localAddr
      s.localPort) (isWord_inet6Endpoint s.remoteAddr s.remotePort) _ _ _ _
      (parseProcAddress_inet6 _ _) (parseProcAddress_inet6 _ _) 0
    rwa [List.replicate_zero, List.append_nil] at hline

end UdpAnalyzer

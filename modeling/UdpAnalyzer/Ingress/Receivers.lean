import Mathlib.Data.List.Nodup
import UdpAnalyzer.Ingress.ProcFs

/-! Who receives a datagram, by its destination alone. A process receives what is sent to an
IPv4 address on a port when it holds a socket bound to the port and to that address or to every
address; a socket over IPv6 does so too when it is bound to every address or to the IPv4
address mapped into IPv6. The enricher compares the printed addresses. -/

namespace UdpAnalyzer

/-! ### Addresses in text -/

theorem decimal_injective : Function.Injective decimal := by
  intro m n h
  have hvalue : Nat.ofDigitChars 10 (decimal m) 0 = Nat.ofDigitChars 10 (decimal n) 0 := by rw [h]
  rwa [decimal, decimal, Nat.ofDigitChars_ten_toDigits, Nat.ofDigitChars_ten_toDigits] at hvalue

theorem not_mem_decimal {c : Char} (hc : digitValue c = none) (n : ℕ) : c ∉ decimal n := by
  intro hmem
  obtain ⟨d, -, hd⟩ := allDigits_toDigits n c hmem
  rw [hc] at hd
  cases hd

/-- The four numbers of an address in text. -/
theorem splitOn_dotted (addr : BitVec 32) : (dotted addr).splitOn '.' =
    [decimal (addr.toNat % 256), decimal (addr.toNat / 256 % 256),
      decimal (addr.toNat / 65536 % 256), decimal (addr.toNat / 16777216 % 256)] := by
  have hjoin : dotted addr = List.intercalate ['.'] [decimal (addr.toNat % 256),
      decimal (addr.toNat / 256 % 256), decimal (addr.toNat / 65536 % 256),
      decimal (addr.toNat / 16777216 % 256)] := by
    simp [dotted, List.intercalate]
  rw [hjoin, List.splitOn_intercalate '.' _ (List.cons_ne_nil _ _)]
  intro part hpart
  simp only [List.mem_cons, List.not_mem_nil, or_false] at hpart
  rcases hpart with rfl | rfl | rfl | rfl <;> exact not_mem_decimal rfl _

theorem dotted_injective : Function.Injective dotted := by
  intro a b h
  have hsplit := splitOn_dotted a
  rw [h, splitOn_dotted b] at hsplit
  simp only [List.cons.injEq, decimal_injective.eq_iff, and_true] at hsplit
  have ha := a.isLt
  have hb := b.isLt
  apply BitVec.eq_of_toNat_eq
  omega

theorem colon_not_mem_dotted (addr : BitVec 32) : ':' ∉ dotted addr := by
  have hdecimal := fun n => @not_mem_decimal ':' rfl n
  simp [dotted, hdecimal]

theorem colon_mem_text (a : In6Addr) : ':' ∈ a.text := by
  simp [In6Addr.text]

/-- `::`. -/
def In6Addr.any : In6Addr := ⟨0, 0, 0, 0⟩

/-- `::ffff:d`. -/
def In6Addr.mapped (d : BitVec 32) : In6Addr := ⟨0, 0, 0xFFFF0000, d⟩

/-! ### Receivers -/

namespace ProcDir

/-- The process holds an IPv4 socket on the port, bound to the address or to every one. -/
def HoldsInet (p : ProcDir) (d : BitVec 32) (port : BitVec 16) : Prop :=
  ∃ s ∈ p.udp.list, (s.columns.inode.toNat : ℤ) ∈ p.inodes ∧ s.localPort = port ∧
    (s.localAddr = 0 ∨ s.localAddr = d)

/-- The process holds an IPv6 socket on the port, bound to the address or to every one. -/
def HoldsInet6 (p : ProcDir) (d : BitVec 32) (port : BitVec 16) : Prop :=
  ∃ s ∈ p.udp6.list, (s.columns.inode.toNat : ℤ) ∈ p.inodes ∧ s.localPort = port ∧
    (s.localAddr = .any ∨ s.localAddr = .mapped d)

end ProcDir

/-- The processes of a machine; no two have one number. -/
structure ProcessTable where
  processes : List ProcDir
  distinct : (processes.map ProcDir.pid).Nodup

/-- The enrichment has a delivered row for every scanned process that receives. -/
def MissesNone (table : ProcessTable) (wanted : Option Str) (d : BitVec 32) (port : BitVec 16)
    (answer : Except PyExc (List UdpSample)) : Prop :=
  ∃ rows, answer = .ok rows ∧ ∀ p ∈ table.processes, p.Wanted wanted →
    p.HoldsInet d port ∨ p.HoldsInet6 d port →
      ∃ row ∈ rows, row.layer = .delivered ∧ row.hostPid = p.pid

/-- The enricher takes a row of a table for a receiver. -/
def UdpSocketRow.Matches (row : UdpSocketRow) (d : BitVec 32) (port : BitVec 16) : Prop :=
  row.localPort = port.toNat ∧ (row.localIp = "0.0.0.0".toList ∨ row.localIp = dotted d)

theorem InetSocket.row_matches (s : InetSocket) (d : BitVec 32) (port : BitVec 16) :
    s.row.Matches d port ↔ s.localPort = port ∧ (s.localAddr = 0 ∨ s.localAddr = d) := by
  have hport : s.row.localPort = port.toNat ↔ s.localPort = port := by
    rw [BitVec.toNat_eq]
    exact Int.natCast_inj
  have hzero : "0.0.0.0".toList = dotted 0 := by decide
  have haddr : ∀ a, s.row.localIp = dotted a ↔ s.localAddr = a := fun a => dotted_injective.eq_iff
  rw [UdpSocketRow.Matches, hport, hzero, haddr, haddr]

/-- No socket over IPv6 is ever taken for one. -/
theorem Inet6Socket.not_row_matches (s : Inet6Socket) (d : BitVec 32) (port : BitVec 16) :
    ¬ s.row.Matches d port := by
  have hcolon : ':' ∈ s.row.localIp := colon_mem_text s.localAddr
  rintro ⟨-, hip | hip⟩
  · rw [hip] at hcolon
    revert hcolon
    decide
  · rw [hip] at hcolon
    exact colon_not_mem_dotted d hcolon

/-- The rows of a process that match are those of its IPv4 sockets. -/
theorem exists_matches_iff (p : ProcDir) (d : BitVec 32) (port : BitVec 16) :
    (∃ row ∈ p.socketRows, row.socketInode ∈ p.inodes ∧ row.Matches d port) ↔ p.HoldsInet d port := by
  unfold ProcDir.socketRows ProcDir.HoldsInet
  constructor
  · rintro ⟨row, hrow, hinode, hmatches⟩
    rcases List.mem_append.mp hrow with hrow | hrow
    · obtain ⟨s, hs, rfl⟩ := List.mem_map.mp hrow
      exact ⟨s, hs, hinode, (s.row_matches d port).mp hmatches⟩
    · obtain ⟨s, -, rfl⟩ := List.mem_map.mp hrow
      exact absurd hmatches (s.not_row_matches d port)
  · rintro ⟨s, hs, hinode, hmatches⟩
    exact ⟨s.row, List.mem_append_left _ (List.mem_map.mpr ⟨s, hs, rfl⟩), hinode,
      (s.row_matches d port).mpr hmatches⟩

/-! ### The enricher -/

/-- The sockets of a wanted process: a matching one for each matching row of its tables that
is among its descriptors. -/
theorem exists_socket_iff {p : ProcDir} {wanted : Option Str} {rows : List ProcessSocket}
    (h : p.files.sockets wanted = .ok rows) (hwanted : p.Wanted wanted) (d : BitVec 32)
    (port : BitVec 16) :
    (∃ x ∈ rows, x.localPort = port.toNat ∧
        (x.localIp = "0.0.0.0".toList ∨ x.localIp = dotted d)) ↔ p.HoldsInet d port := by
  obtain ⟨name, commandLine, containerId, containerPid, netnsId, -, hsockets⟩ :=
    p.sockets_of_decodes (p.returns_sockets.mp ⟨rows, h⟩) hwanted
  rw [h, Except.ok.injEq] at hsockets
  rw [← exists_matches_iff, hsockets]
  simp only [List.mem_map, List.mem_filter, decide_eq_true_eq]
  constructor
  · rintro ⟨x, ⟨row, ⟨hrow, hinode⟩, rfl⟩, hmatches⟩
    exact ⟨row, hrow, hinode, hmatches⟩
  · rintro ⟨row, hrow, hinode, hmatches⟩
    exact ⟨_, ⟨row, ⟨hrow, hinode⟩, rfl⟩, hmatches⟩

/-- A row of a scan is of a wanted process and has its number. -/
theorem socket_of_process {p : ProcDir} {wanted : Option Str} {rows : List ProcessSocket}
    (h : p.files.sockets wanted = .ok rows) {x : ProcessSocket} (hx : x ∈ rows) :
    p.Wanted wanted ∧ x.hostPid = p.pid := by
  have hdecodes := p.returns_sockets.mp ⟨rows, h⟩
  by_cases hwanted : p.Wanted wanted
  · obtain ⟨_, _, _, _, _, -, hsockets⟩ := p.sockets_of_decodes hdecodes hwanted
    rw [h, Except.ok.injEq] at hsockets
    rw [hsockets] at hx
    obtain ⟨row, -, rfl⟩ := List.mem_map.mp hx
    exact ⟨hwanted, rfl⟩
  · rw [p.sockets_of_not_wanted hdecodes.1 hwanted, Except.ok.injEq] at h
    rw [← h] at hx
    cases hx

/-- The sockets a scan finds are those of the processes. -/
theorem mem_scan {table : ProcessTable} {wanted : Option Str} {found : List ProcessSocket}
    (h : scan (table.processes.map ProcDir.files) wanted = .ok found) {x : ProcessSocket} :
    x ∈ found ↔ ∃ p ∈ table.processes, ∃ rows, p.files.sockets wanted = .ok rows ∧ x ∈ rows := by
  obtain ⟨parts, hparts, hfound⟩ := bind_eq_ok h
  rw [← Except.ok.inj hfound, mem_flatten_of_mapM hparts]
  simp only [List.mem_map, exists_exists_and_eq_and]

/-- A scanned process has a matching socket in the scan exactly when it holds an IPv4 socket
that receives. -/
theorem exists_found_iff {table : ProcessTable} {wanted : Option Str} {found : List ProcessSocket}
    (h : scan (table.processes.map ProcDir.files) wanted = .ok found)
    {p : ProcDir} (hp : p ∈ table.processes) (hwanted : p.Wanted wanted) {sample : UdpSample}
    {d : BitVec 32} {port : BitVec 16} (hip : sample.dstIp = dotted d)
    (hport : sample.dstPort = port.toNat) :
    (∃ x ∈ findMatches found sample, x.hostPid = p.pid) ↔ p.HoldsInet d port := by
  have hmatch : ∀ x, x ∈ findMatches found sample ↔ x ∈ found ∧ x.localPort = port.toNat ∧
      (x.localIp = "0.0.0.0".toList ∨ x.localIp = dotted d) := by
    intro x
    simp only [findMatches, List.mem_filter, Bool.and_eq_true, Bool.or_eq_true, decide_eq_true_eq,
      hip, hport]
  obtain ⟨rows, hrows⟩ := p.returns_sockets.mpr (returns_scan.mp ⟨found, h⟩ p hp)
  rw [← exists_socket_iff hrows hwanted]
  constructor
  · rintro ⟨x, hx, hpid⟩
    obtain ⟨hfound, hx⟩ := (hmatch x).mp hx
    obtain ⟨q, hq, rows', hrows', hmem⟩ := (mem_scan h).mp hfound
    -- the number tells which process it is
    have hqp : q = p := List.inj_on_of_nodup_map table.distinct hq hp
      ((socket_of_process hrows' hmem).2.symm.trans hpid)
    rw [hqp, hrows, Except.ok.injEq] at hrows'
    exact ⟨x, hrows' ▸ hmem, hx⟩
  · rintro ⟨x, hmem, hx⟩
    exact ⟨x, (hmatch x).mpr ⟨(mem_scan h).mpr ⟨p, hp, rows, hrows, hmem⟩, hx⟩,
      (socket_of_process hrows hmem).2⟩

/-- The rows of an ingress sample are delivered to the processes of its matches. -/
theorem exists_delivered_iff {found : List ProcessSocket} {sample : UdpSample}
    (hlayer : sample.layer = .ingress) (pid : ℤ) :
    (∃ row ∈ sample :: (findMatches found sample).map fun x =>
        { sample.withProcess x with layer := .delivered, socketId := x.socketInode },
      row.layer = .delivered ∧ row.hostPid = pid) ↔
    ∃ x ∈ findMatches found sample, x.hostPid = pid := by
  simp only [List.exists_mem_cons_iff, hlayer, reduceCtorEq, false_and, false_or, List.mem_map,
    exists_exists_and_eq_and, true_and]
  rfl

/-- The legacy enrichment misses no receiver exactly when the scan reads every process and
no scanned process receives by a socket over IPv6 alone. -/
theorem legacy_misses_none_iff (table : ProcessTable) (en : ProcessSocketEnricher)
    (call : SocketsCall) (sample : UdpSample) (d : BitVec 32) (port : BitVec 16)
    (hscan : (en.sockets call).1 = scan (table.processes.map ProcDir.files) en.processName)
    (hlayer : sample.layer = .ingress) (hip : sample.dstIp = dotted d)
    (hport : sample.dstPort = port.toNat) :
    MissesNone table en.processName d port (en.enrich call sample).1 ↔
      (∀ p ∈ table.processes, p.TextsDecode en.processName) ∧
      ∀ p ∈ table.processes, p.Wanted en.processName → p.HoldsInet6 d port → p.HoldsInet d port := by
  rw [← returns_scan, ← hscan]
  unfold ProcessSocketEnricher.enrich
  rcases hsockets : en.sockets call with ⟨e | found, en'⟩
  · dsimp only
    constructor
    · rintro ⟨rows, hrows, -⟩
      cases hrows
    · exact fun h => absurd h.1 not_returns_error
  · dsimp only
    rw [hsockets] at hscan
    have hrow : ∀ p ∈ table.processes, p.Wanted en.processName →
        ((∃ row ∈ sample :: (findMatches found sample).map fun x =>
            { sample.withProcess x with layer := .delivered, socketId := x.socketInode },
          row.layer = .delivered ∧ row.hostPid = p.pid) ↔ p.HoldsInet d port) := by
      intro p hp hwanted
      rw [exists_delivered_iff hlayer, exists_found_iff hscan.symm hp hwanted hip hport]
    constructor
    · rintro ⟨rows, hrows, hmisses⟩
      cases hrows
      exact ⟨⟨found, rfl⟩, fun p hp hwanted h6 =>
        (hrow p hp hwanted).mp (hmisses p hp hwanted (.inr h6))⟩
    · rintro ⟨-, honly⟩
      exact ⟨_, rfl, fun p hp hwanted h => (hrow p hp hwanted).mpr (h.elim id (honly p hp hwanted))⟩

/-! A sample for a receiver that listens over IPv4, and for one that listens over both. -/

def multicastAddr : BitVec 32 := 0x0107FEEF

def multicastSample : UdpSample where
  bucketStartNs := 0
  bucketMs := 1000
  srcIp := "192.0.2.10".toList
  dstIp := "239.254.7.1".toList
  srcPort := 40000
  dstPort := 5000
  ifindex := 2
  ifname := "eth0".toList
  packets := 570
  bytes := 750120

def receiverTable : ProcessTable := ⟨[receiverDir 100], by decide⟩

theorem isWord_zero : IsWord ['0'] := isWord_of_all (by decide) (by decide)

/-- A dual-stack receiver. -/
def dualStackTable : ProcessTable where
  processes := [{ receiverDir 100 with
    udp := .ok []
    udp6 := .ok [⟨.any, 5000, .any, 0,
      { bucket := 12, inode := 555, pointer_word := isWord_zero }⟩] }]
  distinct := List.nodup_singleton _

def tableCall (table : ProcessTable) : SocketsCall :=
  ⟨5000000000, scan (table.processes.map ProcDir.files)⟩

theorem sockets_tableCall (table : ProcessTable) :
    (({} : ProcessSocketEnricher).sockets (tableCall table)).1 =
      scan (table.processes.map ProcDir.files) none := by
  have hold : (tableCall table).monotonic - (0 : ℤ) > 1000000000 := by
    show (5000000000 : ℤ) - 0 > 1000000000
    decide
  rw [ProcessSocketEnricher.sockets, if_pos hold]
  show _ = (tableCall table).scan none
  cases (tableCall table).scan none <;> rfl

theorem legacy_misses_none_iff_receiver :
    MissesNone receiverTable none multicastAddr 5000
      (({} : ProcessSocketEnricher).enrich (tableCall receiverTable) multicastSample).1 := by
  refine (legacy_misses_none_iff receiverTable {} (tableCall receiverTable) multicastSample
    multicastAddr 5000 (sockets_tableCall receiverTable) rfl (by decide +kernel) rfl).mpr ⟨?_, ?_⟩
  · exact returns_scan.mp (returns_of_toBool (by decide +kernel))
  · intro p hp _ h6
    obtain ⟨s, hs, -⟩ := h6
    rw [List.mem_singleton.mp hp] at hs
    cases hs

/-- The receiver over both gets no row. -/
theorem dual_stack_receiver_missed :
    ¬ MissesNone dualStackTable none multicastAddr 5000
      (({} : ProcessSocketEnricher).enrich (tableCall dualStackTable) multicastSample).1 := by
  have henrich : (({} : ProcessSocketEnricher).enrich (tableCall dualStackTable)
      multicastSample).1 = .ok [multicastSample] := by decide +kernel
  rintro ⟨rows, hrows, hmisses⟩
  rw [henrich, Except.ok.injEq] at hrows
  obtain ⟨row, hrow, hdelivered, -⟩ := hmisses _ (List.mem_singleton.mpr rfl)
    (fun _ _ => Bool.false_ne_true)
    (.inr ⟨_, List.mem_singleton.mpr rfl, by decide +kernel, rfl, .inl rfl⟩)
  rw [← hrows, List.mem_singleton] at hrow
  rw [hrow] at hdelivered
  cases hdelivered

end UdpAnalyzer

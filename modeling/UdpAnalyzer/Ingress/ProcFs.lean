import UdpAnalyzer.Ingress.SocketTables
import UdpAnalyzer.Lib.Utf8

/-! The scan over the files of `/proc` as they are: the bytes a process chose for its name and
its arguments, the links of its descriptors, the socket tables the kernel prints for it. Every
one of them may be gone when it is read. -/

namespace UdpAnalyzer

/-- What reading a file of a process comes to: its bytes or an `OSError`. -/
abbrev ProcRead (α : Type) := Except OsErrorKind α

/-- `/proc/<pid>`. -/
structure ProcDir where
  pid : ℤ
  comm : ProcRead (List UInt8)
  /-- Listing `fd`, and reading each link in it. -/
  fds : ProcRead (List (ProcRead Str))
  cmdline : ProcRead (List UInt8) := .ok []
  cgroup : ProcRead (List UInt8) := .ok []
  status : ProcRead (List UInt8) := .ok []
  netNamespace : ProcRead Str := .error .other
  udp : ProcRead (List InetSocket) := .ok []
  udp6 : ProcRead (List Inet6Socket) := .ok []

/-- The exception of a read. -/
def raised {α : Type} : ProcRead α → Except PyExc α
  | .error kind => .error (.osError kind)
  | .ok a => .ok a

/-- `path.read_text(encoding="utf-8")`. -/
def textOf (file : ProcRead (List UInt8)) : Except PyExc Str := do
  let bytes ← raised file
  match decodeUtf8 bytes with
  | none => .error .unicodeDecodeError
  | some text => .ok (universalNewlines text)

namespace ProcDir

/-- The files as the scan meets them. -/
def files (p : ProcDir) : ProcessFiles where
  pid := p.pid
  comm := textOf p.comm
  fds := (raised p.fds).map (List.map raised)
  cmdline := textOf p.cmdline
  cgroup := textOf p.cgroup
  status := textOf p.status
  netNamespace := raised p.netNamespace
  udp := (raised p.udp).map inetTable
  udp6 := (raised p.udp6).map inet6Table

end ProcDir

/-- What a read gives, or nothing where it fails. -/
def ProcRead.list {α : Type} (file : ProcRead (List α)) : List α :=
  match file with
  | .error _ => []
  | .ok l => l

/-- The bytes of a file that can be read are UTF-8. -/
def Decodes (file : ProcRead (List UInt8)) : Prop :=
  ∀ bytes, file = .ok bytes → decodeUtf8 bytes ≠ none

theorem returns_readText {file : ProcRead (List UInt8)} :
    Returns (readText (textOf file)) ↔ Decodes file := by
  cases file with
  | error kind => exact ⟨fun _ bytes h => (nomatch h), fun _ => ⟨[], rfl⟩⟩
  | ok bytes =>
    cases hdecode : decodeUtf8 bytes with
    | none =>
      have hraise : readText (textOf (.ok bytes)) = .error .unicodeDecodeError := by
        simp only [textOf, raised, ok_bind, hdecode, readText, orOnOsError]
      rw [hraise]
      exact ⟨fun h => absurd h not_returns_error, fun h => absurd hdecode (h bytes rfl)⟩
    | some text =>
      have hreturn : readText (textOf (.ok bytes)) = .ok (universalNewlines text) := by
        simp only [textOf, raised, ok_bind, hdecode, readText, orOnOsError]
      rw [hreturn]
      refine ⟨fun _ bytes' h => ?_, fun _ => ⟨_, rfl⟩⟩
      cases h
      rw [hdecode]
      exact Option.some_ne_none _

namespace ProcDir

/-- The inodes of the sockets among the descriptors. -/
def inodes (p : ProcDir) : List ℤ :=
  (p.fds.list.map ProcRead.list).filterMap (ProcessFiles.numberInLink "socket")

/-- The sockets of the tables. -/
def socketRows (p : ProcDir) : List UdpSocketRow :=
  p.udp.list.map InetSocket.row ++ p.udp6.list.map Inet6Socket.row

variable (p : ProcDir)

theorem orOnOsError_raised {α : Type} (file : ProcRead (List α)) :
    orOnOsError [] (raised file) = .ok file.list := by
  cases file <;> rfl

theorem socketInodes_files : p.files.socketInodes = .ok p.inodes := by
  have hentries : orOnOsError [] ((raised p.fds).map (List.map raised)) =
      .ok (p.fds.list.map raised) := by
    cases p.fds <;> rfl
  have hlinks : (p.fds.list.map raised).mapM (fun entry => orOnOsError [] entry) =
      .ok (p.fds.list.map ProcRead.list) := by
    rw [mapM_eq_ok_iff, List.forall₂_map_left_iff, List.forall₂_map_right_iff]
    exact List.forall₂_same.mpr fun link _ => orOnOsError_raised link
  unfold ProcessFiles.socketInodes files
  dsimp only
  rw [hentries, ok_bind, hlinks, ok_bind]
  rfl

/-- A table is read as the rows of its sockets, a missing one as none. -/
theorem read_table {S : Type} {table : List S → Str} {row : S → UdpSocketRow}
    (h : ∀ sockets, parseProcNetUdp (table sockets) = .ok (sockets.map row))
    (file : ProcRead (List S)) :
    orOnOsError [] ((raised file).map table >>= parseProcNetUdp) = .ok (file.list.map row) := by
  cases file with
  | error kind => rfl
  | ok sockets =>
    have hmap : (raised (.ok sockets)).map table = .ok (table sockets) := rfl
    rw [hmap, ok_bind, h]
    rfl

theorem readUdpSockets_files : p.files.readUdpSockets = .ok p.socketRows := by
  unfold ProcessFiles.readUdpSockets files
  rw [read_table parseProcNetUdp_inetTable, ok_bind, read_table parseProcNetUdp_inet6Table]
  rfl

/-! ### One process -/

/-- The name of the process, if its bytes are text. -/
def name : Except PyExc Str := (readText (textOf p.comm)).map strip

/-- The scan is for this process: it has the wanted name, if one is wanted. -/
def Wanted (wanted : Option Str) : Prop :=
  ∀ name, p.name = .ok name → ¬ (wanted.any fun w => w ≠ [] && name ≠ w) = true

/-- The row of a socket of the process. -/
def processSocket (name commandLine containerId : Str) (containerPid netnsId : ℤ)
    (row : UdpSocketRow) : ProcessSocket where
  hostPid := p.pid
  containerPid := containerPid
  processName := name
  commandLine := commandLine
  netnsId := netnsId
  containerId := containerId
  socketInode := row.socketInode
  localIp := row.localIp
  localPort := row.localPort
  remoteIp := row.remoteIp
  remotePort := row.remotePort

/-- Everything the scan reads of the process as text is text: its name, and what it reads of
a wanted process that has sockets. -/
def TextsDecode (wanted : Option Str) : Prop :=
  Decodes p.comm ∧ (p.Wanted wanted → p.inodes ≠ [] →
    Decodes p.cmdline ∧ Decodes p.cgroup ∧ Decodes p.status)

theorem returns_commandLine : Returns p.files.commandLine ↔ Decodes p.cmdline :=
  returns_bind_pure.trans returns_readText

theorem returns_containerId : Returns p.files.containerId ↔ Decodes p.cgroup :=
  returns_bind_pure.trans returns_readText

theorem returns_containerPid : Returns p.files.containerPid ↔ Decodes p.status := by
  rw [← returns_readText]
  unfold ProcessFiles.containerPid
  rw [returns_bind]
  constructor
  · rintro ⟨text, htext, -⟩
    exact ⟨text, htext⟩
  · rintro ⟨text, htext⟩
    refine ⟨text, htext, ?_⟩
    cases (splitLines text).find? fun line => "NSpid:".toList.isPrefixOf line with
    | none => exact ⟨_, rfl⟩
    | some line => exact ⟨_, rfl⟩

theorem netnsId_files : ∃ netnsId, p.files.netnsId = .ok netnsId := by
  unfold ProcessFiles.netnsId files
  dsimp only
  rw [readText, orOnOsError_raised]
  exact ⟨_, rfl⟩

/-- The scan of a process whose name is text. -/
theorem sockets_files {wanted : Option Str} {name : Str} (hname : p.name = .ok name) :
    p.files.sockets wanted =
      if wanted.any fun w => w ≠ [] && name ≠ w then .ok []
      else if p.inodes = [] then .ok []
      else do
        let commandLine ← p.files.commandLine
        let containerId ← p.files.containerId
        let containerPid ← p.files.containerPid
        let netnsId ← p.files.netnsId
        return (p.socketRows.filter fun row => row.socketInode ∈ p.inodes).map
          (p.processSocket name commandLine containerId containerPid netnsId) := by
  have hcomm : ∃ comm, readText p.files.comm = .ok comm ∧ strip comm = name := by
    unfold ProcDir.name at hname
    cases hread : readText (textOf p.comm) with
    | error e =>
      rw [hread] at hname
      cases hname
    | ok comm =>
      rw [hread] at hname
      exact ⟨comm, hread, Except.ok.inj hname⟩
  obtain ⟨comm, hcomm, rfl⟩ := hcomm
  unfold ProcessFiles.sockets
  rw [hcomm, ok_bind]
  dsimp only
  split_ifs with hany
  · rfl
  · rw [socketInodes_files, ok_bind, if_pos ‹_›]
    rfl
  · rw [socketInodes_files, ok_bind, if_neg ‹_›, readUdpSockets_files]
    rfl

theorem exists_name (h : Decodes p.comm) : ∃ name, p.name = .ok name := by
  obtain ⟨comm, hcomm⟩ := returns_readText.mpr h
  exact ⟨strip comm, by rw [ProcDir.name, hcomm]; rfl⟩

theorem wanted_iff {wanted : Option Str} {name : Str} (hname : p.name = .ok name) :
    p.Wanted wanted ↔ ¬ (wanted.any fun w => w ≠ [] && name ≠ w) = true := by
  constructor
  · exact fun h => h name hname
  · intro h name' hname'
    rw [hname, Except.ok.injEq] at hname'
    rwa [← hname']

/-- A process that is not wanted has no rows. -/
theorem sockets_of_not_wanted {wanted : Option Str} (h : Decodes p.comm)
    (hwanted : ¬ p.Wanted wanted) : p.files.sockets wanted = .ok [] := by
  obtain ⟨name, hname⟩ := p.exists_name h
  rw [p.wanted_iff hname, not_not] at hwanted
  rw [p.sockets_files hname, if_pos hwanted]

/-- The sockets of a process whose files are text: those of the tables that are among its
descriptors. -/
theorem sockets_of_decodes {wanted : Option Str} (h : p.TextsDecode wanted)
    (hwanted : p.Wanted wanted) :
    ∃ name commandLine containerId containerPid netnsId, p.name = .ok name ∧
      p.files.sockets wanted = .ok ((p.socketRows.filter fun row => row.socketInode ∈ p.inodes).map
        (p.processSocket name commandLine containerId containerPid netnsId)) := by
  obtain ⟨name, hname⟩ := p.exists_name h.1
  rw [p.sockets_files hname, if_neg ((p.wanted_iff hname).mp hwanted)]
  by_cases hinodes : p.inodes = []
  · refine ⟨name, [], [], 0, 0, hname, ?_⟩
    rw [if_pos hinodes, hinodes]
    simp
  · obtain ⟨hcmdline, hcgroup, hstatus⟩ := h.2 hwanted hinodes
    obtain ⟨commandLine, hcommandLine⟩ := p.returns_commandLine.mpr hcmdline
    obtain ⟨containerId, hcontainerId⟩ := p.returns_containerId.mpr hcgroup
    obtain ⟨containerPid, hpid⟩ := p.returns_containerPid.mpr hstatus
    obtain ⟨netnsId, hnetns⟩ := p.netnsId_files
    refine ⟨name, commandLine, containerId, containerPid, netnsId, hname, ?_⟩
    rw [if_neg hinodes, hcommandLine, ok_bind, hcontainerId, ok_bind, hpid, ok_bind, hnetns, ok_bind]
    rfl

/-- The scan of one process returns exactly when what it reads as text is text. -/
theorem returns_sockets {wanted : Option Str} :
    Returns (p.files.sockets wanted) ↔ p.TextsDecode wanted := by
  constructor
  · intro h
    have hcomm : Decodes p.comm := by
      rw [← returns_readText]
      unfold ProcessFiles.sockets at h
      obtain ⟨comm, hcomm, -⟩ := returns_bind.mp h
      exact ⟨comm, hcomm⟩
    refine ⟨hcomm, fun hwanted hinodes => ?_⟩
    obtain ⟨name, hname⟩ := p.exists_name hcomm
    rw [p.sockets_files hname, if_neg ((p.wanted_iff hname).mp hwanted), if_neg hinodes] at h
    obtain ⟨commandLine, hcommandLine, h⟩ := returns_bind.mp h
    obtain ⟨containerId, hcontainerId, h⟩ := returns_bind.mp h
    obtain ⟨containerPid, hcontainerPid, -⟩ := returns_bind.mp h
    exact ⟨p.returns_commandLine.mp ⟨commandLine, hcommandLine⟩,
      p.returns_containerId.mp ⟨containerId, hcontainerId⟩,
      p.returns_containerPid.mp ⟨containerPid, hcontainerPid⟩⟩
  · intro h
    by_cases hwanted : p.Wanted wanted
    · obtain ⟨_, _, _, _, _, -, hsockets⟩ := p.sockets_of_decodes h hwanted
      exact ⟨_, hsockets⟩
    · exact ⟨[], p.sockets_of_not_wanted h.1 hwanted⟩

end ProcDir

/-! ### The scan -/

/-- The scan returns, with the rows each process has when it is scanned alone, one process
after the other. -/
def Survives (processes : List ProcDir) (wanted : Option Str) : Prop :=
  ∃ rows, List.Forall₂ (fun p rows => scan [p.files] wanted = .ok rows) processes rows ∧
    scan (processes.map ProcDir.files) wanted = .ok rows.flatten

theorem scan_singleton (p : ProcDir) (wanted : Option Str) :
    scan [p.files] wanted = p.files.sockets wanted := by
  unfold scan
  rw [List.mapM_cons, List.mapM_nil]
  cases p.files.sockets wanted with
  | error e => rfl
  | ok rows =>
    show Except.ok [rows].flatten = _
    rw [List.flatten_singleton]

theorem returns_scan {processes : List ProcDir} {wanted : Option Str} :
    Returns (scan (processes.map ProcDir.files) wanted) ↔
      ∀ p ∈ processes, p.TextsDecode wanted := by
  unfold scan
  rw [returns_bind_pure, returns_mapM, List.forall_mem_map]
  simp only [ProcDir.returns_sockets]

/-- The scan survives the processes exactly when all it reads of them as text is text. -/
theorem scan_survives_iff (processes : List ProcDir) (wanted : Option Str) :
    Survives processes wanted ↔ ∀ p ∈ processes, p.TextsDecode wanted := by
  rw [← returns_scan]
  constructor
  · rintro ⟨rows, -, hscan⟩
    exact ⟨rows.flatten, hscan⟩
  · rintro ⟨found, hscan⟩
    obtain ⟨rows, hrows, hfound⟩ := bind_eq_ok hscan
    refine ⟨rows, ?_, by rw [hscan, ← Except.ok.inj hfound]⟩
    rw [mapM_eq_ok_iff, List.forall₂_map_left_iff] at hrows
    simpa only [scan_singleton] using hrows

/-! A receiver, and a process that has called itself by a byte that is no text. -/

def receiverDir (pid : ℤ) : ProcDir where
  pid := pid
  comm := .ok (asciiBytes "ffmpeg\n".toList)
  fds := .ok [.error .fileNotFound, .ok "socket:[555]".toList]
  udp := .ok [⟨0, 5000, 0, 0, { bucket := 12, inode := 555 }⟩]

def misnamedDir : ProcDir where
  pid := 200
  comm := .ok [0xFF, 0x0A]
  fds := .error .permission

theorem misnamed_process_stops_scan :
    ¬ Survives [receiverDir 100, misnamedDir] none ∧
      scan [(receiverDir 100).files, misnamedDir.files] none = .error .unicodeDecodeError := by
  have hscan : scan [(receiverDir 100).files, misnamedDir.files] none =
      .error .unicodeDecodeError := by decide +kernel
  refine ⟨?_, hscan⟩
  rintro ⟨rows, -, hrows⟩
  rw [List.map_cons, List.map_cons, List.map_nil, hscan] at hrows
  cases hrows

end UdpAnalyzer

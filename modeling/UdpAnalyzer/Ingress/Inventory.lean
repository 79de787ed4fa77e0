import UdpAnalyzer.Ingress.Enricher
import UdpAnalyzer.Lib.Json
import UdpAnalyzer.Lib.Text

/-! The scan of the process table (`processes.py`, `ProcessSocketInventory`). What
reading a file or a link gives is an argument: its text, or the exception. -/

namespace UdpAnalyzer

/-- What the scan reads of one process. -/
structure ProcessFiles where
  pid : ℤ
  comm : Except PyExc Str
  /-- Listing `fd`, and reading each link in it. -/
  fds : Except PyExc (List (Except PyExc Str))
  cmdline : Except PyExc Str := .error .osError
  cgroup : Except PyExc Str := .error .osError
  status : Except PyExc Str := .error .osError
  netNamespace : Except PyExc Str := .error .osError
  udp : Except PyExc Str
  udp6 : Except PyExc Str := .error .osError

/-- `except OSError: return default`. -/
def orOnOsError {α : Type} (default : α) : Except PyExc α → Except PyExc α
  | .error (.osError _) => .ok default
  | answer => answer

/-- `read_text` of `processes.py`. -/
def readText (file : Except PyExc Str) : Except PyExc Str := orOnOsError [] file

/-- `int(text, base)`. -/
def intOfText (base : ℕ) (text : Str) : Except PyExc ℤ :=
  match parseInt base text with
  | some n => .ok n
  | none => .error .valueError

/-! ### Socket tables -/

structure UdpSocketRow where
  localIp : Str
  localPort : ℤ
  remoteIp : Str
  remotePort : ℤ
  socketInode : ℤ
  deriving DecidableEq, Repr

/-- The bytes of hexadecimal digits in pairs. -/
def bytesOfHex : Str → Except PyExc (List ℕ)
  | [] => .ok []
  | [_] => .error .valueError
  | hi :: lo :: rest =>
    match (digitValue hi).filter (· < 16), (digitValue lo).filter (· < 16) with
    | some h, some l => do
      let bytes ← bytesOfHex rest
      return (16 * h + l) :: bytes
    | _, _ => .error .valueError

/-- Texts with a separator between them. -/
def joined (separator : Str) : List Str → Str
  | [] => []
  | [s] => s
  | s :: rest => s ++ separator ++ joined separator rest

/-- The first `n` pieces of a width. -/
def chunks (width : ℕ) : ℕ → Str → List Str
  | 0, _ => []
  | n + 1, text => text.take width :: chunks width n (text.drop width)

/-- `parse_proc_address`: the bytes of an IPv4 address stand in reverse order. -/
def parseProcAddress (value : Str) : Except PyExc (Str × ℤ) :=
  match afterFirst ':' value with
  | none => .error .valueError
  | some rawPort => do
    let rawIp := value.takeWhile (· ≠ ':')
    let port ← intOfText 16 rawPort
    if rawIp.length = 8 then
      let bytes ← bytesOfHex rawIp
      return (joined ['.'] (bytes.reverse.map decimal), port)
    else if rawIp.length = 32 then
      return (joined [':'] (chunks 8 4 rawIp), port)
    else return (rawIp, port)

/-- A line of a socket table; short lines are skipped. -/
def parseProcNetLine (line : Str) : Except PyExc (List UdpSocketRow) :=
  match words line with
  | _ :: local_ :: remote :: _ :: _ :: _ :: _ :: _ :: _ :: inode :: _ => do
    let (localIp, localPort) ← parseProcAddress local_
    let (remoteIp, remotePort) ← parseProcAddress remote
    let socketInode ← intOfText 10 inode
    return [{ localIp, localPort, remoteIp, remotePort, socketInode }]
  | _ => .ok []

/-- `parse_proc_net_udp`: the first line is the header. -/
def parseProcNetUdp (text : Str) : Except PyExc (List UdpSocketRow) := do
  let rows ← ((splitLines text).drop 1).mapM parseProcNetLine
  return rows.flatten

/-! ### One process -/

namespace ProcessFiles

/-- The number in a link such as `socket:[123]`. -/
def numberInLink (kind : String) (target : Str) : Option ℤ :=
  (between (kind ++ ":[").toList [']'] target).bind (parseInt 10)

/-- `process_socket_inodes`: links that cannot be read or are no sockets are skipped. -/
def socketInodes (p : ProcessFiles) : Except PyExc (List ℤ) := do
  let entries ← orOnOsError [] p.fds
  let links ← entries.mapM fun entry => orOnOsError [] entry
  return links.filterMap (numberInLink "socket")

/-- `read_udp_sockets`. -/
def readUdpSockets (p : ProcessFiles) : Except PyExc (List UdpSocketRow) := do
  let udp ← orOnOsError [] (p.udp >>= parseProcNetUdp)
  let udp6 ← orOnOsError [] (p.udp6 >>= parseProcNetUdp)
  return udp ++ udp6

/-- `read_cmdline`. -/
def commandLine (p : ProcessFiles) : Except PyExc Str := do
  let data ← readText p.cmdline
  return joined [' '] ((data.splitOn '\x00').filter (· ≠ []))

def isHexLower (c : Char) : Bool := ('0' ≤ c && c ≤ '9') || ('a' ≤ c && c ≤ 'f')

/-- `CONTAINER_ID_RE`: the first 64 hexadecimal digits in a row. -/
def findContainerId : Str → Str
  | [] => []
  | c :: rest =>
    let found := (c :: rest).take 64
    if found.length = 64 && found.all isHexLower then found else findContainerId rest

/-- `read_container_id`. -/
def containerId (p : ProcessFiles) : Except PyExc Str := do
  let text ← readText p.cgroup
  return findContainerId text

/-- `read_container_pid`: the last number of the `NSpid` line. -/
def containerPid (p : ProcessFiles) : Except PyExc ℤ := do
  let text ← readText p.status
  match (splitLines text).find? fun line => "NSpid:".toList.isPrefixOf line with
  | none => return p.pid
  | some line => return (((words line).getLast?.bind (parseInt 10)).getD p.pid)

/-- `read_namespace_id`. -/
def netnsId (p : ProcessFiles) : Except PyExc ℤ := do
  let target ← readText p.netNamespace
  return (numberInLink "net" target).getD 0

/-- The sockets one process contributes to a scan. -/
def sockets (p : ProcessFiles) (processName : Option Str) : Except PyExc (List ProcessSocket) := do
  let comm ← readText p.comm
  let name := strip comm
  if processName.any fun wanted => wanted ≠ [] && name ≠ wanted then return []
  else
    let inodes ← p.socketInodes
    if inodes = [] then return []
    else
      let commandLine ← p.commandLine
      let containerId ← p.containerId
      let containerPid ← p.containerPid
      let netnsId ← p.netnsId
      let rows ← p.readUdpSockets
      return (rows.filter fun row => row.socketInode ∈ inodes).map fun row => {
        hostPid := p.pid, containerPid, processName := name, commandLine, netnsId, containerId
        socketInode := row.socketInode, localIp := row.localIp, localPort := row.localPort
        remoteIp := row.remoteIp, remotePort := row.remotePort }

end ProcessFiles

/-- `ProcessSocketInventory.scan`. -/
def scan (processes : List ProcessFiles) (processName : Option Str) :
    Except PyExc (List ProcessSocket) := do
  let found ← processes.mapM fun p => p.sockets processName
  return found.flatten

end UdpAnalyzer

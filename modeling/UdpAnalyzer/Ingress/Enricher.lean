import UdpAnalyzer.Models

/-! Process enrichment of samples (`processes.py`, `ProcessSocketEnricher`). The
enricher keeps the last scan of the process table for a while; what a call of
`sockets()` meets outside, the clock and the scan, is an argument. Clock
readings are in nanoseconds. -/

namespace UdpAnalyzer

structure ProcessSocket where
  hostPid : ℤ
  containerPid : ℤ
  processName : Str
  commandLine : Str
  netnsId : ℤ
  containerId : Str
  socketInode : ℤ
  localIp : Str
  localPort : ℤ
  remoteIp : Str
  remotePort : ℤ
  deriving DecidableEq, Repr

/-- What one call of `sockets()` meets: `time.monotonic()`, and the result of
scanning the processes of a given name, or all of them. -/
structure SocketsCall where
  monotonic : ℤ
  scan : Option Str → Except PyExc (List ProcessSocket)

structure ProcessSocketEnricher where
  processName : Option Str := none
  cacheTtl : ℤ := 1000000000
  cacheAt : ℤ := 0
  cachedSockets : List ProcessSocket := []
  deriving DecidableEq

namespace ProcessSocketEnricher

/-- The cached scan, renewed when it is older than `cacheTtl`. -/
def sockets (en : ProcessSocketEnricher) (call : SocketsCall) :
    Except PyExc (List ProcessSocket) × ProcessSocketEnricher :=
  if call.monotonic - en.cacheAt > en.cacheTtl then
    match call.scan en.processName with
    | .error e => (.error e, en)
    | .ok found => (.ok found, { en with cachedSockets := found, cacheAt := call.monotonic })
  else (.ok en.cachedSockets, en)

end ProcessSocketEnricher

/-- `find_matches`: the sockets on the sample's destination. -/
def findMatches (sockets : List ProcessSocket) (sample : UdpSample) : List ProcessSocket :=
  sockets.filter fun row => row.localPort = sample.dstPort &&
    (row.localIp = "0.0.0.0".toList || row.localIp = sample.dstIp)

/-- `find_inode_matches`, for an inode that is not zero. -/
def findInodeMatches (sockets : List ProcessSocket) (socketInode : ℤ) : List ProcessSocket :=
  sockets.filter fun row => row.socketInode = socketInode

/-- The process columns of a row. -/
def UdpSample.withProcess (sample : UdpSample) (row : ProcessSocket) : UdpSample :=
  { sample with
    netnsId := row.netnsId
    containerId := row.containerId
    processName := row.processName
    hostPid := row.hostPid
    containerPid := row.containerPid }

namespace ProcessSocketEnricher

/-- Legacy enrichment by local address and port: the sample itself and one
delivered row for each match. -/
def enrich (en : ProcessSocketEnricher) (call : SocketsCall) (sample : UdpSample) :
    Except PyExc (List UdpSample) × ProcessSocketEnricher :=
  match en.sockets call with
  | (.error e, en) => (.error e, en)
  | (.ok found, en) =>
    (.ok (sample :: (findMatches found sample).map fun row =>
      { sample.withProcess row with layer := .delivered, socketId := row.socketInode }), en)

/-- The row a kernel-attributed sample becomes before the process columns. -/
def attributed (sample : UdpSample) (socketCookie : ℤ) : UdpSample :=
  { sample with layer := .delivered, socketId := socketCookie }

/-- The rows of a kernel-attributed sample, given the matches of its inode. -/
def attributedRows (sample : UdpSample) (socketCookie : ℤ) :
    List ProcessSocket → List UdpSample
  | [] => [attributed sample socketCookie]
  | matched => matched.map (attributed sample socketCookie).withProcess

/-- `enrich_exact`. A zero inode is not looked up at all, so `sockets()` is only
called for the others. -/
def enrichExact (en : ProcessSocketEnricher) (call : SocketsCall) (sample : UdpSample)
    (socketInode socketCookie : ℤ) : Except PyExc (List UdpSample) × ProcessSocketEnricher :=
  if socketInode = 0 then (.ok (attributedRows sample socketCookie []), en)
  else
    match en.sockets call with
    | (.error e, en) => (.error e, en)
    | (.ok found, en) =>
      (.ok (attributedRows sample socketCookie (findInodeMatches found socketInode)), en)

end ProcessSocketEnricher

end UdpAnalyzer

import UdpAnalyzer.Lib.Memory
import UdpAnalyzer.Lib.PerCpu
import UdpAnalyzer.Lib.Run

/-! The kernel side of the ingress collector (`udp_ingress.bpf.c`): one program that runs on
every incoming frame, on the CPU the frame arrives at. It either adds the frame to the
counters of its flow or to the counter of a reason for which it was not counted. The
program has no result where it loads outside `[data, data_end)`. -/

namespace UdpAnalyzer

/-- `struct udp_key`. The padding is zero in every key the program builds and is left to the
layout. -/
structure UdpKey where
  family : BitVec 8
  ipProto : BitVec 8
  srcPort : BitVec 16
  dstPort : BitVec 16
  ifindex : BitVec 32
  srcIp4 : BitVec 32
  dstIp4 : BitVec 32
  deriving DecidableEq, Repr

/-- `struct udp_counters`. -/
structure UdpCounters where
  packets : BitVec 64 := 0
  bytes : BitVec 64 := 0
  deriving DecidableEq, Repr

/-- `enum udp_drop_reason`. -/
inductive DropReason where
  | ethBounds | notIp | ipBounds | notUdp | ihlShort | udpBounds | pullFail | mapFull
  deriving DecidableEq, Repr

instance : Fintype DropReason :=
  ⟨{.ethBounds, .notIp, .ipBounds, .notUdp, .ihlShort, .udpBounds, .pullFail, .mapFull},
    by intro reason; cases reason <;> decide⟩

/-- `udp_ingress_counters` and `udp_ingress_drops`. -/
structure IngressMaps (n : ℕ) where
  counters : PerCpuMap n UdpKey UdpCounters := ∅
  drops : DropReason → Fin n → BitVec 64 := fun _ _ => 0

/-- `drop`. The array has every reason. -/
def IngressMaps.drop {n : ℕ} (maps : IngressMaps n) (cpu : Fin n) (reason : DropReason) :
    IngressMaps n :=
  let slots := Function.update (maps.drops reason) cpu (maps.drops reason cpu + 1)
  { maps with drops := Function.update maps.drops reason slots }

/-- A frame and the interface it came in at. -/
structure Frame where
  bytes : Bytes
  ifindex : BitVec 32
  deriving DecidableEq, Repr

/-- A frame that arrives at a CPU, with what the kernel makes of the requests of the program:
how many bytes are linear after `bpf_skb_pull_data`, if it succeeds, and whether there is
room for a new key. -/
structure Arrival (n : ℕ) where
  frame : Frame
  cpu : Fin n
  pulled : Option ℕ
  pulled_le : ∀ linear ∈ pulled, linear ≤ frame.bytes.length
  room : Bool

/-! ### The program -/

def ethHeaderBytes : ℕ := 14

def ipHeaderBytes : ℕ := 20

def udpHeaderBytes : ℕ := 8

/-- `UDP_HEADERS_BYTES`. -/
def udpHeadersBytes : ℕ := ethHeaderBytes + 60 + udpHeaderBytes

/-- `payload_bytes` for a value of the length field. -/
def payloadBytes (udpLen : BitVec 16) : BitVec 64 :=
  if udpHeaderBytes ≤ udpLen.toNat then udpLen.setWidth 64 - 8 else 0

/-- The headers as `account_udp4` reads them: the reason not to count the frame, or its key
and the bytes to add. -/
def parseUdp4 (ifindex : BitVec 32) (data : Bytes) :
    Option (Except DropReason (UdpKey × BitVec 64)) :=
  if ethHeaderBytes > data.length then some (.error .ethBounds)
  else do
    let hProto ← load16 data 12
    if ntohs hProto ≠ 0x0800 then some (.error .notIp)
    else if ethHeaderBytes + ipHeaderBytes > data.length then some (.error .ipBounds)
    else do
      let protocol ← load8 data (ethHeaderBytes + 9)
      if protocol ≠ 17 then some (.error .notUdp)
      else do
        let versionIhl ← load8 data ethHeaderBytes
        -- `ihl` is the lower half of the byte
        let ipBytes := (versionIhl &&& 0x0F).toNat * 4
        if ipBytes < ipHeaderBytes then some (.error .ihlShort)
        else
          let udp := ethHeaderBytes + ipBytes
          if udp + udpHeaderBytes > data.length then some (.error .udpBounds)
          else do
            let len ← load16 data (udp + 4)
            let source ← load16 data udp
            let dest ← load16 data (udp + 2)
            let saddr ← load32 data (ethHeaderBytes + 12)
            let daddr ← load32 data (ethHeaderBytes + 16)
            some (.ok ({
              family := 2, ipProto := 17, srcPort := ntohs source, dstPort := ntohs dest
              ifindex, srcIp4 := saddr, dstIp4 := daddr }, payloadBytes (ntohs len)))

section
variable {n : ℕ}

/-- The counters of a flow after one more frame. -/
def UdpCounters.count (value : UdpCounters) (payload : BitVec 64) : UdpCounters where
  packets := value.packets + 1
  bytes := value.bytes + payload

/-- `account_udp4` from the filled key on. -/
def countUdp4 (a : Arrival n) (key : UdpKey) (payload : BitVec 64) (maps : IngressMaps n) :
    IngressMaps n :=
  let counters :=
    if (maps.counters.lookupElem a.cpu key).isNone then
      maps.counters.updateNoExist a.room a.cpu key {} {}
    else maps.counters
  match counters.lookupElem a.cpu key with
  | none => IngressMaps.drop { maps with counters } a.cpu .mapFull
  | some value => { maps with counters := counters.writeSlot a.cpu key (value.count payload) }

/-- `account_udp4`. -/
def accountUdp4 (a : Arrival n) (data : Bytes) (maps : IngressMaps n) : Option (IngressMaps n) := do
  match ← parseUdp4 a.frame.ifindex data with
  | .error reason => some (maps.drop a.cpu reason)
  | .ok (key, payload) => some (countUdp4 a key payload maps)

/-- `udp_ingress`. -/
def udpIngress (maps : IngressMaps n) (a : Arrival n) : Option (IngressMaps n) :=
  match a.pulled with
  | none => some (maps.drop a.cpu .pullFail)
  | some linear => accountUdp4 a (a.frame.bytes.take linear) maps

/-- The maps after the frames that came in so far. -/
def ingressRun (arrivals : List (Arrival n)) : Option (IngressMaps n) := arrivals.foldlM udpIngress {}

end

/-! ### The headers of a frame -/

namespace Frame

variable (frame : Frame)

def etherType : ℕ := be16At frame.bytes 12

def version : ℕ := byteAt frame.bytes 14 / 16

/-- The length of the IP header in words of four bytes. -/
def ihl : ℕ := byteAt frame.bytes 14 % 16

/-- The flag that more fragments follow. -/
def moreFragments : Bool := be16At frame.bytes 20 / 2 ^ 13 % 2 = 1

/-- The place of a fragment in its datagram, in units of eight bytes. -/
def fragmentOffset : ℕ := be16At frame.bytes 20 % 2 ^ 13

def protocol : ℕ := byteAt frame.bytes 23

/-- Where the header behind the IP header starts. -/
def transport : ℕ := 14 + 4 * frame.ihl

def udpLength : ℕ := be16At frame.bytes (frame.transport + 4)

/-- The addresses and ports in the headers of the frame, with its interface. -/
def ownKey : UdpKey where
  family := 2
  ipProto := 17
  srcPort := BitVec.ofNat 16 (be16At frame.bytes frame.transport)
  dstPort := BitVec.ofNat 16 (be16At frame.bytes (frame.transport + 2))
  ifindex := frame.ifindex
  srcIp4 := BitVec.ofNat 32 (le32At frame.bytes 26)
  dstIp4 := BitVec.ofNat 32 (le32At frame.bytes 30)

end Frame

end UdpAnalyzer

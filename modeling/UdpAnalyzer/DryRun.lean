import UdpAnalyzer.Channel.Collector
import UdpAnalyzer.Ingress.Enricher

/-! The collectors that need no kernel (`collectors.py`, `tcp_channel.py`,
`udp_channel.py`): a checkpoint makes its rows up from a counter of the checkpoints so far. -/

namespace UdpAnalyzer

/-! ### Ingress rows -/

structure DryRunStream where
  srcIp : Str
  dstIp : Str
  srcPort : ℤ
  dstPort : ℤ
  ifindex : ℤ
  ifname : Str
  payloadSize : ℤ
  packetBase : ℤ
  layer : Layer
  containerId : Str := []
  processName : Str := []
  hostPid : ℤ := 0
  containerPid : ℤ := 0
  socketId : ℤ := 0

structure DryRunCollector where
  bucketMs : ℤ
  sampleFilter : SampleFilter := {}
  tick : ℤ := 0

namespace DryRunCollector

def streams : List DryRunStream := [
  { srcIp := "192.0.2.10".toList, dstIp := "198.51.100.20".toList, srcPort := 40000, dstPort := 5000
    ifindex := 2, ifname := "eth0".toList, payloadSize := 1316, packetBase := 100
    layer := .delivered, containerId := "demo-ffmpeg".toList, processName := "ffmpeg".toList
    hostPid := 4242, containerPid := 101, socketId := 500001 },
  { srcIp := "192.0.2.11".toList, dstIp := "198.51.100.20".toList, srcPort := 40010, dstPort := 5001
    ifindex := 2, ifname := "eth0".toList, payloadSize := 1200, packetBase := 75
    layer := .delivered, containerId := "demo-ffmpeg".toList, processName := "ffmpeg".toList
    hostPid := 4243, containerPid := 102, socketId := 500002 },
  { srcIp := "192.0.2.12".toList, dstIp := "198.51.100.20".toList, srcPort := 40020, dstPort := 5999
    ifindex := 2, ifname := "eth0".toList, payloadSize := 512, packetBase := 12
    layer := .ingress }]

/-- The row of the stream at an index. -/
def streamSample (c : DryRunCollector) (bucketNs : ℤ) (stream : DryRunStream) (index : ℕ) :
    UdpSample :=
  let packets := stream.packetBase + c.tick + index
  { bucketStartNs := bucketNs, bucketMs := c.bucketMs, srcIp := stream.srcIp
    dstIp := stream.dstIp, srcPort := stream.srcPort, dstPort := stream.dstPort
    ifindex := stream.ifindex, ifname := stream.ifname, packets
    bytes := packets * stream.payloadSize, layer := stream.layer
    containerId := stream.containerId, processName := stream.processName
    hostPid := stream.hostPid, containerPid := stream.containerPid, socketId := stream.socketId }

/-- `DryRunCollector.read_checkpoint`, at a clock reading. -/
def readCheckpoint (c : DryRunCollector) (nowNs : ℤ) :
    Except PyExc (List UdpSample) × DryRunCollector :=
  let bucketNs := bucketStartNs nowNs c.bucketMs
  let c := { c with tick := c.tick + 1 }
  let samples := streams.zipIdx.map fun (stream, index) => c.streamSample bucketNs stream index
  (.ok (samples.filter c.sampleFilter.matchesSample), c)

end DryRunCollector

/-! ### Channel rows -/

structure ChannelDryRunCollector where
  catalog : ChannelCatalog
  bucketMs : ℤ
  sampleFilter : ChannelSampleFilter := {}
  tick : ℤ := 0

namespace ChannelDryRunCollector

/-- One checkpoint of a row that depends on the first target, or on a demonstration target
where there is none. -/
def checkpoint (demoTarget : ChannelTarget)
    (row : ChannelDryRunCollector → ℤ → ChannelTarget → ChannelSample) (c : ChannelDryRunCollector)
    (nowNs : ℤ) : Except PyExc (List ChannelSample) × ChannelDryRunCollector :=
  let bucketNs := bucketStartNs nowNs c.bucketMs
  let c := { c with tick := c.tick + 1 }
  let sample := row c bucketNs (c.catalog.targets.head?.getD demoTarget)
  (.ok ([sample].filter c.sampleFilter.matchesSample), c)

end ChannelDryRunCollector

namespace TcpChannelDryRunCollector

def demoTarget : ChannelTarget where
  channel := "demo-channel".toList
  unit := "demo-channel.service".toList
  url := "https://api.example.com/demo".toList
  scheme := "https".toList
  host := "api.example.com".toList
  port := 443
  path := "/demo".toList
  addresses := ["203.0.113.10".toList]

def row (c : ChannelDryRunCollector) (bucketNs : ℤ) (target : ChannelTarget) : ChannelSample where
  bucketStartNs := bucketNs
  bucketMs := c.bucketMs
  srcIp := "10.0.0.10".toList
  dstIp := target.addresses.head?.getD "203.0.113.10".toList
  srcPort := 40000 + c.tick
  dstPort := target.port
  socketId := 900000 + c.tick
  cgroupId := 12345
  txBytes := 1200 + c.tick
  rxBytes := 64000 + c.tick
  txCalls := 2
  rxCalls := 8
  connections := if c.tick = 1 then 1 else 0
  unit := target.unit
  channel := target.channel
  url := target.url
  host := target.host
  ifindex := 0
  ifname := []
  hostPid := 4242
  state := 0
  status := .matched
  layer := .tcpChannel
  ipProto := 6

/-- `TcpChannelDryRunCollector.read_checkpoint`. -/
def readCheckpoint : ChannelDryRunCollector → ℤ →
    Except PyExc (List ChannelSample) × ChannelDryRunCollector :=
  ChannelDryRunCollector.checkpoint demoTarget row

end TcpChannelDryRunCollector

namespace UdpChannelDryRunCollector

def demoTarget : ChannelTarget where
  channel := "demo-tv".toList
  unit := "demo-tv.service".toList
  url := "udp://@239.239.16.2:1234".toList
  scheme := "udp".toList
  host := "239.239.16.2".toList
  port := 1234
  path := "/".toList
  addresses := ["239.239.16.2".toList]

/-- A multicast receiver: bound to the group, without a peer. -/
def row (c : ChannelDryRunCollector) (bucketNs : ℤ) (target : ChannelTarget) : ChannelSample :=
  let group := target.addresses.head?.getD "239.239.16.2".toList
  { bucketStartNs := bucketNs, bucketMs := c.bucketMs, srcIp := group, dstIp := group
    srcPort := target.port, dstPort := target.port, socketId := 900000 + c.tick, cgroupId := 12345
    txBytes := 0, rxBytes := 390000 + c.tick, txCalls := 0, rxCalls := 227, connections := 0
    unit := target.unit, channel := target.channel, url := target.url, host := target.host
    ifindex := 0, ifname := [], hostPid := 4242, state := 0, status := .matched
    layer := .udpChannel, ipProto := 17 }

/-- `UdpChannelDryRunCollector.read_checkpoint`. -/
def readCheckpoint : ChannelDryRunCollector → ℤ →
    Except PyExc (List ChannelSample) × ChannelDryRunCollector :=
  ChannelDryRunCollector.checkpoint demoTarget row

end UdpChannelDryRunCollector

end UdpAnalyzer

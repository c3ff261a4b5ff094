import FocusGuard.Network.Flows
import Mathlib.Data.List.DropRight
import Mathlib.Logic.Function.Basic

/-!
# The packet monitor

The two ways in which packets get into `PacketMonitorEngine` of `focusguard/network/monitor.py`. A
call takes an identifier under the lock, builds its packet, has the flow tracker count it, and
records it under the lock again; calls of several threads are interleaved at these steps.
-/

namespace FocusGuard

structure PacketMonitorEngine where
  maxBufferSize : Nat := 500
  interface : Text := "any"
  flowTracker : FlowTracker
  packetIdSeq : Nat := 0
  buffer : List PacketMetadata := []
  totalPackets : Nat := 0
  totalBytes : Nat := 0
  tcpPackets : Nat := 0
  udpPackets : Nat := 0
  icmpPackets : Nat := 0
  otherPackets : Nat := 0
  inboundBytes : Nat := 0
  outboundBytes : Nat := 0

/-- The arguments of `process_raw_frame` and of `ingest_dns_event`. -/
inductive Ingestion where
  | processRawFrame (rawData : Bytes) (interface : Text) (hasEthernet : Bool)
  | ingestDnsEvent (clientIp serverIp : Text) (dstPort : Int) (protocol qname : Text)
      (isBlocked : Bool)

structure Device where
  ip : Text
  hostname : Text

/-- What a call reads while it builds its packet. -/
structure IngestEnv where
  timestamp : Text
  localIps : List Text
  /-- `get_all_devices()`; `none` without a device tracker. -/
  devices : Option (List Device)

/-! ## Building a packet -/

def usesPort (pkt : PacketMetadata) (ports : List Int) : Bool :=
  pkt.dstPort.getD 0 ∈ ports ∨ pkt.srcPort.getD 0 ∈ ports

/-- The label and the action that the ports of a packet call for. -/
def portPolicy (pkt : PacketMetadata) : Option (Text × Text) :=
  if pkt.protocol = ("UDP" : Text) ∧ usesPort pkt [51820] then
    some ("WireGuard Tunnel (Port 51820)", "MATCH")
  else if usesPort pkt [1194] then some ("OpenVPN Tunnel (Port 1194)", "MATCH")
  else if pkt.protocol = ("UDP" : Text) ∧ usesPort pkt [500, 4500] then
    some ("IPsec IKE/NAT-T (Port 500/4500)", "MATCH")
  else if usesPort pkt [53] then some ("DNS Traffic (Port 53)", "OBSERVED")
  else if usesPort pkt [853] then some ("DoT Tunnel (Port 853)", "MATCH")
  else if usesPort pkt [443] then some ("HTTPS/QUIC Web Flow", "OBSERVED")
  else none

/-- `_correlate_policy(pkt)`. -/
def correlatePolicy (pkt : PacketMetadata) : PacketMetadata :=
  match portPolicy pkt with
  | some (policyMatch, policyAction) => { pkt with policyMatch := some policyMatch, policyAction }
  | none => { pkt with policyAction := "OBSERVED" }

/-- The name of the first device with the source address. -/
def nameDevice (devices : Option (List Device)) (pkt : PacketMetadata) : PacketMetadata :=
  if pkt.srcIp = [] then pkt
  else
    match (devices.getD []).find? fun d => d.ip = pkt.srcIp with
    | some d => { pkt with deviceName := some d.hostname }
    | none => pkt

variable (net : Addresses)

namespace PacketMonitorEngine

def dnsPacket (e : PacketMonitorEngine) (env : IngestEnv) (pktId : Nat)
    (clientIp serverIp : Text) (dstPort : Int) (protocol qname : Text) (isBlocked : Bool) :
    PacketMetadata where
  id := pktId
  timestamp := env.timestamp
  interface := if e.interface ≠ ("any" : Text) then e.interface else "eth0"
  direction := determineDirection net clientIp serverIp env.localIps
  ipVersion := if '.' ∈ clientIp then "IPv4" else "IPv6"
  srcIp := clientIp
  dstIp := serverIp
  protocol := protocol
  srcPort := some (52000 + pktId % 10000)
  dstPort := some dstPort
  length := 64
  ttl := some 64
  policyMatch := if qname ≠ [] then some (("DNS (" : Text) ++ qname ++ [')'])
    else some "DNS Traffic (Port 53)"
  policyAction := if isBlocked then "MATCH" else "OBSERVED"

/-- What a call does between its first locked block and the flow tracker. -/
def build (e : PacketMonitorEngine) (env : IngestEnv) (pktId : Nat) :
    Ingestion → Except ReadError (Option PacketMetadata)
  | .processRawFrame rawData interface hasEthernet =>
    (PacketParser.parse net pktId env.timestamp interface env.localIps rawData hasEthernet).map
      (Option.map fun pkt => correlatePolicy (nameDevice env.devices pkt))
  | .ingestDnsEvent clientIp serverIp dstPort protocol qname isBlocked =>
    .ok (some (nameDevice env.devices
      (e.dnsPacket net env pktId clientIp serverIp dstPort protocol qname isBlocked)))

/-! ## The locked blocks -/

def takeId (e : PacketMonitorEngine) : PacketMonitorEngine :=
  { e with packetIdSeq := e.packetIdSeq + 1 }

/-- The first lines of both last blocks. -/
def append (e : PacketMonitorEngine) (pkt : PacketMetadata) : PacketMonitorEngine :=
  { e with
    buffer := (e.buffer ++ [pkt]).rtake e.maxBufferSize
    totalPackets := e.totalPackets + 1
    totalBytes := e.totalBytes + pkt.length }

/-- A frame is classified by what its protocol starts with. -/
def countFrame (e : PacketMonitorEngine) (pkt : PacketMetadata) : PacketMonitorEngine :=
  if ("TCP" : Text) <+: pkt.protocol then { e with tcpPackets := e.tcpPackets + 1 }
  else if ("UDP" : Text) <+: pkt.protocol then { e with udpPackets := e.udpPackets + 1 }
  else if ("ICMP" : Text) <+: pkt.protocol then { e with icmpPackets := e.icmpPackets + 1 }
  else { e with otherPackets := e.otherPackets + 1 }

def countFrameBytes (e : PacketMonitorEngine) (pkt : PacketMetadata) : PacketMonitorEngine :=
  if ("IN" : Text) <:+: pkt.direction ∨ ("WAN → LAN" : Text) <:+: pkt.direction then
    { e with inboundBytes := e.inboundBytes + pkt.length }
  else { e with outboundBytes := e.outboundBytes + pkt.length }

/-- A DNS event is UDP or else TCP, and outbound. -/
def countDnsEvent (e : PacketMonitorEngine) (pkt : PacketMetadata) : PacketMonitorEngine :=
  let e :=
    if pkt.protocol = ("UDP" : Text) then { e with udpPackets := e.udpPackets + 1 }
    else { e with tcpPackets := e.tcpPackets + 1 }
  { e with outboundBytes := e.outboundBytes + pkt.length }

def record (e : PacketMonitorEngine) (pkt : PacketMetadata) : Ingestion → PacketMonitorEngine
  | .processRawFrame .. => ((e.append pkt).countFrame pkt).countFrameBytes pkt
  | .ingestDnsEvent .. => (e.append pkt).countDnsEvent pkt

/-! ## Reading -/

/-- `list(self._buffer)[-limit:]`; `[-0:]` is the whole list. -/
def getRecentPackets (e : PacketMonitorEngine) (limit : Nat := 20) : List PacketMetadata :=
  if limit = 0 then e.buffer else e.buffer.rtake limit

def getPacketById (e : PacketMonitorEngine) (packetId : Int) : Option Json :=
  (e.buffer.find? fun p => (p.id : Int) = packetId).map PacketMetadata.toDict

end PacketMonitorEngine

/-! ## Threads -/

/-- Where a thread is in a call. -/
inductive IngestPhase where
  | idle
  | numbered (call : Ingestion) (pktId : Nat)
  | built (call : Ingestion) (pkt : PacketMetadata)
  | tracked (call : Ingestion) (pkt : PacketMetadata)

/-- The steps of the threads; `number` and `record` are the locked blocks, and `track` is that of
the flow tracker. -/
inductive IngestEvent (T : Type) where
  | number (thread : T) (call : Ingestion) (pktId : Nat)
  | build (thread : T) (env : IngestEnv)
  | track (thread : T) (now : ℚ)
  | record (thread : T) (pkt : PacketMetadata)

structure Monitoring (T : Type) where
  engine : PacketMonitorEngine
  phase : T → IngestPhase

namespace Monitoring

variable {T : Type} [DecidableEq T]

def moved (s : Monitoring T) (thread : T) (phase : IngestPhase) : Monitoring T :=
  { s with phase := Function.update s.phase thread phase }

/-- One step of one thread. A call whose frame is rejected, or that raises, ends there. -/
inductive Step : Monitoring T → IngestEvent T → Monitoring T → Prop where
  | number {s : Monitoring T} {thread : T} (call : Ingestion) : s.phase thread = .idle →
      Step s (.number thread call s.engine.takeId.packetIdSeq)
        { s.moved thread (.numbered call s.engine.takeId.packetIdSeq) with
          engine := s.engine.takeId }
  | build {s : Monitoring T} {thread : T} {call : Ingestion} {pktId : Nat} {env : IngestEnv}
      {pkt : PacketMetadata} : s.phase thread = .numbered call pktId →
      s.engine.build net env pktId call = .ok (some pkt) →
      Step s (.build thread env) (s.moved thread (.built call pkt))
  | rejected {s : Monitoring T} {thread : T} {call : Ingestion} {pktId : Nat} {env : IngestEnv} :
      s.phase thread = .numbered call pktId →
      (∀ pkt, s.engine.build net env pktId call ≠ .ok (some pkt)) →
      Step s (.build thread env) (s.moved thread .idle)
  | track {s : Monitoring T} {thread : T} {call : Ingestion} {pkt : PacketMetadata} {now : ℚ}
      {flow : Option PacketFlow} {t : FlowTracker} : s.phase thread = .built call pkt →
      FlowTracker.recordPacket net now pkt s.engine.flowTracker = (.ok flow, t) →
      Step s (.track thread now)
        { s.moved thread (.tracked call pkt) with engine := { s.engine with flowTracker := t } }
  | raised {s : Monitoring T} {thread : T} {call : Ingestion} {pkt : PacketMetadata} {now : ℚ}
      {e : ReadError} {t : FlowTracker} : s.phase thread = .built call pkt →
      FlowTracker.recordPacket net now pkt s.engine.flowTracker = (.error e, t) →
      Step s (.track thread now)
        { s.moved thread .idle with engine := { s.engine with flowTracker := t } }
  | record {s : Monitoring T} {thread : T} {call : Ingestion} {pkt : PacketMetadata} :
      s.phase thread = .tracked call pkt →
      Step s (.record thread pkt)
        { s.moved thread .idle with engine := s.engine.record pkt call }

/-- No call has been made. -/
def initial (maxBufferSize : Nat) (interface : Text) (flowTracker : FlowTracker) :
    Monitoring T where
  engine := { maxBufferSize, interface, flowTracker }
  phase _ := .idle

end Monitoring

end FocusGuard

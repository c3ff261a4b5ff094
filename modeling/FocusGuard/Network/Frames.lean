import FocusGuard.Network.Packets

/-!
# Frames on the wire

Ethernet II frames as the standards lay them out, apart from the decoder: IPv4 with options, IPv6
without extension headers and ARP, with TCP, UDP, ICMP, ICMPv6 or any other protocol inside. Fields
that the decoder does not look at may hold anything.

## Main definitions

* `Frame`, `Frame.encode`.
* `Datagram.Decoded`: the metadata says what the datagram does.
-/

namespace FocusGuard

open Bytes

/-- So many bytes. -/
abbrev Octets (n : Nat) := { b : Bytes // b.length = n }

/-! ## Transport headers -/

/-- The flags of a TCP header, from the lowest bit on. -/
inductive TcpFlag where
  | fin | syn | rst | psh | ack | urg | ece | cwr
  deriving DecidableEq

namespace TcpFlag

def all : List TcpFlag := [fin, syn, rst, psh, ack, urg, ece, cwr]

def bit : TcpFlag → Nat
  | fin => 0
  | syn => 1
  | rst => 2
  | psh => 3
  | ack => 4
  | urg => 5
  | ece => 6
  | cwr => 7

def name : TcpFlag → Text
  | fin => "FIN"
  | syn => "SYN"
  | rst => "RST"
  | psh => "PSH"
  | ack => "ACK"
  | urg => "URG"
  | ece => "ECE"
  | cwr => "CWR"

/-- The flags that are reported, in their order. -/
def reported : List TcpFlag := [syn, ack, fin, rst, psh, urg]

/-- The byte in which these flags are set. -/
def byte (flags : TcpFlag → Bool) : UInt8 :=
  Bytes.byte ((all.map fun f => if flags f then 2 ^ f.bit else 0).sum)

end TcpFlag

/-- The protocols that the decoder looks into. -/
def knownProtocols : List Nat := [6, 17, 1, 58]

/-- A transport header up to what is looked at; options, the payload and trailing bytes follow. -/
inductive Segment where
  | tcp (srcPort dstPort : UInt16) (seq ack : UInt32) (dataOffset : UInt8)
      (flags : TcpFlag → Bool) (window checksum urgent : UInt16)
  | udp (srcPort dstPort length checksum : UInt16)
  | icmp (type code : UInt8)
  | icmpv6 (type code : UInt8)
  | other (protocol : UInt8) (h : protocol.toNat ∉ knownProtocols)

namespace Segment

/-- The protocol number. -/
def protocol : Segment → UInt8
  | tcp .. => 6
  | udp .. => 17
  | icmp .. => 1
  | icmpv6 .. => 58
  | other protocol _ => protocol

def encode : Segment → Bytes
  | tcp srcPort dstPort seq ack dataOffset flags window checksum urgent =>
    word16 srcPort.toNat ++ word16 dstPort.toNat ++ word32 seq.toNat ++ word32 ack.toNat ++
      [dataOffset, TcpFlag.byte flags] ++ word16 window.toNat ++ word16 checksum.toNat ++
      word16 urgent.toNat
  | udp srcPort dstPort length checksum =>
    word16 srcPort.toNat ++ word16 dstPort.toNat ++ word16 length.toNat ++ word16 checksum.toNat
  | icmp type code => [type, code]
  | icmpv6 type code => [type, code]
  | other _ _ => []

/-- The label of a control message; an echo request or reply is an echo. -/
def controlLabel (name : Text) (request reply : Nat) (type : UInt8) : Text :=
  if type.toNat = request ∨ type.toNat = reply then name ++ (" Echo" : Text)
  else name ++ (" (" : Text) ++ decimalText type.toNat ++ (")" : Text)

def label : Segment → Text
  | tcp .. => "TCP"
  | udp .. => "UDP"
  | icmp type _ => controlLabel "ICMP" 8 0 type
  | icmpv6 type _ => controlLabel "ICMPv6" 128 129 type
  | other protocol _ => ("Proto:" : Text) ++ decimalText protocol.toNat

/-- The source and the destination port. -/
def ports : Segment → Option (UInt16 × UInt16)
  | tcp srcPort dstPort .. => some (srcPort, dstPort)
  | udp srcPort dstPort .. => some (srcPort, dstPort)
  | _ => none

def flags : Segment → List TcpFlag
  | tcp _ _ _ _ _ flags _ _ _ => TcpFlag.reported.filter flags
  | _ => []

end Segment

/-! ## Network headers -/

/-- An IPv4 header. `flags` is the reserved bit and "don't fragment"; neither more fragments follow
nor is there an offset. -/
structure Ipv4Header where
  tos : UInt8
  totalLength : UInt16
  identification : UInt16
  flags : Fin 4
  ttl : UInt8
  checksum : UInt16
  src : Octets 4
  dst : Octets 4
  ihl : Nat
  ihl_ge : 5 ≤ ihl
  ihl_le : ihl ≤ 15
  options : Octets ((ihl - 5) * 4)

def Ipv4Header.encode (h : Ipv4Header) (protocol : UInt8) : Bytes :=
  [byte (4 * 16 + h.ihl), h.tos] ++ word16 h.totalLength.toNat ++
    word16 h.identification.toNat ++ word16 (h.flags * 16384) ++ [h.ttl, protocol] ++
    word16 h.checksum.toNat ++ h.src.val ++ h.dst.val ++ h.options.val

/-- An IPv6 header; `flow` is the traffic class and the flow label. -/
structure Ipv6Header where
  flow : Fin (2 ^ 28)
  payloadLength : UInt16
  hopLimit : UInt8
  src : Octets 16
  dst : Octets 16

def Ipv6Header.encode (h : Ipv6Header) (nextHeader : UInt8) : Bytes :=
  word32 (6 * 2 ^ 28 + h.flow) ++ word16 h.payloadLength.toNat ++ [nextHeader, h.hopLimit] ++
    h.src.val ++ h.dst.val

/-- An ARP packet for IPv4 over Ethernet. -/
structure ArpPacket where
  opcode : UInt16
  senderMac : Octets 6
  src : Octets 4
  targetMac : Octets 6
  dst : Octets 4

def ArpPacket.encode (a : ArpPacket) : Bytes :=
  word16 1 ++ word16 0x0800 ++ [6, 4] ++ word16 a.opcode.toNat ++ a.senderMac.val ++ a.src.val ++
    a.targetMac.val ++ a.dst.val

def ArpPacket.label (a : ArpPacket) : Text :=
  if a.opcode.toNat = 1 then "ARP (Req)" else if a.opcode.toNat = 2 then "ARP (Rep)" else "ARP"

inductive Datagram where
  | ipv4 (header : Ipv4Header) (segment : Segment)
  | ipv6 (header : Ipv6Header) (segment : Segment)
  | arp (packet : ArpPacket)

/-- Four numbers with dots between them. -/
def dottedQuad (address : Octets 4) : Text :=
  Text.join '.' (address.val.map fun b => decimalText b.toNat)

namespace Datagram

def ethertype : Datagram → Nat
  | ipv4 .. => 0x0800
  | ipv6 .. => 0x86DD
  | arp _ => 0x0806

def encode : Datagram → Bytes
  | ipv4 header segment => header.encode segment.protocol ++ segment.encode
  | ipv6 header segment => header.encode segment.protocol ++ segment.encode
  | arp packet => packet.encode

def version : Datagram → Text
  | ipv4 .. => "IPv4"
  | ipv6 .. => "IPv6"
  | arp _ => "ARP"

/-- The text of the source address; that of an IPv6 address is the library's. -/
def srcText (net : Addresses) : Datagram → Option Text
  | ipv4 header _ => some (dottedQuad header.src)
  | ipv6 header _ => net.ipv6Address header.src
  | arp packet => some (dottedQuad packet.src)

def dstText (net : Addresses) : Datagram → Option Text
  | ipv4 header _ => some (dottedQuad header.dst)
  | ipv6 header _ => net.ipv6Address header.dst
  | arp packet => some (dottedQuad packet.dst)

/-- The time to live, or the hop limit. -/
def ttl : Datagram → Option Nat
  | ipv4 header _ => some header.ttl.toNat
  | ipv6 header _ => some header.hopLimit.toNat
  | arp _ => none

def label : Datagram → Text
  | ipv4 _ segment => segment.label
  | ipv6 _ segment => segment.label
  | arp packet => packet.label

def ports : Datagram → Option (UInt16 × UInt16)
  | ipv4 _ segment => segment.ports
  | ipv6 _ segment => segment.ports
  | arp _ => none

def flags : Datagram → List TcpFlag
  | ipv4 _ segment => segment.flags
  | ipv6 _ segment => segment.flags
  | arp _ => []

/-- The metadata of a frame of this length says what the datagram does. -/
structure Decoded (net : Addresses) (length : Nat) (d : Datagram) (p : PacketMetadata) : Prop where
  ipVersion : p.ipVersion = d.version
  srcIp : d.srcText net = some p.srcIp
  dstIp : d.dstText net = some p.dstIp
  ttl : p.ttl = d.ttl
  protocol : p.protocol = d.label
  srcPort : p.srcPort = d.ports.map fun ports => (ports.1.toNat : Int)
  dstPort : p.dstPort = d.ports.map fun ports => (ports.2.toNat : Int)
  tcpFlags : p.tcpFlags = d.flags.map TcpFlag.name
  length : p.length = length

end Datagram

/-! ## Frames -/

structure Frame where
  dstMac : Octets 6
  srcMac : Octets 6
  datagram : Datagram
  /-- Transport options, the payload and trailing bytes. -/
  rest : Bytes

def Frame.encode (f : Frame) : Bytes :=
  f.dstMac.val ++ f.srcMac.val ++ word16 f.datagram.ethertype ++ f.datagram.encode ++ f.rest

end FocusGuard

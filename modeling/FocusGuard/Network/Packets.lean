import FocusGuard.Lib.Json
import FocusGuard.Lib.Reader

/-!
# Packets

The decoder of `focusguard/network/packets.py`. It reads slices of the frame; a read that leaves
the frame raises. The clock and `ipaddress` come from outside.

## Main definitions

* `PacketMetadata`, `determineDirection`.
* `PacketParser.parse`.
-/

namespace FocusGuard

/-- What `ipaddress` says of an address. -/
structure AddressKind where
  isPrivate : Bool
  isLoopback : Bool
  isLinkLocal : Bool

/-- The part of `ipaddress` that the decoder uses. -/
structure Addresses where
  /-- `ip_address(text)`; `none` for a `ValueError`. -/
  ipAddress : Text → Option AddressKind
  /-- `str(IPv6Address(raw))`; `none` if that raises. -/
  ipv6Address : Bytes → Option Text

/-- A library that knows no address. -/
def noAddresses : Addresses := ⟨fun _ => none, fun _ => none⟩

/-- What reading in a frame, or in a list, raises. -/
inductive ReadError where
  | indexError
  | structError
  deriving DecidableEq

structure PacketMetadata where
  id : Nat
  timestamp : Text
  interface : Text
  direction : Text
  ipVersion : Text
  srcIp : Text
  dstIp : Text
  protocol : Text
  srcPort : Option Int := none
  dstPort : Option Int := none
  length : Nat := 0
  ttl : Option Nat := none
  tcpFlags : List Text := []
  deviceName : Option Text := none
  policyMatch : Option Text := none
  policyAction : Text := "OBSERVED"
  rawPreview : Option Text := none
  deriving DecidableEq

def PacketMetadata.toDict (p : PacketMetadata) : Json := .obj [
  ("id", .int p.id), ("timestamp", .str p.timestamp), ("interface", .str p.interface),
  ("direction", .str p.direction), ("ip_version", .str p.ipVersion), ("src_ip", .str p.srcIp),
  ("dst_ip", .str p.dstIp), ("protocol", .str p.protocol),
  ("src_port", (p.srcPort.map Json.int).getD .null),
  ("dst_port", (p.dstPort.map Json.int).getD .null), ("length", .int p.length),
  ("ttl", (p.ttl.map fun n => Json.int n).getD .null), ("tcp_flags", .ofTexts p.tcpFlags),
  ("device_name", .ofOptText p.deviceName), ("policy_match", .ofOptText p.policyMatch),
  ("policy_action", .str p.policyAction), ("raw_preview", .ofOptText p.rawPreview)]

/-! ## Bytes as text -/

/-- `str(n)`. -/
def decimalText (n : Nat) : Text := Nat.toDigits 10 n

/-- `f"{b:02x}"`. -/
def hexOctet (b : UInt8) : Text := [Nat.digitChar (b.toNat / 16), Nat.digitChar (b.toNat % 16)]

/-- Hex and ASCII, the hex padded to three characters a byte. -/
def formatHexPreview (data : Bytes) (maxBytes : Nat := 32) : Text :=
  let sample := data.take maxBytes
  let hexStr := Text.join ' ' (sample.map hexOctet)
  let asciiStr := sample.map fun b =>
    if 32 ≤ b.toNat ∧ b.toNat ≤ 126 then Char.ofNat b.toNat else '.'
  hexStr ++ List.replicate (maxBytes * 3 - hexStr.length) ' ' ++ (" | " : Text) ++ asciiStr

/-! ## Reading -/

/-- `data[i]`. -/
def byteAt (data : Bytes) (i : Nat) : Except ReadError UInt8 :=
  match data[i]? with
  | some b => .ok b
  | none => .error .indexError

/-- `struct.unpack("!H", data[i:i + 2])[0]`. -/
def unpack16 (data : Bytes) (i : Nat) : Except ReadError Nat :=
  match Bytes.get16 data i with
  | some n => .ok n
  | none => .error .structError

theorem unpack16_of_le (data : Bytes) (i : Nat) (h : i + 2 ≤ data.length) :
    ∃ n, Bytes.get16 data i = some n ∧ unpack16 data i = .ok n := by
  obtain ⟨n, hn⟩ := Bytes.get16_isSome h
  exact ⟨n, hn, by rw [unpack16, hn]⟩

/-- `data[i:j]`. -/
def slice (data : Bytes) (i j : Nat) : Bytes := (data.drop i).take (j - i)

def socketInetNtoa (rawBytes : Bytes) : Except ReadError Text := do
  let a ← byteAt rawBytes 0
  let b ← byteAt rawBytes 1
  let c ← byteAt rawBytes 2
  let d ← byteAt rawBytes 3
  .ok (Text.join '.' ([a, b, c, d].map fun x => decimalText x.toNat))

/-- The groups that stand in where `ipaddress` raises. -/
def hextets (rawBytes : Bytes) : Except ReadError (List Text) :=
  [0, 2, 4, 6, 8, 10, 12, 14].mapM fun i => do
    let a ← byteAt rawBytes i
    let b ← byteAt rawBytes (i + 1)
    .ok (hexOctet a ++ hexOctet b)

variable (net : Addresses)

def socketInetNtop6 (rawBytes : Bytes) : Except ReadError Text :=
  match net.ipv6Address rawBytes with
  | some t => .ok t
  | none => (hextets rawBytes).map (Text.join ':')

/-! ## Directions -/

def isPrivateIp (ipStr : Text) : Bool :=
  match net.ipAddress ipStr with
  | some ip => ip.isPrivate ∨ ip.isLoopback ∨ ip.isLinkLocal
  | none => false

def determineDirection (srcIp dstIp : Text) (localIps : List Text) : Text :=
  if srcIp ∈ localIps then "OUTBOUND (LOCAL)"
  else if dstIp ∈ localIps then "INBOUND (LOCAL)"
  else if isPrivateIp net srcIp ∧ ¬ isPrivateIp net dstIp then "LAN → WAN"
  else if ¬ isPrivateIp net srcIp ∧ isPrivateIp net dstIp then "WAN → LAN"
  else if isPrivateIp net srcIp ∧ isPrivateIp net dstIp then "LAN (LOCAL)"
  else "FORWARDED"

/-! ## Headers -/

namespace PacketParser

/-- What is read off a transport header. -/
structure Transport where
  protocol : Text
  srcPort : Option Nat := none
  dstPort : Option Nat := none
  tcpFlags : List Text := []

/-- The flags in the order in which they are tested. -/
def flagMasks : List (UInt8 × Text) :=
  [(0x02, "SYN"), (0x10, "ACK"), (0x01, "FIN"), (0x04, "RST"), (0x08, "PSH"), (0x20, "URG")]

def tcpFlagsOf (flagsByte : UInt8) : List Text :=
  (flagMasks.filter fun entry => flagsByte &&& entry.1 ≠ 0).map Prod.snd

/-- The label of an ICMP message, and that of an echo. -/
def icmpLabel (name : Text) (echo : List Nat) (data : Bytes) : Except ReadError Transport :=
  if 2 ≤ data.length then do
    let icmpType ← byteAt data 0
    if icmpType.toNat ∈ echo then .ok { protocol := name ++ (" Echo" : Text) }
    else .ok { protocol := name ++ (" (" : Text) ++ decimalText icmpType.toNat ++ [')'] }
  else .ok { protocol := name }

def parseTransport (protocolNum : Nat) (data : Bytes) : Except ReadError Transport :=
  if protocolNum = 6 then
    if 20 ≤ data.length then do
      let srcPort ← unpack16 data 0
      let dstPort ← unpack16 data 2
      let flagsByte ← byteAt data 13
      .ok ⟨"TCP", srcPort, dstPort, tcpFlagsOf flagsByte⟩
    else .ok { protocol := "TCP" }
  else if protocolNum = 17 then
    if 8 ≤ data.length then do
      let srcPort ← unpack16 data 0
      let dstPort ← unpack16 data 2
      .ok ⟨"UDP", srcPort, dstPort, []⟩
    else .ok { protocol := "UDP" }
  else if protocolNum = 1 then icmpLabel "ICMP" [0, 8] data
  else if protocolNum = 58 then icmpLabel "ICMPv6" [128, 129] data
  else .ok { protocol := ("Proto:" : Text) ++ decimalText protocolNum }

variable (packetId : Nat) (timestamp interface : Text) (totalLength : Nat) (localIps : List Text)

def parseIpv4 (data rawFull : Bytes) : Except ReadError (Option PacketMetadata) :=
  if data.length < 20 then .ok none
  else do
    let vIhl ← byteAt data 0
    let version := vIhl.toNat / 16
    let ihl := vIhl.toNat % 16 * 4
    if version ≠ 4 ∨ data.length < ihl then .ok none
    else
      let ttl ← byteAt data 8
      let protocolNum ← byteAt data 9
      let srcIp ← socketInetNtoa (slice data 12 16)
      let dstIp ← socketInetNtoa (slice data 16 20)
      let transport ← parseTransport protocolNum.toNat (data.drop ihl)
      .ok (some {
        id := packetId
        timestamp
        interface
        direction := determineDirection net srcIp dstIp localIps
        ipVersion := "IPv4"
        srcIp
        dstIp
        protocol := transport.protocol
        srcPort := transport.srcPort.map Nat.cast
        dstPort := transport.dstPort.map Nat.cast
        length := totalLength
        ttl := some ttl.toNat
        tcpFlags := transport.tcpFlags
        rawPreview := some (formatHexPreview rawFull) })

def parseIpv6 (data rawFull : Bytes) : Except ReadError (Option PacketMetadata) :=
  if data.length < 40 then .ok none
  else do
    let nextHeader ← byteAt data 6
    let hopLimit ← byteAt data 7
    let srcIp ← socketInetNtop6 net (slice data 8 24)
    let dstIp ← socketInetNtop6 net (slice data 24 40)
    let transport ← parseTransport nextHeader.toNat (data.drop 40)
    .ok (some {
      id := packetId
      timestamp
      interface
      direction := determineDirection net srcIp dstIp localIps
      ipVersion := "IPv6"
      srcIp
      dstIp
      protocol := transport.protocol
      srcPort := transport.srcPort.map Nat.cast
      dstPort := transport.dstPort.map Nat.cast
      length := totalLength
      ttl := some hopLimit.toNat
      tcpFlags := transport.tcpFlags
      rawPreview := some (formatHexPreview rawFull) })

def parseArp (data : Bytes) : Except ReadError (Option PacketMetadata) :=
  if data.length < 28 then .ok none
  else do
    let opcode ← unpack16 data 6
    let srcIp ← socketInetNtoa (slice data 14 18)
    let dstIp ← socketInetNtoa (slice data 24 28)
    .ok (some {
      id := packetId
      timestamp
      interface
      direction := "LOCAL"
      ipVersion := "ARP"
      srcIp
      dstIp
      protocol := if opcode = 1 then "ARP (Req)" else if opcode = 2 then "ARP (Rep)" else "ARP"
      length := totalLength
      rawPreview := some (formatHexPreview data) })

/-- `raw_data[0] >> 4` of a datagram without an Ethernet header. -/
def versionNibble (rawData : Bytes) : Option Nat := rawData.head?.map fun b => b.toNat / 16

/-- Without an Ethernet header it is that of IPv4. -/
def ethertypeOf (rawData : Bytes) (hasEthernetHeader : Bool) : Except ReadError Nat :=
  if hasEthernetHeader then unpack16 rawData 12 else .ok 0x0800

def parse (rawData : Bytes) (hasEthernetHeader : Bool) :
    Except ReadError (Option PacketMetadata) :=
  if rawData = [] then .ok none
  else if hasEthernetHeader ∧ rawData.length < 14 then .ok none
  else do
    let ethertype ← ethertypeOf rawData hasEthernetHeader
    let payload := if hasEthernetHeader then rawData.drop 14 else rawData
    let totalLength := rawData.length
    if ethertype = 0x0806 then
      parseArp packetId timestamp interface totalLength payload
    else if ethertype = 0x0800 ∨ (¬ hasEthernetHeader ∧ versionNibble rawData = some 4) then
      parseIpv4 net packetId timestamp interface totalLength localIps payload rawData
    else if ethertype = 0x86DD ∨ (¬ hasEthernetHeader ∧ versionNibble rawData = some 6) then
      parseIpv6 net packetId timestamp interface totalLength localIps payload rawData
    else
      .ok (some {
        id := packetId
        timestamp
        interface
        direction := "LOCAL"
        ipVersion := "OTHER"
        srcIp := "unknown"
        dstIp := "unknown"
        protocol := ("EtherType:0x" : Text) ++ (Bytes.word16 ethertype).flatMap hexOctet
        length := totalLength
        rawPreview := some (formatHexPreview rawData) })

/-! ## Identifiers -/

variable {net packetId timestamp interface totalLength localIps} {data rawFull rawData : Bytes}
  {hasEthernetHeader : Bool}

/-- What is decoded carries the identifier. -/
def Identified (packetId : Nat) (result : Option PacketMetadata) : Prop :=
  ∀ p ∈ result, p.id = packetId

theorem identified_none : Identified packetId none := by simp [Identified]

theorem identified_some {p : PacketMetadata} (h : p.id = packetId) :
    Identified packetId (some p) := by
  rintro _ ⟨⟩
  exact h

theorem parseIpv4_identified : Except.Ensures (Identified packetId)
    (parseIpv4 net packetId timestamp interface totalLength localIps data rawFull) := by
  refine .ite (fun _ => .ok identified_none) fun _ => .seq fun vIhl => ?_
  refine .ite (fun _ => .ok identified_none) fun _ => .seq fun ttl => ?_
  refine .seq fun protocolNum => .seq fun srcIp => .seq fun dstIp => .seq fun transport => .ok ?_
  exact identified_some rfl

theorem parseIpv6_identified : Except.Ensures (Identified packetId)
    (parseIpv6 net packetId timestamp interface totalLength localIps data rawFull) := by
  refine .ite (fun _ => .ok identified_none) fun _ => .seq fun nextHeader => .seq fun hopLimit => ?_
  refine .seq fun srcIp => .seq fun dstIp => .seq fun transport => .ok ?_
  exact identified_some rfl

theorem parseArp_identified : Except.Ensures (Identified packetId)
    (parseArp packetId timestamp interface totalLength data) := by
  refine .ite (fun _ => .ok identified_none) fun _ => .seq fun opcode => ?_
  refine .seq fun srcIp => .seq fun dstIp => .ok ?_
  exact identified_some rfl

theorem parse_identified : Except.Ensures (Identified packetId)
    (parse net packetId timestamp interface localIps rawData hasEthernetHeader) := by
  refine .ite (fun _ => .ok identified_none) fun _ => ?_
  refine .ite (fun _ => .ok identified_none) fun _ => .seq fun ethertype => ?_
  refine .ite (fun _ => parseArp_identified) fun _ => ?_
  refine .ite (fun _ => parseIpv4_identified) fun _ => ?_
  refine .ite (fun _ => parseIpv6_identified) fun _ => .ok ?_
  exact identified_some rfl

end PacketParser

end FocusGuard

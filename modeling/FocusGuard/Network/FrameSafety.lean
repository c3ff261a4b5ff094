import FocusGuard.Network.FlowAccounting
import FocusGuard.Network.PacketAccounting

/-!
# Frames never fail

The decoder reads only behind a check of the length, whatever the frame holds, and what it makes of
a frame has a protocol that can be split. So a frame is either rejected or recorded.

## Main results

* `parseTransport_read`, `parseIpv4_some`, `parseIpv6_some`: what is read off each header.
* `parse_total`: no read leaves the frame.
* `processRawFrame_completes`: every frame is rejected or counted.
-/

namespace FocusGuard

open Bytes

/-! ## Reading -/

section Reading

variable {data rawBytes : Bytes} {i j : Nat}

theorem byteAt_of_lt (h : i < data.length) : byteAt data i = .ok (data.getD i 0) := by
  rw [byteAt, List.getElem?_eq_getElem h, List.getD_eq_getElem data 0 h]

theorem length_slice (data : Bytes) (i : Nat) (h : j ≤ data.length) :
    (slice data i j).length = j - i := by
  rw [slice, List.length_take, List.length_drop]
  omega

theorem get16_drop : get16 (data.drop i) j = get16 data (i + j) := by
  rw [get16, get16, List.drop_drop]

theorem socketInetNtoa_of_length (h : rawBytes.length = 4) :
    ∃ text, socketInetNtoa rawBytes = .ok text := by
  match rawBytes, h with
  | [_, _, _, _], _ => exact ⟨_, rfl⟩

theorem hextets_of_length (h : rawBytes.length = 16) : ∃ groups, hextets rawBytes = .ok groups := by
  match rawBytes, h with
  | [_, _, _, _, _, _, _, _, _, _, _, _, _, _, _, _], _ => exact ⟨_, rfl⟩

theorem socketInetNtop6_of_length (net : Addresses) (h : rawBytes.length = 16) :
    ∃ text, socketInetNtop6 net rawBytes = .ok text := by
  unfold socketInetNtop6
  split
  · exact ⟨_, rfl⟩
  · obtain ⟨groups, hgroups⟩ := hextets_of_length h
    exact ⟨_, by rw [hgroups]; rfl⟩

end Reading

/-! ## Words -/

theorem HasWord.append {text : Text} (h : HasWord text) (rest : Text) : HasWord (text ++ rest) := by
  obtain ⟨c, hc, hspace⟩ := h
  exact ⟨c, List.mem_append_left rest hc, hspace⟩

theorem hasWord_cons {c : Char} (h : Text.isSpace c = false) (rest : Text) :
    HasWord (c :: rest) :=
  ⟨c, List.mem_cons_self, h⟩

namespace PacketParser

/-! ## Transport headers -/

/-- The transport headers whose ports are read. -/
def HasPorts (protocolNum : Nat) (data : Bytes) : Prop :=
  (protocolNum = 6 ∧ 20 ≤ data.length) ∨ (protocolNum = 17 ∧ 8 ≤ data.length)

/-- What is read off a transport header. -/
structure Transport.Read (protocolNum : Nat) (data : Bytes) (t : Transport) : Prop where
  word : HasWord t.protocol
  ports : HasPorts protocolNum data → t.srcPort = get16 data 0 ∧ t.dstPort = get16 data 2
  noPorts : ¬ HasPorts protocolNum data → t.srcPort = none ∧ t.dstPort = none

variable {protocolNum : Nat} {data : Bytes}

theorem icmpLabel_total {name : Text} (hname : HasWord name) (echo : List Nat) (data : Bytes) :
    ∃ t, icmpLabel name echo data = .ok t ∧ HasWord t.protocol ∧ t.srcPort = none ∧
      t.dstPort = none := by
  unfold icmpLabel
  split
  · next hlen =>
    rw [byteAt_of_lt (by omega), Except.ok_bind]
    split
    · exact ⟨_, rfl, hname.append _, rfl, rfl⟩
    · exact ⟨_, rfl, ((hname.append _).append _).append _, rfl, rfl⟩
  · exact ⟨_, rfl, hname, rfl, rfl⟩

theorem parseTransport_read (protocolNum : Nat) (data : Bytes) :
    ∃ t, parseTransport protocolNum data = .ok t ∧ t.Read protocolNum data := by
  have htcp : HasWord "TCP" := hasWord_cons (by decide) _
  have hudp : HasWord "UDP" := hasWord_cons (by decide) _
  unfold parseTransport
  split
  · next h6 =>
    split
    · next hlen =>
      obtain ⟨srcPort, hsrc, hsrcRead⟩ := unpack16_of_le data 0 (by omega)
      obtain ⟨dstPort, hdst, hdstRead⟩ := unpack16_of_le data 2 (by omega)
      rw [hsrcRead, Except.ok_bind, hdstRead, Except.ok_bind, byteAt_of_lt (by omega),
        Except.ok_bind]
      exact ⟨_, rfl, htcp, fun _ => ⟨hsrc.symm, hdst.symm⟩, fun h => absurd (.inl ⟨h6, hlen⟩) h⟩
    · next hlen =>
      refine ⟨_, rfl, htcp, fun h => ?_, fun _ => ⟨rfl, rfl⟩⟩
      unfold HasPorts at h
      omega
  · next h6 =>
    split
    · next h17 =>
      split
      · next hlen =>
        obtain ⟨srcPort, hsrc, hsrcRead⟩ := unpack16_of_le data 0 (by omega)
        obtain ⟨dstPort, hdst, hdstRead⟩ := unpack16_of_le data 2 (by omega)
        rw [hsrcRead, Except.ok_bind, hdstRead, Except.ok_bind]
        exact ⟨_, rfl, hudp, fun _ => ⟨hsrc.symm, hdst.symm⟩,
          fun h => absurd (.inr ⟨h17, hlen⟩) h⟩
      · next hlen =>
        refine ⟨_, rfl, hudp, fun h => ?_, fun _ => ⟨rfl, rfl⟩⟩
        unfold HasPorts at h
        omega
    · next h17 =>
      have hnot : ¬ HasPorts protocolNum data := by
        unfold HasPorts
        omega
      have hicmp : ∀ {name : Text}, HasWord name → ∀ echo : List Nat,
          ∃ t, icmpLabel name echo data = .ok t ∧ t.Read protocolNum data := by
        intro name hname echo
        obtain ⟨t, ht, hword, hsrc, hdst⟩ := icmpLabel_total hname echo data
        exact ⟨t, ht, hword, fun h => absurd h hnot, fun _ => ⟨hsrc, hdst⟩⟩
      split
      · exact hicmp (hasWord_cons (by decide) _) _
      split
      · exact hicmp (hasWord_cons (by decide) _) _
      · exact ⟨_, rfl, hasWord_cons (by decide) _, fun h => absurd h hnot, fun _ => ⟨rfl, rfl⟩⟩

/-! ## Network headers -/

/-- The fields of an IPv4 header. -/
structure Ipv4Fields where
  version : Nat
  /-- In words of four bytes. -/
  ihl : Nat
  protocol : Nat
  /-- In units of eight bytes. -/
  fragmentOffset : Nat

/-- The fields of an IPv4 header as the standard lays them out. -/
def ipv4Fields (d : Bytes) : Ipv4Fields where
  version := (d.getD 0 0).toNat / 16
  ihl := (d.getD 0 0).toNat % 16
  protocol := (d.getD 9 0).toNat
  fragmentOffset := (get16 d 6).getD 0 % 8192

/-- The datagrams that the decoder takes for IPv4. -/
structure Ipv4Accepted (d : Bytes) : Prop where
  fixed : 20 ≤ d.length
  version : (ipv4Fields d).version = 4
  header : (ipv4Fields d).ihl * 4 ≤ d.length

variable (net : Addresses) (packetId : Nat) (timestamp interface : Text) (totalLength : Nat)
  (localIps : List Text) {rawFull : Bytes}

/-- The metadata of an IP datagram with these addresses and this transport header. -/
def ipMetadata (ipVersion srcIp dstIp : Text) (ttl : Nat) (transport : Transport) (packetId : Nat)
    (timestamp interface : Text) (totalLength : Nat) (localIps : List Text) (rawFull : Bytes) :
    PacketMetadata where
  id := packetId
  timestamp := timestamp
  interface := interface
  direction := determineDirection net srcIp dstIp localIps
  ipVersion := ipVersion
  srcIp := srcIp
  dstIp := dstIp
  protocol := transport.protocol
  srcPort := transport.srcPort.map Nat.cast
  dstPort := transport.dstPort.map Nat.cast
  length := totalLength
  ttl := some ttl
  tcpFlags := transport.tcpFlags
  rawPreview := some (formatHexPreview rawFull)

theorem parseIpv4_none (h : ¬ Ipv4Accepted data) :
    parseIpv4 net packetId timestamp interface totalLength localIps data rawFull = .ok none := by
  unfold parseIpv4
  split
  · rfl
  · next hlen =>
    rw [byteAt_of_lt (by omega), Except.ok_bind]
    refine if_pos ?_
    by_contra hnot
    rw [not_or, not_not] at hnot
    exact h ⟨by omega, hnot.1, Nat.le_of_not_lt hnot.2⟩

/-- What is read off an IPv4 header depends on the datagram only. -/
theorem parseIpv4_some (h : Ipv4Accepted data) : ∃ (srcIp dstIp : Text) (transport : Transport),
    transport.Read (ipv4Fields data).protocol (data.drop ((ipv4Fields data).ihl * 4)) ∧
    ∀ packetId timestamp interface totalLength localIps rawFull,
      parseIpv4 net packetId timestamp interface totalLength localIps data rawFull =
        .ok (some (ipMetadata net "IPv4" srcIp dstIp (data.getD 8 0).toNat transport packetId
          timestamp interface totalLength localIps rawFull)) := by
  have hlen := h.fixed
  obtain ⟨srcIp, hsrc⟩ := socketInetNtoa_of_length (length_slice data 12 (j := 16) (by omega))
  obtain ⟨dstIp, hdst⟩ := socketInetNtoa_of_length (length_slice data 16 (j := 20) (by omega))
  obtain ⟨transport, htransport, hread⟩ := parseTransport_read (data.getD 9 0).toNat
    (data.drop ((data.getD 0 0).toNat % 16 * 4))
  refine ⟨srcIp, dstIp, transport, hread, fun packetId timestamp interface totalLength localIps
    rawFull => ?_⟩
  have haccepted : ¬ ((data.getD 0 0).toNat / 16 ≠ 4 ∨
      data.length < (data.getD 0 0).toNat % 16 * 4) := by
    rw [not_or, not_not]
    exact ⟨h.version, Nat.not_lt_of_le h.header⟩
  unfold parseIpv4
  rw [if_neg (by omega), byteAt_of_lt (by omega), Except.ok_bind]
  dsimp only
  rw [if_neg haccepted, byteAt_of_lt (by omega), Except.ok_bind, byteAt_of_lt (by omega),
    Except.ok_bind, hsrc, Except.ok_bind, hdst, Except.ok_bind, htransport, Except.ok_bind]
  rfl

theorem parseIpv6_none (h : data.length < 40) :
    parseIpv6 net packetId timestamp interface totalLength localIps data rawFull = .ok none := by
  unfold parseIpv6
  exact if_pos h

theorem parseIpv6_some (h : 40 ≤ data.length) : ∃ (srcIp dstIp : Text) (transport : Transport),
    transport.Read (data.getD 6 0).toNat (data.drop 40) ∧
    ∀ packetId timestamp interface totalLength localIps rawFull,
      parseIpv6 net packetId timestamp interface totalLength localIps data rawFull =
        .ok (some (ipMetadata net "IPv6" srcIp dstIp (data.getD 7 0).toNat transport packetId
          timestamp interface totalLength localIps rawFull)) := by
  obtain ⟨srcIp, hsrc⟩ := socketInetNtop6_of_length net (length_slice data 8 (j := 24) (by omega))
  obtain ⟨dstIp, hdst⟩ := socketInetNtop6_of_length net (length_slice data 24 (j := 40) (by omega))
  obtain ⟨transport, htransport, hread⟩ := parseTransport_read (data.getD 6 0).toNat (data.drop 40)
  refine ⟨srcIp, dstIp, transport, hread, fun packetId timestamp interface totalLength localIps
    rawFull => ?_⟩
  unfold parseIpv6
  rw [if_neg (by omega), byteAt_of_lt (by omega), Except.ok_bind, byteAt_of_lt (by omega),
    Except.ok_bind, hsrc, Except.ok_bind, hdst, Except.ok_bind, htransport, Except.ok_bind]
  rfl

/-- The result carries this protocol version, and a protocol that can be split. -/
def Versioned (ipVersion : Text) (result : Option PacketMetadata) : Prop :=
  ∀ p ∈ result, p.ipVersion = ipVersion ∧ HasWord p.protocol

variable (data rawFull)

theorem parseIpv4_total : ∃ result,
    parseIpv4 net packetId timestamp interface totalLength localIps data rawFull = .ok result ∧
      Versioned "IPv4" result := by
  by_cases h : Ipv4Accepted data
  · obtain ⟨srcIp, dstIp, transport, hread, hparse⟩ := parseIpv4_some net h
    refine ⟨_, hparse packetId timestamp interface totalLength localIps rawFull, ?_⟩
    rintro p ⟨⟩
    exact ⟨rfl, hread.word⟩
  · exact ⟨_, parseIpv4_none net packetId timestamp interface totalLength localIps h, nofun⟩

theorem parseIpv6_total : ∃ result,
    parseIpv6 net packetId timestamp interface totalLength localIps data rawFull = .ok result ∧
      Versioned "IPv6" result := by
  by_cases h : data.length < 40
  · exact ⟨_, parseIpv6_none net packetId timestamp interface totalLength localIps h, nofun⟩
  · obtain ⟨srcIp, dstIp, transport, hread, hparse⟩ := parseIpv6_some net (Nat.le_of_not_lt h)
    refine ⟨_, hparse packetId timestamp interface totalLength localIps rawFull, ?_⟩
    rintro p ⟨⟩
    exact ⟨rfl, hread.word⟩

theorem parseArp_total : ∃ result,
    parseArp packetId timestamp interface totalLength data = .ok result ∧
      Versioned "ARP" result := by
  unfold parseArp
  split
  · exact ⟨_, rfl, nofun⟩
  · next hlen =>
    obtain ⟨opcode, -, hopcode⟩ := unpack16_of_le data 6 (by omega)
    obtain ⟨srcIp, hsrc⟩ := socketInetNtoa_of_length (length_slice data 14 (j := 18) (by omega))
    obtain ⟨dstIp, hdst⟩ := socketInetNtoa_of_length (length_slice data 24 (j := 28) (by omega))
    rw [hopcode, Except.ok_bind, hsrc, Except.ok_bind, hdst, Except.ok_bind]
    refine ⟨_, rfl, ?_⟩
    rintro p ⟨⟩
    refine ⟨rfl, ?_⟩
    dsimp only
    split
    · exact hasWord_cons (by decide) _
    split
    · exact hasWord_cons (by decide) _
    · exact hasWord_cons (by decide) _

/-! ## Frames -/

theorem ethertypeOf_total {hasEthernetHeader : Bool}
    (h : ¬ (hasEthernetHeader = true ∧ data.length < 14)) :
    ∃ ethertype, ethertypeOf data hasEthernetHeader = .ok ethertype := by
  unfold ethertypeOf
  split
  · next heth =>
    obtain ⟨n, -, hn⟩ := unpack16_of_le data 12 (by
      by_contra hlen
      exact h ⟨heth, by omega⟩)
    exact ⟨n, hn⟩
  · exact ⟨_, rfl⟩

/-- The decoder never raises, and what it returns has a protocol that can be split. -/
theorem parse_total (hasEthernetHeader : Bool) : ∃ result,
    parse net packetId timestamp interface localIps data hasEthernetHeader = .ok result ∧
      ∀ p ∈ result, HasWord p.protocol := by
  have hword : ∀ {ipVersion : Text} {result : Except ReadError (Option PacketMetadata)},
      (∃ r, result = .ok r ∧ Versioned ipVersion r) →
      ∃ r, result = .ok r ∧ ∀ p ∈ r, HasWord p.protocol := by
    rintro ipVersion result ⟨r, hr, hversioned⟩
    exact ⟨r, hr, fun p hp => (hversioned p hp).2⟩
  unfold parse
  split
  · exact ⟨_, rfl, nofun⟩
  split
  · exact ⟨_, rfl, nofun⟩
  · next hshort =>
    obtain ⟨ethertype, hethertype⟩ := ethertypeOf_total data hshort
    rw [hethertype, Except.ok_bind]
    dsimp only
    split
    · exact hword (parseArp_total ..)
    split
    · exact hword (parseIpv4_total ..)
    split
    · exact hword (parseIpv6_total ..)
    · refine ⟨_, rfl, ?_⟩
      rintro p ⟨⟩
      exact hasWord_cons (by decide) _

end PacketParser

/-! ## The monitor -/

theorem nameDevice_protocol (devices : Option (List Device)) (pkt : PacketMetadata) :
    (nameDevice devices pkt).protocol = pkt.protocol := by
  unfold nameDevice
  split
  · rfl
  · split
    · rfl
    · rfl

theorem correlatePolicy_protocol (pkt : PacketMetadata) :
    (correlatePolicy pkt).protocol = pkt.protocol := by
  unfold correlatePolicy
  split
  · rfl
  · rfl

/-- Only a protocol without a word keeps a packet from being recorded. -/
theorem FlowTracker.recordPacket_total (net : Addresses) (now : ℚ) {pkt : PacketMetadata}
    (h : HasWord pkt.protocol) (t : FlowTracker) :
    ∃ flow t', FlowTracker.recordPacket net now pkt t = (.ok flow, t') := by
  by_cases haddr : pkt.srcIp = [] ∨ pkt.dstIp = []
  · exact ⟨_, _, recordPacket_of_empty haddr⟩
  · obtain ⟨proto, hproto⟩ := firstWord_ok h
    exact ⟨_, _, recordPacket_of_ok haddr hproto⟩

namespace PacketMonitorEngine

variable (net : Addresses)

/-- One call of `process_raw_frame`, with nothing of other threads in between, up to the live
streams. -/
def processRawFrame (env : IngestEnv) (now : ℚ) (rawData : Bytes) (interface : Text)
    (hasEthernet : Bool) : Exec ReadError PacketMonitorEngine (Option PacketMetadata) := do
  Exec.modify takeId
  let e ← Exec.get
  let pkt? ← Exec.ofExcept
    (e.build net env e.packetIdSeq (.processRawFrame rawData interface hasEthernet))
  match pkt? with
  | none => pure none
  | some pkt =>
    let _ ← Exec.focus (fun e => e.flowTracker) (fun t e => { e with flowTracker := t })
      (FlowTracker.recordPacket net now pkt)
    Exec.modify fun e => e.record pkt (.processRawFrame rawData interface hasEthernet)
    pure (some pkt)

/-- The packet is in every total, and last in the buffer. -/
structure Counts (e e' : PacketMonitorEngine) (pkt : PacketMetadata) : Prop where
  packets : e'.totalPackets = e.totalPackets + 1
  protocols : e'.tcpPackets + e'.udpPackets + e'.icmpPackets + e'.otherPackets =
    e.tcpPackets + e.udpPackets + e.icmpPackets + e.otherPackets + 1
  bytes : e'.totalBytes = e.totalBytes + pkt.length
  directions : e'.inboundBytes + e'.outboundBytes =
    e.inboundBytes + e.outboundBytes + pkt.length
  buffer : e'.buffer = (e.buffer ++ [pkt]).rtake e.maxBufferSize

theorem counts_record (e : PacketMonitorEngine) (pkt : PacketMetadata) (call : Ingestion) :
    e.Counts (e.record pkt call) pkt ∧ (e.record pkt call).flowTracker = e.flowTracker := by
  obtain ⟨tcp, udp, icmp, other, inbound, outbound, hprotocols, hdirections, hrecord⟩ :=
    record_eq e pkt call
  rw [hrecord]
  exact ⟨⟨rfl, hprotocols, rfl, hdirections, rfl⟩, rfl⟩

/-- A frame never makes the monitor fail: the decoder returns, with a protocol that can be split if
it returns a packet, and that packet goes through the policy and the flow tracker and is counted. -/
theorem processRawFrame_completes (e : PacketMonitorEngine) (env : IngestEnv) (now : ℚ)
    (rawData : Bytes) (interface : Text) (hasEthernet : Bool) : ∃ parsed e',
    PacketParser.parse net e.takeId.packetIdSeq env.timestamp interface env.localIps rawData
        hasEthernet = .ok parsed ∧
      (∀ p ∈ parsed, HasWord p.protocol) ∧
      e.processRawFrame net env now rawData interface hasEthernet =
        (.ok (parsed.map fun p => correlatePolicy (nameDevice env.devices p)), e') ∧
      ∀ p ∈ parsed, ∃ flow,
        FlowTracker.recordPacket net now (correlatePolicy (nameDevice env.devices p))
          e.flowTracker = (.ok flow, e'.flowTracker) ∧
        e.Counts e' (correlatePolicy (nameDevice env.devices p)) := by
  obtain ⟨parsed, hparse, hword⟩ := PacketParser.parse_total rawData net e.takeId.packetIdSeq
    env.timestamp interface env.localIps hasEthernet
  have hbuild : e.takeId.build net env e.takeId.packetIdSeq
      (.processRawFrame rawData interface hasEthernet) =
        .ok (parsed.map fun p => correlatePolicy (nameDevice env.devices p)) := by
    rw [build, hparse]
    rfl
  unfold processRawFrame
  rw [Exec.bind_of_ok (Exec.modify_apply _ _), Exec.bind_of_ok (Exec.get_apply _), hbuild,
    Exec.bind_of_ok (Exec.ofExcept_apply _ _)]
  cases parsed with
  | none => exact ⟨_, _, hparse, hword, rfl, nofun⟩
  | some p =>
    have hprotocol : HasWord (correlatePolicy (nameDevice env.devices p)).protocol := by
      rw [correlatePolicy_protocol, nameDevice_protocol]
      exact hword p rfl
    obtain ⟨flow, t', htrack⟩ := FlowTracker.recordPacket_total net now hprotocol e.flowTracker
    have hfocus : Exec.focus (fun e : PacketMonitorEngine => e.flowTracker)
        (fun t e => { e with flowTracker := t })
        (FlowTracker.recordPacket net now (correlatePolicy (nameDevice env.devices p))) e.takeId =
          (.ok flow, { e.takeId with flowTracker := t' }) :=
      Exec.focus_eq_ok.mpr ⟨t', htrack, rfl⟩
    dsimp only [Option.map_some]
    rw [Exec.bind_of_ok hfocus, Exec.bind_of_ok (Exec.modify_apply _ _)]
    obtain ⟨hcounts, htracker⟩ := counts_record { e.takeId with flowTracker := t' }
      (correlatePolicy (nameDevice env.devices p)) (.processRawFrame rawData interface hasEthernet)
    refine ⟨_, _, hparse, hword, rfl, ?_⟩
    rintro _ ⟨⟩
    exact ⟨flow, htracker ▸ htrack, hcounts.packets, hcounts.protocols, hcounts.bytes,
      hcounts.directions, hcounts.buffer⟩

end PacketMonitorEngine

end FocusGuard

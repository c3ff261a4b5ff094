import FocusGuard.Network.Frames

/-!
# Frames are decoded as they were encoded

What `PacketParser.parse` makes of an encoded frame. Each header is followed from one field to the
next: what stands behind a known piece of the frame is the next piece.

## Main results

* `parseTransport_encode`, `parseIpv4_encode`, `parseIpv6_encode`, `parseArp_encode`: the headers.
* `parse_encode`: whole frames.
-/

namespace FocusGuard

open Bytes

/-! ## Reading known pieces -/

theorem unpack16_of_drop {data rest : Bytes} {i n : Nat} (hn : n < 65536)
    (h : data.drop i = word16 n ++ rest) : unpack16 data i = .ok n := by
  rw [unpack16, get16_of_drop hn h]

theorem slice_of_drop {data piece rest : Bytes} {i j : Nat} (h : data.drop i = piece ++ rest)
    (hj : j = i + piece.length) : slice data i j = piece := by
  rw [slice, h, hj, Nat.add_sub_cancel_left, List.take_left]

/-- What stands behind octets. -/
theorem drop_octets {data rest : Bytes} {i n : Nat} {b : Octets n}
    (h : data.drop i = b.val ++ rest) : data.drop (i + n) = rest := by
  have hdrop := drop_add_length h
  rwa [b.property] at hdrop

theorem socketInetNtoa_octets (b : Octets 4) : socketInetNtoa b.val = .ok (dottedQuad b) := by
  obtain ⟨b, hb⟩ := b
  match b, hb with
  | [a, b, c, d], _ => rfl

/-- Four octets in the middle of a packet. -/
theorem socketInetNtoa_slice {data rest : Bytes} {i j : Nat} {b : Octets 4}
    (h : data.drop i = b.val ++ rest) (hj : j = i + 4) :
    socketInetNtoa (slice data i j) = .ok (dottedQuad b) := by
  rw [slice_of_drop h (by rw [b.property]; exact hj), socketInetNtoa_octets]

/-! ## Transport headers -/

theorem TcpFlag.byte_and (flags : TcpFlag → Bool) (f : TcpFlag) :
    TcpFlag.byte flags &&& Bytes.byte (2 ^ f.bit) ≠ 0 ↔ flags f = true := by
  have hall : ∀ a b c d e f g h : Bool, ∀ i < 8,
      (Bytes.byte ([if a then 1 else 0, if b then 2 else 0, if c then 4 else 0, if d then 8 else 0,
        if e then 16 else 0, if f then 32 else 0, if g then 64 else 0,
        if h then 128 else 0].sum) &&& Bytes.byte (2 ^ i) ≠ 0 ↔
        [a, b, c, d, e, f, g, h][i]? = some true) := by decide +kernel
  have hf := hall (flags fin) (flags syn) (flags rst) (flags psh) (flags ack) (flags urg)
    (flags ece) (flags cwr) f.bit (by cases f <;> decide)
  refine hf.trans ?_
  cases f <;> simp [bit]

namespace PacketParser

theorem flagMasks_eq : flagMasks =
    TcpFlag.reported.map fun f => (Bytes.byte (2 ^ f.bit), f.name) := rfl

/-- The flags that are reported are those that are set. -/
theorem tcpFlagsOf_byte (flags : TcpFlag → Bool) :
    tcpFlagsOf (TcpFlag.byte flags) = (TcpFlag.reported.filter flags).map TcpFlag.name := by
  have hset : ∀ f : TcpFlag,
      decide (TcpFlag.byte flags &&& Bytes.byte (2 ^ f.bit) ≠ 0) = flags f := by
    intro f
    rw [Bool.eq_iff_iff, decide_eq_true_iff]
    exact TcpFlag.byte_and flags f
  rw [tcpFlagsOf, flagMasks_eq, List.filter_map, List.map_map]
  exact congrArg (List.map TcpFlag.name) (List.filter_congr fun f _ => hset f)

/-- The label of a control message with its two bytes. -/
theorem icmpLabel_eq (name : Text) (request reply : Nat) (echo : List Nat)
    (hecho : ∀ n, n ∈ echo ↔ n = request ∨ n = reply) (type code : UInt8) (rest : Bytes) :
    icmpLabel name echo (type :: code :: rest) =
      .ok { protocol := Segment.controlLabel name request reply type } := by
  have hlen : 2 ≤ (type :: code :: rest).length := by simp
  unfold icmpLabel Segment.controlLabel
  rw [if_pos hlen]
  refine Except.bind_eq_ok.mpr ⟨type, rfl, ?_⟩
  by_cases h : type.toNat ∈ echo
  · rw [if_pos h, if_pos ((hecho _).mp h)]
  · rw [if_neg h, if_neg (mt (hecho _).mpr h)]
    rfl

/-- What is read off a transport header. -/
theorem parseTransport_encode (s : Segment) (rest : Bytes) :
    parseTransport s.protocol.toNat (s.encode ++ rest) = .ok ⟨s.label,
      s.ports.map fun ports => ports.1.toNat, s.ports.map fun ports => ports.2.toNat,
      s.flags.map TcpFlag.name⟩ := by
  cases s with
  | tcp srcPort dstPort seq ack dataOffset flags window checksum urgent =>
    have hlen : 20 ≤ ((Segment.tcp srcPort dstPort seq ack dataOffset flags window checksum
        urgent).encode ++ rest).length := by
      simp [Segment.encode]
      omega
    refine (if_pos rfl).trans ((if_pos hlen).trans ?_)
    refine Except.bind_eq_ok.mpr ⟨srcPort.toNat, unpack16_of_drop srcPort.toNat_lt rfl, ?_⟩
    refine Except.bind_eq_ok.mpr ⟨dstPort.toNat, unpack16_of_drop dstPort.toNat_lt rfl, ?_⟩
    refine Except.bind_eq_ok.mpr ⟨TcpFlag.byte flags, rfl, ?_⟩
    rw [tcpFlagsOf_byte]
    rfl
  | udp srcPort dstPort length checksum =>
    have hlen : 8 ≤ ((Segment.udp srcPort dstPort length checksum).encode ++ rest).length := by
      simp [Segment.encode]
      omega
    have hnot : ¬ (17 : Nat) = 6 := by decide
    refine (if_neg hnot).trans ((if_pos rfl).trans ((if_pos hlen).trans ?_))
    refine Except.bind_eq_ok.mpr ⟨srcPort.toNat, unpack16_of_drop srcPort.toNat_lt rfl, ?_⟩
    exact Except.bind_eq_ok.mpr ⟨dstPort.toNat, unpack16_of_drop dstPort.toNat_lt rfl, rfl⟩
  | icmp type code =>
    have hnot : ¬ (1 : Nat) = 6 ∧ ¬ (1 : Nat) = 17 := by decide
    refine (if_neg hnot.1).trans ((if_neg hnot.2).trans ((if_pos rfl).trans ?_))
    exact icmpLabel_eq "ICMP" 8 0 [0, 8] (fun n => by simp [or_comm]) type code rest
  | icmpv6 type code =>
    have hnot : ¬ (58 : Nat) = 6 ∧ ¬ (58 : Nat) = 17 ∧ ¬ (58 : Nat) = 1 := by decide
    refine (if_neg hnot.1).trans ((if_neg hnot.2.1).trans ((if_neg hnot.2.2).trans
      ((if_pos rfl).trans ?_)))
    exact icmpLabel_eq "ICMPv6" 128 129 [128, 129] (fun n => by simp) type code rest
  | other protocol h =>
    have hne : ∀ n ∈ knownProtocols, protocol.toNat ≠ n := fun n hn heq => h (heq ▸ hn)
    unfold parseTransport
    rw [Segment.protocol, if_neg (hne 6 (by decide)), if_neg (hne 17 (by decide)),
      if_neg (hne 1 (by decide)), if_neg (hne 58 (by decide))]
    rfl

/-! ## Network headers -/

variable {net : Addresses} (packetId : Nat) (timestamp interface : Text) (totalLength : Nat)
  (localIps : List Text) (rest rawFull : Bytes)

theorem parseIpv4_encode (h : Ipv4Header) (s : Segment) :
    ∃ p, parseIpv4 net packetId timestamp interface totalLength localIps
        ((Datagram.ipv4 h s).encode ++ rest) rawFull = .ok (some p) ∧
      (Datagram.ipv4 h s).Decoded net totalLength p := by
  generalize hdata : (Datagram.ipv4 h s).encode ++ rest = data
  simp only [Datagram.encode, Ipv4Header.encode, List.append_assoc] at hdata
  have hihl := h.ihl_ge
  have hihl' := h.ihl_le
  have hfirst : byteAt data 0 = .ok (byte (4 * 16 + h.ihl)) := by rw [← hdata]; rfl
  have httl : byteAt data 8 = .ok h.ttl := by rw [← hdata]; rfl
  have hprotocol : byteAt data 9 = .ok s.protocol := by rw [← hdata]; rfl
  have hsrc : data.drop 12 = h.src.val ++ (h.dst.val ++ (h.options.val ++ (s.encode ++ rest))) := by
    rw [← hdata]
    rfl
  have hdst : data.drop 16 = h.dst.val ++ (h.options.val ++ (s.encode ++ rest)) :=
    drop_octets hsrc
  have hoptions : data.drop 20 = h.options.val ++ (s.encode ++ rest) := drop_octets hdst
  have hbody : data.drop (h.ihl * 4) = s.encode ++ rest := by
    have hdrop := drop_octets hoptions
    rwa [show 20 + (h.ihl - 5) * 4 = h.ihl * 4 by omega] at hdrop
  have hlen : h.ihl * 4 ≤ data.length := by
    have hlength := congrArg List.length hdst
    rw [List.length_drop, List.length_append, List.length_append, h.dst.property,
      h.options.property] at hlength
    omega
  have hversion : (byte (4 * 16 + h.ihl)).toNat / 16 = 4 := by
    rw [toNat_byte]
    omega
  have hwords : (byte (4 * 16 + h.ihl)).toNat % 16 * 4 = h.ihl * 4 := by
    rw [toNat_byte]
    omega
  have hsrcText : socketInetNtoa (slice data 12 16) = .ok (dottedQuad h.src) :=
    socketInetNtoa_slice hsrc rfl
  have hdstText : socketInetNtoa (slice data 16 20) = .ok (dottedQuad h.dst) :=
    socketInetNtoa_slice hdst rfl
  unfold parseIpv4
  rw [if_neg (by omega), hfirst, Except.ok_bind]
  dsimp only
  rw [hversion, hwords, if_neg (by omega), httl, Except.ok_bind, hprotocol, Except.ok_bind,
    hsrcText, Except.ok_bind, hdstText, Except.ok_bind, hbody, parseTransport_encode,
    Except.ok_bind]
  exact ⟨_, rfl, rfl, rfl, rfl, rfl, rfl, Option.map_map _ _ _, Option.map_map _ _ _, rfl, rfl⟩

theorem parseIpv6_encode (h : Ipv6Header) (s : Segment) {src dst : Text}
    (hsrcText : net.ipv6Address h.src.val = some src)
    (hdstText : net.ipv6Address h.dst.val = some dst) :
    ∃ p, parseIpv6 net packetId timestamp interface totalLength localIps
        ((Datagram.ipv6 h s).encode ++ rest) rawFull = .ok (some p) ∧
      (Datagram.ipv6 h s).Decoded net totalLength p := by
  generalize hdata : (Datagram.ipv6 h s).encode ++ rest = data
  simp only [Datagram.encode, Ipv6Header.encode, List.append_assoc] at hdata
  have hnext : byteAt data 6 = .ok s.protocol := by rw [← hdata]; rfl
  have hhop : byteAt data 7 = .ok h.hopLimit := by rw [← hdata]; rfl
  have hsrc : data.drop 8 = h.src.val ++ (h.dst.val ++ (s.encode ++ rest)) := by
    rw [← hdata]
    rfl
  have hdst : data.drop 24 = h.dst.val ++ (s.encode ++ rest) := drop_octets hsrc
  have hbody : data.drop 40 = s.encode ++ rest := drop_octets hdst
  have hlen : 40 ≤ data.length := by
    have hlength := congrArg List.length hdst
    rw [List.length_drop, List.length_append, h.dst.property] at hlength
    omega
  have hsrcRead : socketInetNtop6 net (slice data 8 24) = .ok src := by
    rw [slice_of_drop hsrc (by rw [h.src.property]), socketInetNtop6, hsrcText]
  have hdstRead : socketInetNtop6 net (slice data 24 40) = .ok dst := by
    rw [slice_of_drop hdst (by rw [h.dst.property]), socketInetNtop6, hdstText]
  unfold parseIpv6
  rw [if_neg (by omega), hnext, Except.ok_bind, hhop, Except.ok_bind, hsrcRead, Except.ok_bind,
    hdstRead, Except.ok_bind, hbody, parseTransport_encode, Except.ok_bind]
  exact ⟨_, rfl, rfl, hsrcText, hdstText, rfl, rfl, Option.map_map _ _ _, Option.map_map _ _ _,
    rfl, rfl⟩

theorem parseArp_encode (a : ArpPacket) :
    ∃ p, parseArp packetId timestamp interface totalLength
        ((Datagram.arp a).encode ++ rest) = .ok (some p) ∧
      (Datagram.arp a).Decoded net totalLength p := by
  generalize hdata : (Datagram.arp a).encode ++ rest = data
  simp only [Datagram.encode, ArpPacket.encode, List.append_assoc] at hdata
  have hopcode : data.drop 6 = word16 a.opcode.toNat ++ (a.senderMac.val ++ (a.src.val ++
      (a.targetMac.val ++ (a.dst.val ++ rest)))) := by
    rw [← hdata]
    rfl
  have hsender : data.drop 8 = a.senderMac.val ++ (a.src.val ++
      (a.targetMac.val ++ (a.dst.val ++ rest))) := drop_add_length hopcode
  have hsrc : data.drop 14 = a.src.val ++ (a.targetMac.val ++ (a.dst.val ++ rest)) :=
    drop_octets hsender
  have htarget : data.drop 18 = a.targetMac.val ++ (a.dst.val ++ rest) := drop_octets hsrc
  have hdst : data.drop 24 = a.dst.val ++ rest := drop_octets htarget
  have hlen : 28 ≤ data.length := by
    have hlength := congrArg List.length hdst
    rw [List.length_drop, List.length_append, a.dst.property] at hlength
    omega
  have hsrcText : socketInetNtoa (slice data 14 18) = .ok (dottedQuad a.src) :=
    socketInetNtoa_slice hsrc rfl
  have hdstText : socketInetNtoa (slice data 24 28) = .ok (dottedQuad a.dst) :=
    socketInetNtoa_slice hdst rfl
  unfold parseArp
  rw [if_neg (by omega), unpack16_of_drop a.opcode.toNat_lt hopcode, Except.ok_bind, hsrcText,
    Except.ok_bind, hdstText, Except.ok_bind]
  exact ⟨_, rfl, rfl, rfl, rfl, rfl, rfl, rfl, rfl, rfl, rfl⟩

/-! ## Frames -/

/-- Every frame is decoded as it was encoded, where the library has a text for every IPv6
address. -/
theorem parse_encode (hnet : ∀ raw : Octets 16, ∃ t, net.ipv6Address raw.val = some t)
    (f : Frame) : ∃ p,
    parse net packetId timestamp interface localIps f.encode true = .ok (some p) ∧
      f.datagram.Decoded net f.encode.length p := by
  generalize hdata : f.encode = data
  have htype : data.drop 12 = word16 f.datagram.ethertype ++ (f.datagram.encode ++ f.rest) := by
    have hframe : data.drop 0 = f.dstMac.val ++ (f.srcMac.val ++
        (word16 f.datagram.ethertype ++ (f.datagram.encode ++ f.rest))) := by
      rw [← hdata, List.drop_zero, Frame.encode]
      simp only [List.append_assoc]
    exact drop_octets (drop_octets hframe)
  have hpayload : data.drop 14 = f.datagram.encode ++ f.rest := drop_add_length htype
  have hlen : 14 ≤ data.length := by
    have hlength := congrArg List.length htype
    rw [List.length_drop, List.length_append, length_word16] at hlength
    omega
  have hne : data ≠ [] := by
    rintro rfl
    exact absurd hlen (by decide)
  have hethertype : ethertypeOf data true = .ok f.datagram.ethertype := by
    refine unpack16_of_drop ?_ htype
    cases f.datagram <;> simp [Datagram.ethertype]
  obtain ⟨dstMac, srcMac, datagram, rest⟩ := f
  dsimp only at hpayload hethertype ⊢
  unfold parse
  rw [if_neg hne, if_neg (by simpa using hlen), hethertype, Except.ok_bind]
  dsimp only
  rw [if_pos rfl, hpayload]
  cases datagram with
  | ipv4 h s =>
    rw [Datagram.ethertype, if_neg (by decide), if_pos (.inl rfl)]
    exact parseIpv4_encode packetId timestamp interface _ localIps rest data h s
  | ipv6 h s =>
    obtain ⟨src, hsrc⟩ := hnet h.src
    obtain ⟨dst, hdst⟩ := hnet h.dst
    rw [Datagram.ethertype, if_neg (by decide), if_neg (by simp), if_pos (.inl rfl)]
    exact parseIpv6_encode packetId timestamp interface _ localIps rest data h s hsrc hdst
  | arp a =>
    rw [Datagram.ethertype, if_pos rfl]
    exact parseArp_encode packetId timestamp interface _ rest a

/-! ## A frame -/

/-- A library that takes addresses in 192.168 for private and writes IPv6 addresses in full. -/
def plainAddresses : Addresses where
  ipAddress t := some ⟨("192.168." : Text).isPrefixOf t, false, false⟩
  ipv6Address raw := (hextets raw).toOption.map (Text.join ':')

theorem plainAddresses_ipv6Address (raw : Octets 16) :
    ∃ t, plainAddresses.ipv6Address raw.val = some t := by
  obtain ⟨raw, hraw⟩ := raw
  match raw, hraw with
  | [_, _, _, _, _, _, _, _, _, _, _, _, _, _, _, _], _ => exact ⟨_, rfl⟩

/-- A SYN from 192.168.1.15 to 142.250.190.46, with four bytes of IPv4 options. -/
def synFrame : Frame where
  dstMac := ⟨[255, 255, 255, 255, 255, 255], rfl⟩
  srcMac := ⟨[0, 0, 0, 0, 0, 0], rfl⟩
  datagram := .ipv4 ⟨0, 44, 54321, 1, 64, 0, ⟨[192, 168, 1, 15], rfl⟩,
    ⟨[142, 250, 190, 46], rfl⟩, 6, by decide, by decide, ⟨[1, 1, 1, 0], rfl⟩⟩
    (.tcp 52341 443 1000 0 80 (fun f => f = .syn) 65535 0 0)
  rest := []

theorem parse_encode_syn : ∃ p,
    parse plainAddresses 1 "12:00:00.000" "eth0" [] synFrame.encode true = .ok (some p) ∧
      synFrame.datagram.Decoded plainAddresses synFrame.encode.length p :=
  parse_encode 1 "12:00:00.000" "eth0" [] plainAddresses_ipv6Address synFrame

end PacketParser

end FocusGuard

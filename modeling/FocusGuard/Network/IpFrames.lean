import FocusGuard.Network.FrameSafety

/-!
# IP datagrams in frames

What the decoder makes of an IPv4 header that it should not trust, and of a datagram that comes
without an Ethernet header. A header length below five words is not refused, and a later fragment is
searched for ports like a whole datagram; without an Ethernet header every datagram is taken for
IPv4.

## Main results

* `ports_from_header_iff`: when the ports are those of the transport header.
* `raw_agrees_iff`: when a datagram is decoded in the same way with and without an Ethernet header.
-/

namespace FocusGuard

open Bytes

namespace PacketParser

/-! ## Dispatch -/

def payloadOf (rawData : Bytes) (hasEthernetHeader : Bool) : Bytes :=
  if hasEthernetHeader then rawData.drop 14 else rawData

/-- The EtherType says that the frame carries IPv4, or without one the version does. -/
def CarriesIpv4 (rawData : Bytes) (hasEthernetHeader : Bool) : Prop :=
  if hasEthernetHeader then get16 rawData 12 = some 0x0800 else versionNibble rawData = some 4

variable {net : Addresses} {packetId : Nat} {timestamp interface : Text} {localIps : List Text}
  {rawData d header : Bytes} {hasEthernetHeader : Bool}

/-- A frame with an EtherType is decoded by what the EtherType says. -/
theorem parse_of_ethertype {ethertype : Nat} (h : get16 rawData 12 = some ethertype) :
    rawData ≠ [] ∧ ¬ rawData.length < 14 ∧ ethertypeOf rawData true = .ok ethertype := by
  have hlen := le_length_of_get16 h
  refine ⟨?_, by omega, ?_⟩
  · rintro rfl
    simp at hlen
  · rw [ethertypeOf, if_pos rfl, unpack16, h]

/-- A datagram without an Ethernet header is always decoded as IPv4. -/
theorem parse_raw (d : Bytes) : parse net packetId timestamp interface localIps d false =
    parseIpv4 net packetId timestamp interface d.length localIps d d := by
  unfold parse
  split
  · next hnil =>
    subst hnil
    exact (parseIpv4_none net packetId timestamp interface _ localIps
      fun h => absurd h.fixed (by decide)).symm
  · rw [if_neg (by simp)]
    rfl

theorem parse_of_carriesIpv4 (h : CarriesIpv4 rawData hasEthernetHeader) :
    parse net packetId timestamp interface localIps rawData hasEthernetHeader =
      parseIpv4 net packetId timestamp interface rawData.length localIps
        (payloadOf rawData hasEthernetHeader) rawData := by
  cases hasEthernetHeader with
  | false => exact parse_raw rawData
  | true =>
    obtain ⟨hne, hlen, htype⟩ := parse_of_ethertype (show get16 rawData 12 = some 0x0800 from h)
    unfold parse
    rw [if_neg hne, if_neg (by simpa using hlen), htype, Except.ok_bind]
    dsimp only
    rw [if_neg (by decide), if_pos (.inl rfl)]
    rfl

theorem versionNibble_of_accepted (h : Ipv4Accepted d) : versionNibble d = some 4 := by
  obtain ⟨hfixed, hversion, -⟩ := h
  cases d with
  | nil => simp at hfixed
  | cons b d => exact congrArg some hversion

/-- Nothing else is reported as IPv4. -/
theorem parse_of_not_carriesIpv4 (net : Addresses) (packetId : Nat) (timestamp interface : Text)
    (localIps : List Text) (h : ¬ CarriesIpv4 rawData hasEthernetHeader) : ∃ result,
    parse net packetId timestamp interface localIps rawData hasEthernetHeader = .ok result ∧
      ∀ p ∈ result, p.ipVersion ≠ ("IPv4" : Text) := by
  have hother : ∀ {ipVersion : Text} {result : Except ReadError (Option PacketMetadata)},
      ipVersion ≠ ("IPv4" : Text) → (∃ r, result = .ok r ∧ Versioned ipVersion r) →
      ∃ r, result = .ok r ∧ ∀ p ∈ r, p.ipVersion ≠ ("IPv4" : Text) := by
    rintro ipVersion result hne ⟨r, hr, hversioned⟩
    exact ⟨r, hr, fun p hp => (hversioned p hp).1 ▸ hne⟩
  cases hasEthernetHeader with
  | false =>
    refine ⟨none, ?_, nofun⟩
    rw [parse_raw]
    exact parseIpv4_none net packetId timestamp interface _ localIps
      fun ha => h (versionNibble_of_accepted ha)
  | true =>
    unfold parse
    split
    · exact ⟨_, rfl, nofun⟩
    split
    · exact ⟨_, rfl, nofun⟩
    · next hshort =>
      obtain ⟨ethertype, htype, hread⟩ := unpack16_of_le rawData 12 (by
        simp only [true_and] at hshort
        omega)
      have hne : ethertype ≠ 0x0800 := by
        rintro rfl
        exact h htype
      rw [ethertypeOf, if_pos rfl, hread, Except.ok_bind]
      dsimp only
      split
      · exact hother (by decide) (parseArp_total ..)
      split
      · next h4 => exact absurd (h4.resolve_right (by simp)) hne
      split
      · exact hother (by decide) (parseIpv6_total ..)
      · refine ⟨_, rfl, ?_⟩
        rintro p ⟨⟩
        exact (by decide : ("OTHER" : Text) ≠ "IPv4")

/-! ## Ports -/

/-- The header is whole, and as long as it has to be. -/
structure WellFormedIpv4 (d : Bytes) : Prop where
  version : (ipv4Fields d).version = 4
  ihl : 5 ≤ (ipv4Fields d).ihl
  header : (ipv4Fields d).ihl * 4 ≤ d.length

/-- No ports are invented: IPv4 metadata is made of a well-formed header only, and ports are those
behind the header of a datagram that is not a later fragment. -/
structure PortsFromHeader (rawData : Bytes) (hasEthernetHeader : Bool)
    (result : Option PacketMetadata) : Prop where
  wellFormed : ∀ p ∈ result, p.ipVersion = ("IPv4" : Text) →
    WellFormedIpv4 (payloadOf rawData hasEthernetHeader)
  ports : ∀ p ∈ result, p.ipVersion = ("IPv4" : Text) → p.srcPort ≠ none ∨ p.dstPort ≠ none →
    let d := payloadOf rawData hasEthernetHeader
    (ipv4Fields d).fragmentOffset = 0 ∧
      p.srcPort = (get16 d ((ipv4Fields d).ihl * 4)).map Nat.cast ∧
      p.dstPort = (get16 d ((ipv4Fields d).ihl * 4 + 2)).map Nat.cast
  malformed : CarriesIpv4 rawData hasEthernetHeader →
    ¬ WellFormedIpv4 (payloadOf rawData hasEthernetHeader) → result = none

/-- The header is not too short, and the datagram is no later fragment with room for ports. -/
def Trustworthy (d : Bytes) : Prop :=
  5 ≤ (ipv4Fields d).ihl ∧ ((ipv4Fields d).fragmentOffset = 0 ∨
    ¬ HasPorts (ipv4Fields d).protocol (d.drop ((ipv4Fields d).ihl * 4)))

/-- Where the metadata of a datagram that is accepted comes from. -/
theorem portsFromHeader_of_accepted (hcarries : CarriesIpv4 rawData hasEthernetHeader)
    (haccepted : Ipv4Accepted (payloadOf rawData hasEthernetHeader)) :
    (∃ result, parse net packetId timestamp interface localIps rawData hasEthernetHeader =
        .ok result ∧ PortsFromHeader rawData hasEthernetHeader result) ↔
      Trustworthy (payloadOf rawData hasEthernetHeader) := by
  obtain ⟨srcIp, dstIp, transport, hread, hparse⟩ := parseIpv4_some net haccepted
  rw [parse_of_carriesIpv4 hcarries, hparse]
  constructor
  · rintro ⟨result, hresult, h⟩
    obtain rfl := Except.ok.inj hresult
    refine ⟨(h.wellFormed _ rfl rfl).ihl, ?_⟩
    rw [or_iff_not_imp_right, not_not]
    intro hports
    obtain ⟨n, hn⟩ : ∃ n, transport.srcPort = some n := by
      rw [(hread.ports hports).1]
      refine get16_isSome ?_
      rcases hports with ⟨-, hlen⟩ | ⟨-, hlen⟩ <;> omega
    exact (h.ports _ rfl rfl (.inl (by simp [ipMetadata, hn]))).1
  · rintro ⟨hihl, hfragment⟩
    have hwell : WellFormedIpv4 (payloadOf rawData hasEthernetHeader) :=
      ⟨haccepted.version, hihl, haccepted.header⟩
    refine ⟨_, rfl, fun _ _ _ => hwell, ?_, fun _ hnot => absurd hwell hnot⟩
    rintro p ⟨⟩ - hreported
    by_cases hports : HasPorts (ipv4Fields (payloadOf rawData hasEthernetHeader)).protocol
        ((payloadOf rawData hasEthernetHeader).drop
          ((ipv4Fields (payloadOf rawData hasEthernetHeader)).ihl * 4))
    · obtain ⟨hsrc, hdst⟩ := hread.ports hports
      rw [get16_drop] at hsrc hdst
      refine ⟨hfragment.resolve_right (not_not.mpr hports), ?_, ?_⟩
      · rw [ipMetadata, hsrc]
        rfl
      · rw [ipMetadata, hdst]
    · obtain ⟨hsrc, hdst⟩ := hread.noPorts hports
      rw [ipMetadata, hsrc, hdst] at hreported
      simp at hreported

/-- No ports are invented exactly if a datagram that is decoded as IPv4 has a header of five words
or more, and is not a later fragment in which ports are found. -/
theorem ports_from_header_iff (net : Addresses) (packetId : Nat) (timestamp interface : Text)
    (localIps : List Text) (rawData : Bytes) (hasEthernetHeader : Bool) :
    (∃ result, parse net packetId timestamp interface localIps rawData hasEthernetHeader =
        .ok result ∧ PortsFromHeader rawData hasEthernetHeader result) ↔
      (CarriesIpv4 rawData hasEthernetHeader →
        Ipv4Accepted (payloadOf rawData hasEthernetHeader) →
        Trustworthy (payloadOf rawData hasEthernetHeader)) := by
  by_cases hcarries : CarriesIpv4 rawData hasEthernetHeader
  · by_cases haccepted : Ipv4Accepted (payloadOf rawData hasEthernetHeader)
    · rw [portsFromHeader_of_accepted hcarries haccepted]
      exact ⟨fun h _ _ => h, fun h => h hcarries haccepted⟩
    · refine ⟨fun _ _ h => absurd h haccepted, fun _ => ⟨none, ?_, nofun, nofun, fun _ _ => rfl⟩⟩
      rw [parse_of_carriesIpv4 hcarries]
      exact parseIpv4_none net packetId timestamp interface _ localIps haccepted
  · obtain ⟨result, hparse, hversion⟩ := parse_of_not_carriesIpv4 net packetId timestamp
      interface localIps hcarries
    refine ⟨fun _ h => absurd h hcarries, fun _ => ⟨result, hparse, ?_, ?_, ?_⟩⟩
    · exact fun p hp h => absurd h (hversion p hp)
    · exact fun p hp h => absurd h (hversion p hp)
    · exact fun h => absurd h hcarries

/-- A UDP header that begins in the middle of the IPv4 header, which is said to be one word long. -/
def shortHeader : Bytes :=
  [0x41, 0, 0, 20, 0x12, 0x34, 0, 0, 64, 17, 0, 0, 192, 168, 1, 15, 8, 8, 8, 8]

/-- The second fragment of a UDP datagram; its payload begins with the bytes CA 6C. -/
def laterFragment : Bytes :=
  [0x45, 0, 0, 28, 0, 1, 0, 185, 64, 17, 0, 0, 192, 168, 1, 15, 8, 8, 8, 8,
    0xCA, 0x6C, 0, 0, 0, 0, 0, 0]

/-- Ports are read in both of them. -/
theorem invented_ports :
    (¬ ∃ result, parse noAddresses 1 "12:00:00.000" "eth0" [] shortHeader false = .ok result ∧
      PortsFromHeader shortHeader false result) ∧
    ¬ ∃ result, parse noAddresses 1 "12:00:00.000" "eth0" [] laterFragment false = .ok result ∧
      PortsFromHeader laterFragment false result := by
  constructor
  · have hcarries : CarriesIpv4 shortHeader false := rfl
    rw [portsFromHeader_of_accepted hcarries ⟨by decide, by decide, by decide⟩]
    exact fun h => absurd h.1 (by decide)
  · have hcarries : CarriesIpv4 laterFragment false := rfl
    rw [portsFromHeader_of_accepted hcarries ⟨by decide, by decide, by decide⟩]
    exact fun h => h.2.elim (by decide) fun hports => hports (.inr ⟨by decide, by decide⟩)

/-! ## With and without an Ethernet header -/

inductive IpVersion where
  | v4
  | v6

namespace IpVersion

def nibble : IpVersion → Nat
  | v4 => 4
  | v6 => 6

def ethertype : IpVersion → Nat
  | v4 => 0x0800
  | v6 => 0x86DD

end IpVersion

/-- Two packets agree in what a datagram says. -/
structure Agree (p q : PacketMetadata) : Prop where
  direction : p.direction = q.direction
  ipVersion : p.ipVersion = q.ipVersion
  srcIp : p.srcIp = q.srcIp
  dstIp : p.dstIp = q.dstIp
  protocol : p.protocol = q.protocol
  srcPort : p.srcPort = q.srcPort
  dstPort : p.dstPort = q.dstPort
  ttl : p.ttl = q.ttl
  tcpFlags : p.tcpFlags = q.tcpFlags

/-- Both are rejected, or both are decoded and agree. -/
def DecodedAlike (x y : Except ReadError (Option PacketMetadata)) : Prop :=
  (x = .ok none ∧ y = .ok none) ∨ ∃ p q, x = .ok (some p) ∧ y = .ok (some q) ∧ Agree p q

/-- An Ethernet header with this EtherType. -/
structure EthernetHeader (header : Bytes) (ethertype : Nat) : Prop where
  length : header.length = 14
  ethertype : get16 header 12 = some ethertype

theorem EthernetHeader.append {ethertype : Nat} (h : EthernetHeader header ethertype) (d : Bytes) :
    get16 (header ++ d) 12 = some ethertype ∧ (header ++ d).drop 14 = d := by
  constructor
  · have htype := drop_of_get16 h.ethertype
    have hdrop : (header ++ d).drop 12 = word16 ethertype ++ (header.drop 14 ++ d) := by
      rw [List.drop_append_of_le_length (by rw [h.length]; decide), htype, List.append_assoc]
    exact get16_of_drop (get16_lt h.ethertype) hdrop
  · rw [List.drop_append_of_le_length (Nat.le_of_eq h.length.symm),
      List.drop_eq_nil_of_le (Nat.le_of_eq h.length), List.nil_append]

theorem parse_ethernet_ipv4 (h : EthernetHeader header 0x0800) (d : Bytes) :
    parse net packetId timestamp interface localIps (header ++ d) true =
      parseIpv4 net packetId timestamp interface (header ++ d).length localIps d
        (header ++ d) := by
  obtain ⟨htype, hpayload⟩ := h.append d
  rw [parse_of_carriesIpv4 (show CarriesIpv4 (header ++ d) true from htype), payloadOf, if_pos rfl,
    hpayload]

theorem parse_ethernet_ipv6 (h : EthernetHeader header 0x86DD) (d : Bytes) :
    parse net packetId timestamp interface localIps (header ++ d) true =
      parseIpv6 net packetId timestamp interface (header ++ d).length localIps d
        (header ++ d) := by
  obtain ⟨htype, hpayload⟩ := h.append d
  obtain ⟨hne, hlen, hread⟩ := parse_of_ethertype htype
  unfold parse
  rw [if_neg hne, if_neg (by simpa using hlen), hread, Except.ok_bind]
  dsimp only
  rw [if_neg (by decide), if_neg (by simp), if_pos (.inl rfl), if_pos rfl, hpayload]

/-- An IPv4 datagram is decoded in the same way. -/
theorem ipv4_alike (h : EthernetHeader header 0x0800) (d : Bytes) (timestamp timestamp' : Text) :
    DecodedAlike (parse net packetId timestamp interface localIps d false)
      (parse net packetId timestamp' interface localIps (header ++ d) true) := by
  rw [parse_raw, parse_ethernet_ipv4 h]
  by_cases haccepted : Ipv4Accepted d
  · obtain ⟨srcIp, dstIp, transport, -, hparse⟩ := parseIpv4_some net haccepted
    exact .inr ⟨_, _, hparse .., hparse .., rfl, rfl, rfl, rfl, rfl, rfl, rfl, rfl, rfl⟩
  · exact .inl ⟨parseIpv4_none net packetId timestamp interface _ localIps haccepted,
      parseIpv4_none net packetId timestamp' interface _ localIps haccepted⟩

/-- Without an Ethernet header an IPv6 datagram is rejected, and with one it is decoded if it has a
whole header. -/
theorem ipv6_alike_iff (hd : versionNibble d = some 6) (h : EthernetHeader header 0x86DD)
    (timestamp timestamp' : Text) :
    DecodedAlike (parse net packetId timestamp interface localIps d false)
      (parse net packetId timestamp' interface localIps (header ++ d) true) ↔ d.length < 40 := by
  have hraw : parse net packetId timestamp interface localIps d false = .ok none := by
    rw [parse_raw]
    refine parseIpv4_none net packetId timestamp interface _ localIps fun haccepted => ?_
    rw [versionNibble_of_accepted haccepted] at hd
    cases hd
  rw [hraw, parse_ethernet_ipv6 h]
  constructor
  · intro halike
    by_contra hlen
    obtain ⟨srcIp, dstIp, transport, -, hparse⟩ := parseIpv6_some net (Nat.le_of_not_lt hlen)
    rw [hparse] at halike
    rcases halike with ⟨-, hnone⟩ | ⟨p, q, hp, -⟩
    · cases hnone
    · cases hp
  · intro hlen
    exact .inl ⟨rfl, parseIpv6_none net packetId timestamp' interface _ localIps hlen⟩

/-- A datagram is decoded in the same way with and without an Ethernet header exactly if it is IPv4,
or too short for an IPv6 header. -/
theorem raw_agrees_iff (v : IpVersion) (hd : versionNibble d = some v.nibble)
    (h : EthernetHeader header v.ethertype) (net : Addresses) (packetId : Nat)
    (timestamp timestamp' interface : Text) (localIps : List Text) :
    DecodedAlike (parse net packetId timestamp interface localIps d false)
      (parse net packetId timestamp' interface localIps (header ++ d) true) ↔
      v = .v4 ∨ d.length < 40 := by
  cases v with
  | v4 => exact ⟨fun _ => .inl rfl, fun _ => ipv4_alike h d timestamp timestamp'⟩
  | v6 => exact (ipv6_alike_iff hd h timestamp timestamp').trans (by simp)

/-- An Ethernet header with a broadcast destination. -/
def broadcastHeader (ethertype : Nat) : Bytes :=
  [255, 255, 255, 255, 255, 255, 0, 0, 0, 0, 0, 0] ++ word16 ethertype

/-- A UDP datagram over IPv4. -/
theorem raw_agrees_iff_laterFragment :
    DecodedAlike (parse noAddresses 1 "12:00:00.000" "eth0" [] laterFragment false)
      (parse noAddresses 1 "12:00:00.001" "eth0" [] (broadcastHeader 0x0800 ++ laterFragment)
        true) :=
  (raw_agrees_iff .v4 (by decide) ⟨rfl, by decide⟩ noAddresses 1 "12:00:00.000" "12:00:00.001"
    "eth0" []).mpr (.inl rfl)

/-- An IPv6 header without a next header. -/
def bareIpv6 : Bytes := [0x60, 0, 0, 0, 0, 0, 59, 64] ++ List.replicate 32 0

/-- It is decoded behind an Ethernet header only. -/
theorem raw_ipv6_rejected : ¬ ∀ (v : IpVersion) (d header : Bytes),
    versionNibble d = some v.nibble → EthernetHeader header v.ethertype →
    DecodedAlike (parse noAddresses 1 "12:00:00.000" "eth0" [] d false)
      (parse noAddresses 1 "12:00:00.000" "eth0" [] (header ++ d) true) := by
  intro h
  have halike := h .v6 bareIpv6 (broadcastHeader 0x86DD) (by decide) ⟨rfl, by decide⟩
  have hlen := (ipv6_alike_iff (by decide) ⟨rfl, by decide⟩ "12:00:00.000" "12:00:00.000").mp halike
  exact absurd hlen (by decide)

end PacketParser

end FocusGuard

import FocusGuard.Network.FlowBounds

/-!
# The directions of a flow

A packet is counted towards the server of its flow if it comes from the address of the client. The
ports are not compared, so on one address both directions are towards the server.

## Main results

* `get?_prune_of_fresh`: a flow that is still fresh is there when its next packet comes.
* `directions_apart_iff`: when a packet and its reply are counted in different directions.
-/

namespace FocusGuard

open FlowTracker

variable {net : Addresses} {t start : FlowTracker} {now : ℚ} {key k : FlowKey} {a b : Arrival}
  {l : List Arrival} {f f' : PacketFlow} {proto : Text} {p q pkt : PacketMetadata}

/-- The packet is added to the counters from the client to the server. -/
structure PacketFlow.ToServer (f f' : PacketFlow) (pkt : PacketMetadata) : Prop where
  packets : f'.packetsClientToServer = f.packetsClientToServer + 1
  bytes : f'.bytesClientToServer = f.bytesClientToServer + pkt.length
  otherPackets : f'.packetsServerToClient = f.packetsServerToClient
  otherBytes : f'.bytesServerToClient = f.bytesServerToClient

/-- The packet is added to the counters from the server to the client. -/
structure PacketFlow.ToClient (f f' : PacketFlow) (pkt : PacketMetadata) : Prop where
  packets : f'.packetsServerToClient = f.packetsServerToClient + 1
  bytes : f'.bytesServerToClient = f.bytesServerToClient + pkt.length
  otherPackets : f'.packetsClientToServer = f.packetsClientToServer
  otherBytes : f'.bytesClientToServer = f.bytesClientToServer

/-- Source and destination are swapped, and the protocol word is the same. -/
structure PacketMetadata.Reply (p q : PacketMetadata) : Prop where
  srcIp : q.srcIp = p.dstIp
  srcPort : q.srcPort = p.dstPort
  dstIp : q.dstIp = p.srcIp
  dstPort : q.dstPort = p.srcPort
  word : firstWord q.protocol = firstWord p.protocol

theorem PacketMetadata.Reply.keyOf_eq (h : p.Reply q) : keyOf proto q = keyOf proto p := by
  refine keyOf_eq_iff.mpr ⟨rfl, ?_⟩
  have hsource : q.source = p.destination := by
    rw [PacketMetadata.source, PacketMetadata.destination, h.srcIp, h.srcPort]
  have hdestination : q.destination = p.source := by
    rw [PacketMetadata.source, PacketMetadata.destination, h.dstIp, h.dstPort]
  rw [hsource, hdestination]
  exact Sym2.eq_swap

/-! ## Counting -/

theorem clientIp_count (now : ℚ) (pkt : PacketMetadata) (f : PacketFlow) :
    (count now pkt f).clientIp = f.clientIp := by
  unfold count
  dsimp only
  split
  · rfl
  · rfl

theorem count_toServer (now : ℚ) (h : pkt.srcIp = f.clientIp) :
    f.ToServer (count now pkt f) pkt := by
  unfold count
  dsimp only
  rw [if_pos h]
  exact ⟨rfl, rfl, rfl, rfl⟩

theorem count_toClient (now : ℚ) (h : pkt.srcIp ≠ f.clientIp) :
    f.ToClient (count now pkt f) pkt := by
  unfold count
  dsimp only
  rw [if_neg h]
  exact ⟨rfl, rfl, rfl, rfl⟩

theorem PacketFlow.ToServer.not_toClient (h : f.ToServer f' p) : ¬ f.ToClient f' q := by
  intro h'
  have hpackets := h.packets
  have hother := h'.otherPackets
  omega

/-! ## Clients -/

/-- The client of the flow has one of the two addresses of the key. -/
def ClientAmong (k : FlowKey) (f : PacketFlow) : Prop := f.clientIp = k.ip1 ∨ f.clientIp = k.ip2

theorem keyOf_ips (proto : Text) (p : PacketMetadata) :
    ((keyOf proto p).ip1 = p.srcIp ∧ (keyOf proto p).ip2 = p.dstIp) ∨
      ((keyOf proto p).ip1 = p.dstIp ∧ (keyOf proto p).ip2 = p.srcIp) := by
  unfold keyOf makeFlowKey
  dsimp only
  split
  · exact .inl ⟨rfl, rfl⟩
  · exact .inr ⟨rfl, rfl⟩

theorem clientAmong_keyOf : ClientAmong (keyOf proto p) f ↔
    f.clientIp = p.srcIp ∨ f.clientIp = p.dstIp := by
  unfold ClientAmong
  rcases keyOf_ips proto p with ⟨h1, h2⟩ | ⟨h1, h2⟩
  · rw [h1, h2]
  · rw [h1, h2]
    exact or_comm

theorem newFlow_clientAmong : ClientAmong (keyOf proto p) (newFlow net now proto p) := by
  rw [clientAmong_keyOf]
  unfold newFlow
  dsimp only
  split
  · exact .inl rfl
  · exact .inr rfl

/-- The flow that a packet finds in the pruned table, or opens. -/
def found (net : Addresses) (t : FlowTracker) (now : ℚ) (proto : Text) (pkt : PacketMetadata) :
    PacketFlow :=
  ((t.prune now (keyOf proto pkt)).flows.get? (keyOf proto pkt)).getD (newFlow net now proto pkt)

/-- Every flow of the table has its client among the addresses of its key. -/
def ClientsAmong (t : FlowTracker) : Prop := ∀ k f, t.flows.get? k = some f → ClientAmong k f

theorem ClientsAmong.found (net : Addresses) (h : ClientsAmong t) (now : ℚ) (proto : Text)
    (p : PacketMetadata) : ClientAmong (keyOf proto p) (found net t now proto p) := by
  unfold FocusGuard.found
  cases hget : (t.prune now (keyOf proto p)).flows.get? (keyOf proto p) with
  | none => exact newFlow_clientAmong
  | some f => exact h _ f (get?_of_prune hget)

theorem clientsAmong_recordAll (net : Addresses) (hstart : start.flows = .empty)
    (l : List Arrival) : ClientsAmong (recordAll net start l) := by
  refine recordAll_invariant (fun a _ k t hkey h => ?_) fun k f hf => ?_
  · obtain ⟨haddr, proto, hword, rfl⟩ := Arrival.key?_eq_some.mp hkey
    intro k f hf
    rw [recordPacket_of_ok haddr hword] at hf
    have hset : ((t.prune a.now (keyOf proto a.pkt)).flows.set (keyOf proto a.pkt)
        (count a.now a.pkt (FocusGuard.found net t a.now proto a.pkt))).get? k = some f := hf
    rw [Dict.get?_set] at hset
    split at hset
    · next heq =>
      rw [heq, ← Option.some.inj hset, ClientAmong, clientIp_count]
      exact h.found net a.now proto a.pkt
    · exact h k f (get?_of_prune hset)
  · rw [hstart] at hf
    cases hf

/-! ## A packet and its reply -/

theorem hasWord_of_firstWord {text word : Text} (h : firstWord text = .ok word) : HasWord text := by
  unfold firstWord at h
  split at h
  · cases h
  · next hdrop =>
    by_contra hnone
    refine hdrop (List.dropWhile_eq_nil_iff.mpr fun c hc => ?_)
    by_contra hspace
    exact hnone ⟨c, hc, Bool.eq_false_iff.mpr hspace⟩

/-- A flow that has not been idle for too long is still there when its next packet comes. -/
theorem get?_prune_of_fresh (h : t.flows.get? key = some f)
    (hfresh : now - f.lastSeen ≤ t.idleTimeout) :
    (t.prune now key).flows.get? key = some f := by
  have hdue : (t.pruneIfDue now).flows.get? key = some f := by
    unfold FlowTracker.pruneIfDue
    split
    · exact get?_pruneStale.mpr ⟨h, hfresh⟩
    · exact h
  rw [prune_eq, if_neg]
  · exact hdue
  · exact fun hnot => hnot.2 (Dict.mem_keys_iff.mpr ⟨f, hdue⟩)

/-- The packet and then its reply are counted in the same flow, one in each direction. -/
def DirectionsApart (net : Addresses) (t : FlowTracker) (a b : Arrival) : Prop :=
  ∃ proto f₁ f₂ t₁ t₂, firstWord a.pkt.protocol = .ok proto ∧
    recordPacket net a.now a.pkt t = (.ok (some f₁), t₁) ∧
    recordPacket net b.now b.pkt t₁ = (.ok (some f₂), t₂) ∧
    t₂.flows.get? (keyOf proto a.pkt) = some f₂ ∧
    ((found net t a.now proto a.pkt).ToServer f₁ a.pkt ∧ f₁.ToClient f₂ b.pkt ∨
      (found net t a.now proto a.pkt).ToClient f₁ a.pkt ∧ f₁.ToServer f₂ b.pkt)

section Reply

variable {idleTimeout : ℚ} (hidle : t.idleTimeout = idleTimeout)
  (haddr : ¬ (a.pkt.srcIp = [] ∨ a.pkt.dstIp = [])) (hreply : a.pkt.Reply b.pkt)
  (hsoon : b.now - a.now ≤ idleTimeout)

include hidle haddr hreply hsoon

/-- A packet with a protocol word and then its reply are counted in the same flow. -/
theorem recordPacket_reply (net : Addresses) (hword : firstWord a.pkt.protocol = .ok proto) :
    ∃ t₁ t₂,
      let f₁ := count a.now a.pkt (found net t a.now proto a.pkt)
      recordPacket net a.now a.pkt t = (.ok (some f₁), t₁) ∧
        recordPacket net b.now b.pkt t₁ = (.ok (some (count b.now b.pkt f₁)), t₂) ∧
        t₂.flows.get? (keyOf proto a.pkt) = some (count b.now b.pkt f₁) := by
  have haddr' : ¬ (b.pkt.srcIp = [] ∨ b.pkt.dstIp = []) := by
    rw [hreply.srcIp, hreply.dstIp]
    exact fun h => haddr h.symm
  have hword' : firstWord b.pkt.protocol = .ok proto := hreply.word.trans hword
  have hfirst : recordPacket net a.now a.pkt t = (.ok _, t.recorded net a.now proto a.pkt) :=
    recordPacket_of_ok haddr hword
  generalize hf : count a.now a.pkt (found net t a.now proto a.pkt) = f₁
  have hf₁ : (t.prune a.now (keyOf proto a.pkt)).counted net a.now proto a.pkt = f₁ := hf
  have hthere : (t.recorded net a.now proto a.pkt).flows.get? (keyOf proto a.pkt) = some f₁ := by
    rw [← hf₁]
    exact Dict.get?_set_self
  have hkept : ((t.recorded net a.now proto a.pkt).prune b.now (keyOf proto a.pkt)).flows.get?
      (keyOf proto a.pkt) = some f₁ := by
    refine get?_prune_of_fresh hthere ?_
    have htimeout : (t.recorded net a.now proto a.pkt).idleTimeout = idleTimeout :=
      (t.prune_settings a.now (keyOf proto a.pkt)).2.1.trans hidle
    rw [htimeout, ← hf, lastSeen_count]
    exact hsoon
  have hsecond : recordPacket net b.now b.pkt (t.recorded net a.now proto a.pkt) = (.ok _, _) :=
    recordPacket_of_ok haddr' hword'
  have hf₂ : ((t.recorded net a.now proto a.pkt).prune b.now (keyOf proto b.pkt)).counted net b.now
      proto b.pkt = count b.now b.pkt f₁ := by
    rw [counted, hreply.keyOf_eq, hkept, Option.getD_some]
  refine ⟨_, _, hf₁ ▸ hfirst, hf₂ ▸ hsecond, ?_⟩
  rw [← hf₂, ← hreply.keyOf_eq]
  exact Dict.get?_set_self

/-- Between two addresses one of the packets comes from the client. -/
theorem apart_of_ne (hclients : ClientsAmong t) (hword : HasWord a.pkt.protocol)
    (hne : a.pkt.srcIp ≠ a.pkt.dstIp) : DirectionsApart net t a b := by
  obtain ⟨proto, hproto⟩ := firstWord_ok hword
  obtain ⟨t₁, t₂, hfirst, hsecond, hget⟩ := recordPacket_reply hidle haddr hreply hsoon net hproto
  refine ⟨proto, _, _, t₁, t₂, hproto, hfirst, hsecond, hget, ?_⟩
  have hclient := clientAmong_keyOf.mp (hclients.found net a.now proto a.pkt)
  rcases hclient with hclient | hclient
  · refine .inl ⟨count_toServer a.now hclient.symm, count_toClient b.now ?_⟩
    rw [clientIp_count, hclient, hreply.srcIp]
    exact hne.symm
  · refine .inr ⟨count_toClient a.now ?_, count_toServer b.now ?_⟩
    · rw [hclient]
      exact hne
    · rw [clientIp_count, hclient, hreply.srcIp]

/-- On one address both packets come from the client. -/
theorem not_apart_of_eq (net : Addresses) (hclients : ClientsAmong t)
    (hsame : a.pkt.srcIp = a.pkt.dstIp) :
    ¬ DirectionsApart net t a b := by
  rintro ⟨proto, f₁, f₂, t₁, t₂, hword, hfirst, hsecond, -, hcounted⟩
  obtain ⟨t₁', t₂', hfirst', hsecond', -⟩ := recordPacket_reply hidle haddr hreply hsoon net hword
  obtain ⟨rfl, rfl⟩ : count a.now a.pkt (found net t a.now proto a.pkt) = f₁ ∧ t₁' = t₁ := by
    rw [hfirst] at hfirst'
    simpa [eq_comm] using hfirst'
  obtain rfl : count b.now b.pkt (count a.now a.pkt (found net t a.now proto a.pkt)) = f₂ := by
    rw [hsecond] at hsecond'
    simpa [eq_comm] using congrArg Prod.fst hsecond'
  have hclient : (found net t a.now proto a.pkt).clientIp = a.pkt.srcIp := by
    have hamong := clientAmong_keyOf.mp (hclients.found net a.now proto a.pkt)
    rwa [← hsame, or_self] at hamong
  have hserver := count_toServer (f := found net t a.now proto a.pkt) a.now hclient.symm
  have hreplied : b.pkt.srcIp = (count a.now a.pkt (found net t a.now proto a.pkt)).clientIp := by
    rw [clientIp_count, hclient, hreply.srcIp, hsame]
  have hserver' := count_toServer b.now hreplied
  rcases hcounted with ⟨-, h⟩ | ⟨h, -⟩
  · exact hserver'.not_toClient h
  · exact hserver.not_toClient h

end Reply

theorem idleTimeout_recordAll (net : Addresses) (start : FlowTracker) (l : List Arrival) :
    (recordAll net start l).idleTimeout = start.idleTimeout := by
  refine recordAll_invariant (I := fun t => t.idleTimeout = start.idleTimeout)
    (fun a _ k t hkey h => ?_) rfl
  obtain ⟨flow, -, hrecord⟩ := recordPacket_eq net t hkey
  rw [hrecord]
  exact (t.prune_settings a.now k).2.1.trans h

/-- The two directions of a flow are kept apart exactly if the packet has a protocol word and its
addresses differ. -/
theorem directions_apart_iff (hstart : start.flows = .empty) (l : List Arrival) (a b : Arrival)
    (hsrc : a.pkt.srcIp ≠ []) (hdst : a.pkt.dstIp ≠ []) (hreply : a.pkt.Reply b.pkt)
    (hsoon : b.now - a.now ≤ start.idleTimeout) :
    DirectionsApart net (recordAll net start l) a b ↔
      HasWord a.pkt.protocol ∧ a.pkt.srcIp ≠ a.pkt.dstIp := by
  have haddr : ¬ (a.pkt.srcIp = [] ∨ a.pkt.dstIp = []) := not_or.mpr ⟨hsrc, hdst⟩
  have hidle := idleTimeout_recordAll net start l
  have hclients := clientsAmong_recordAll net hstart l
  constructor
  · intro h
    obtain ⟨proto, f₁, f₂, t₁, t₂, hword, -⟩ := id h
    exact ⟨hasWord_of_firstWord hword, fun hsame =>
      not_apart_of_eq hidle haddr hreply hsoon net hclients hsame h⟩
  · rintro ⟨hword, hne⟩
    exact apart_of_ne hidle haddr hreply hsoon hclients hword hne

theorem reply_queryOver (protocol : Text) : (queryOver protocol).Reply (replyOver protocol) :=
  ⟨rfl, rfl, rfl, rfl, rfl⟩

/-- A query to another address and its reply are kept apart. -/
theorem directions_apart_iff_exchange :
    DirectionsApart noAddresses freshTracker ⟨1, queryOver "UDP"⟩ ⟨2, replyOver "UDP"⟩ :=
  (directions_apart_iff (l := []) rfl ⟨1, queryOver "UDP"⟩ ⟨2, replyOver "UDP"⟩ (by decide)
    (by decide) (reply_queryOver "UDP") (by decide +kernel)).mpr
      ⟨⟨'U', by decide, by decide⟩, by decide⟩

/-- A query from an address to another port of it, as it is seen on the loopback interface. -/
def loopbackQuery : PacketMetadata := { queryOver "UDP" with dstIp := "192.168.1.15" }

def loopbackReply : PacketMetadata := { replyOver "UDP" with srcIp := "192.168.1.15" }

/-- It is counted in the same direction as its reply. -/
theorem loopback_not_apart : ¬ ∀ (start : FlowTracker) (l : List Arrival) (a b : Arrival),
    start.flows = .empty → a.pkt.srcIp ≠ [] → a.pkt.dstIp ≠ [] →
    a.pkt.source ≠ a.pkt.destination → a.pkt.Reply b.pkt → b.now - a.now ≤ start.idleTimeout →
    DirectionsApart noAddresses (recordAll noAddresses start l) a b := by
  intro h
  have hreply : loopbackQuery.Reply loopbackReply := ⟨rfl, rfl, rfl, rfl, rfl⟩
  have hsoon : (2 : ℚ) - 1 ≤ freshTracker.idleTimeout := by decide +kernel
  refine not_apart_of_eq (a := ⟨1, loopbackQuery⟩) (b := ⟨2, loopbackReply⟩) rfl (by decide) hreply
    hsoon noAddresses (clientsAmong_recordAll noAddresses rfl []) rfl ?_
  exact h freshTracker [] _ _ rfl (by decide) (by decide) (by decide) hreply hsoon

end FocusGuard

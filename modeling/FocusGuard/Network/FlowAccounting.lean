import FocusGuard.Network.Flows
import Mathlib.Data.List.Induction

/-!
# The accounts of the flow table

Whatever is evicted and opened again, a flow in the table has counted the packets with its key since
it was last opened. Nothing is counted for a packet whose protocol is only white space: the call
raises.

## Main results

* `keyOf_eq_iff`: when two packets are counted in the same flow.
* `prune_flows`: an eviction removes flows and changes none.
* `flow_accounts`: what each flow has counted, and the sums without evictions.
-/

namespace FocusGuard

open FlowTracker

/-- A packet and the clock reading of its call. -/
structure Arrival where
  now : ℚ
  pkt : PacketMetadata

def PacketMetadata.source (p : PacketMetadata) : Text × Int := (p.srcIp, p.srcPort.getD 0)

def PacketMetadata.destination (p : PacketMetadata) : Text × Int := (p.dstIp, p.dstPort.getD 0)

/-- The key under which a packet is counted, if it is. -/
def Arrival.key? (a : Arrival) : Option FlowKey :=
  if a.pkt.srcIp = [] ∨ a.pkt.dstIp = [] then none
  else
    match firstWord a.pkt.protocol with
    | .ok proto => some (keyOf proto a.pkt)
    | .error _ => none

/-- The number and the summed lengths of the packets with a key. -/
def counts (k : FlowKey) (l : List Arrival) : Nat × Nat :=
  let counted := l.filter fun a => a.key? = some k
  (counted.length, (counted.map fun a => a.pkt.length).sum)

variable (net : Addresses)

def recordAll (t : FlowTracker) (l : List Arrival) : FlowTracker :=
  l.foldl (fun t a => (recordPacket net a.now a.pkt t).2) t

/-- The packet opens the flow `k`: it is not in the table when the packet is counted. -/
def Opens (t : FlowTracker) (a : Arrival) (k : FlowKey) : Prop :=
  a.key? = some k ∧ (t.prune a.now k).flows.get? k = none

/-- A flow is removed before the packet is counted. -/
def Evicts (t : FlowTracker) (a : Arrival) : Prop :=
  ∃ k, a.key? = some k ∧ ∃ k' ∈ t.flows.keys, k' ∉ (t.prune a.now k).flows.keys

variable {net} {t : FlowTracker} {now : ℚ} {key k : FlowKey} {a : Arrival} {l : List Arrival}
  {proto proto' : Text} {p q : PacketMetadata}

/-! ## Keys -/

theorem endpointLE_antisymm {x y : Text × Int} (h : endpointLE x y) (h' : endpointLE y x) :
    x = y := by
  rcases h with h | ⟨h₁, h₂⟩
  · rcases h' with h' | ⟨h', -⟩
    · exact absurd (lt_trans h h') (lt_irrefl _)
    · exact absurd (h' ▸ h) (lt_irrefl _)
  · rcases h' with h' | ⟨-, h'⟩
    · exact absurd (h₁ ▸ h') (lt_irrefl _)
    · exact Prod.ext h₁ (le_antisymm h₂ h')

theorem endpointLE_total {x y : Text × Int} (h : ¬ endpointLE x y) : endpointLE y x := by
  rcases lt_trichotomy x.1 y.1 with hlt | heq | hlt
  · exact absurd (.inl hlt) h
  · exact .inr ⟨heq.symm, (le_total x.2 y.2).resolve_left fun hle => h (.inr ⟨heq, hle⟩)⟩
  · exact .inl hlt

/-- The two endpoints of a key, in the order of the key. -/
def orderedPair (x y : Text × Int) : (Text × Int) × (Text × Int) :=
  if endpointLE x y then (x, y) else (y, x)

theorem orderedPair_comm (x y : Text × Int) : orderedPair x y = orderedPair y x := by
  unfold orderedPair
  by_cases h : endpointLE x y
  · by_cases h' : endpointLE y x
    · rw [endpointLE_antisymm h h']
    · rw [if_pos h, if_neg h']
  · rw [if_neg h, if_pos (endpointLE_total h)]

theorem mk_orderedPair (x y : Text × Int) :
    s((orderedPair x y).1, (orderedPair x y).2) = s(x, y) := by
  unfold orderedPair
  split
  · rfl
  · exact Sym2.eq_swap

theorem orderedPair_eq_iff {x y x' y' : Text × Int} :
    orderedPair x y = orderedPair x' y' ↔ s(x, y) = s(x', y') := by
  constructor
  · intro h
    rw [← mk_orderedPair x y, h, mk_orderedPair]
  · intro h
    rcases Sym2.eq_iff.mp h with ⟨rfl, rfl⟩ | ⟨rfl, rfl⟩
    · rfl
    · exact orderedPair_comm x y

theorem keyOf_eq (proto : Text) (p : PacketMetadata) :
    keyOf proto p = ⟨proto, (orderedPair p.source p.destination).1.1,
      (orderedPair p.source p.destination).1.2, (orderedPair p.source p.destination).2.1,
      (orderedPair p.source p.destination).2.2⟩ := by
  unfold keyOf makeFlowKey orderedPair
  simp only [Option.getD_some]
  split
  · next h => rw [if_pos (show endpointLE p.source p.destination from h)]; rfl
  · next h => rw [if_neg (show ¬ endpointLE p.source p.destination from h)]; rfl

/-- Two packets have the same key exactly if the protocol word and the endpoints are the same, in
whichever direction. -/
theorem keyOf_eq_iff : keyOf proto p = keyOf proto' q ↔
    proto = proto' ∧ s(p.source, p.destination) = s(q.source, q.destination) := by
  rw [keyOf_eq, keyOf_eq, ← orderedPair_eq_iff, FlowKey.mk.injEq]
  constructor
  · rintro ⟨hproto, h₁, h₂, h₃, h₄⟩
    exact ⟨hproto, Prod.ext (Prod.ext h₁ h₂) (Prod.ext h₃ h₄)⟩
  · rintro ⟨hproto, h⟩
    rw [h]
    exact ⟨hproto, rfl, rfl, rfl, rfl⟩

/-! ## Evictions -/

theorem pruneStale_flows (t : FlowTracker) (now : ℚ) :
    ∃ keep : FlowKey → Bool, (t.pruneStale now).flows = t.flows.filter keep := by
  unfold pruneStale
  exact ⟨fun k => k ∉ (t.flows.items.filter fun item => now - item.2.lastSeen > t.idleTimeout).map
    Prod.fst, rfl⟩

theorem pruneOldest_flows (t : FlowTracker) :
    ∃ keep : FlowKey → Bool, t.pruneOldest.flows = t.flows.filter keep := by
  unfold pruneOldest
  split
  · exact ⟨fun _ => true, (Dict.filter_eq_self fun _ _ => rfl).symm⟩
  · exact ⟨fun k => k ∉ t.sortedKeys.take (max 1 (t.sortedKeys.length / 10)), rfl⟩

/-- An eviction removes flows and changes none. -/
theorem prune_flows (t : FlowTracker) (now : ℚ) (key : FlowKey) :
    ∃ keep : FlowKey → Bool, (t.prune now key).flows = t.flows.filter keep := by
  have hstale : ∃ keep : FlowKey → Bool,
      (if now - t.lastPrune > 60 then t.pruneStale now else t).flows = t.flows.filter keep := by
    split
    · exact pruneStale_flows t now
    · exact ⟨fun _ => true, (Dict.filter_eq_self fun _ _ => rfl).symm⟩
  unfold prune
  generalize (if now - t.lastPrune > 60 then t.pruneStale now else t) = u at hstale
  obtain ⟨keep, hkeep⟩ := hstale
  dsimp only
  split
  · obtain ⟨keep', hkeep'⟩ := pruneOldest_flows u
    exact ⟨_, by rw [hkeep', hkeep, Dict.filter_filter]⟩
  · exact ⟨keep, hkeep⟩

theorem get?_of_prune {f : PacketFlow} (h : (t.prune now key).flows.get? k = some f) :
    t.flows.get? k = some f := by
  obtain ⟨keep, hkeep⟩ := prune_flows t now key
  rw [hkeep, Dict.get?_filter] at h
  split at h
  · exact h
  · cases h

/-- Where no key is removed, nothing is. -/
theorem prune_flows_of_keeps (h : ∀ k ∈ t.flows.keys, k ∈ (t.prune now key).flows.keys) :
    (t.prune now key).flows = t.flows := by
  obtain ⟨keep, hkeep⟩ := prune_flows t now key
  rw [hkeep] at h ⊢
  refine Dict.filter_eq_self fun k hk => ?_
  have hk' := h k hk
  rw [Dict.keys_filter, List.mem_filter] at hk'
  exact hk'.2

/-! ## One packet -/

/-- Counting a packet adds one to the packets of the flow, and its length to the bytes. -/
theorem count_totals (now : ℚ) (pkt : PacketMetadata) (flow : PacketFlow) :
    (count now pkt flow).totalPackets = flow.totalPackets + 1 ∧
      (count now pkt flow).totalBytes = flow.totalBytes + pkt.length := by
  unfold count
  dsimp only
  split
  · exact ⟨Nat.add_right_comm _ _ _, Nat.add_right_comm _ _ _⟩
  · exact ⟨(Nat.add_assoc _ _ _).symm, (Nat.add_assoc _ _ _).symm⟩

theorem newFlow_totals (now : ℚ) (proto : Text) (pkt : PacketMetadata) :
    (newFlow net now proto pkt).totalPackets = 0 ∧ (newFlow net now proto pkt).totalBytes = 0 :=
  ⟨rfl, rfl⟩

theorem recordAll_concat : recordAll net t (l ++ [a]) =
    (recordPacket net a.now a.pkt (recordAll net t l)).2 := by
  simp [recordAll]

/-- A packet that is counted sets the flow under its key in the pruned table. -/
theorem recordPacket_of_key (net : Addresses) (t : FlowTracker) (h : a.key? = some k) : ∃ proto,
    (recordPacket net a.now a.pkt t).2.flows =
      (t.prune a.now k).flows.set k (count a.now a.pkt
        (((t.prune a.now k).flows.get? k).getD (newFlow net a.now proto a.pkt))) := by
  unfold Arrival.key? at h
  split at h
  · cases h
  · next haddr =>
    cases hword : firstWord a.pkt.protocol with
    | error e =>
      rw [hword] at h
      cases h
    | ok proto =>
      rw [hword] at h
      obtain rfl := Option.some.inj h
      rw [recordPacket_of_ok haddr hword]
      exact ⟨proto, rfl⟩

/-- A packet that is not counted leaves the table. -/
theorem recordPacket_of_no_key (h : a.key? = none) : (recordPacket net a.now a.pkt t).2 = t := by
  unfold Arrival.key? at h
  split at h
  · next haddr => rw [recordPacket_of_empty haddr]
  · next haddr =>
    cases hword : firstWord a.pkt.protocol with
    | error e => rw [recordPacket_of_error haddr hword]
    | ok proto =>
      rw [hword] at h
      cases h

theorem counts_concat_self (h : a.key? = some k) (l : List Arrival) :
    counts k (l ++ [a]) = ((counts k l).1 + 1, (counts k l).2 + a.pkt.length) := by
  simp [counts, List.filter_append, h]

theorem counts_concat_of_ne (h : a.key? ≠ some k) (l : List Arrival) :
    counts k (l ++ [a]) = counts k l := by
  simp [counts, List.filter_append, h]

/-! ## Sequences of packets -/

/-- The flow `k` was opened by the packet after `before`, it has not been opened again since, and
it has the counts of `since`, which begins with that packet. -/
structure OpenedBy (net : Addresses) (t : FlowTracker) (k : FlowKey) (f : PacketFlow)
    (before since : List Arrival) : Prop where
  opened : ∃ a after, since = a :: after ∧ Opens (recordAll net t before) a k
  kept : ∀ mid a after, since = mid ++ a :: after → mid ≠ [] →
    ¬ Opens (recordAll net t (before ++ mid)) a k
  packets : f.totalPackets = (counts k since).1
  bytes : f.totalBytes = (counts k since).2

/-- One more packet leaves the flow or is counted in it. -/
theorem OpenedBy.concat {f f' : PacketFlow} {before since : List Arrival}
    (h : OpenedBy net t k f before since)
    (hopens : ¬ Opens (recordAll net t (before ++ since)) a k)
    (hf : (a.key? ≠ some k ∧ f' = f) ∨ (a.key? = some k ∧
      f'.totalPackets = f.totalPackets + 1 ∧ f'.totalBytes = f.totalBytes + a.pkt.length)) :
    OpenedBy net t k f' before (since ++ [a]) := by
  obtain ⟨b, after, rfl, hb⟩ := h.opened
  refine ⟨⟨b, after ++ [a], rfl, hb⟩, fun mid c rest heq hmid => ?_, ?_, ?_⟩
  · rcases List.eq_nil_or_concat rest with rfl | ⟨rest, d, rfl⟩
    · obtain ⟨hmid, hlast⟩ := List.append_inj' heq rfl
      rw [← hmid, ← (List.cons.inj hlast).1]
      exact hopens
    · rw [List.concat_eq_append, ← List.cons_append, ← List.append_assoc] at heq
      obtain ⟨heq, -⟩ := List.append_inj' heq rfl
      exact h.kept mid c rest heq hmid
  · rcases hf with ⟨hne, rfl⟩ | ⟨hkey, hpackets, -⟩
    · rw [counts_concat_of_ne hne, h.packets]
    · rw [counts_concat_self hkey, hpackets, h.packets]
  · rcases hf with ⟨hne, rfl⟩ | ⟨hkey, -, hbytes⟩
    · rw [counts_concat_of_ne hne, h.bytes]
    · rw [counts_concat_self hkey, hbytes, h.bytes]

/-- The packet that opens a flow is the first one that is counted in it. -/
theorem OpenedBy.opens {f : PacketFlow} (hopens : Opens (recordAll net t l) a k)
    (hpackets : f.totalPackets = 1) (hbytes : f.totalBytes = a.pkt.length) :
    OpenedBy net t k f l [a] := by
  refine ⟨⟨a, [], rfl, hopens⟩, fun mid c rest heq hmid => ?_, ?_, ?_⟩
  · obtain ⟨b, mid, rfl⟩ := List.exists_cons_of_ne_nil hmid
    have hlength := congrArg List.length heq
    simp at hlength
  · simp [counts, hopens.1, hpackets]
  · simp [counts, hopens.1, hbytes]

/-- A packet with another key leaves the flow. -/
theorem OpenedBy.passed {f : PacketFlow} {before since : List Arrival}
    (h : OpenedBy net t k f before since) (hne : a.key? ≠ some k) :
    OpenedBy net t k f before (since ++ [a]) :=
  h.concat (fun hopens => hne hopens.1) (.inl ⟨hne, rfl⟩)

/-- Every flow in the table has counted the packets with its key since it was opened. -/
theorem openedBy_of_get? {start : FlowTracker} (hstart : start.flows = .empty) (l : List Arrival) :
    ∀ k f, (recordAll net start l).flows.get? k = some f →
      ∃ before since, l = before ++ since ∧ OpenedBy net start k f before since := by
  induction l using List.reverseRecOn with
  | nil =>
    intro k f hf
    have hnone : start.flows.get? k = some f := hf
    rw [hstart] at hnone
    cases hnone
  | append_singleton l a ih =>
    intro k f hf
    have hpassed : a.key? ≠ some k → (recordAll net start l).flows.get? k = some f →
        ∃ before since, l ++ [a] = before ++ since ∧ OpenedBy net start k f before since := by
      intro hne hget
      obtain ⟨before, since, rfl, hopened⟩ := ih k f hget
      exact ⟨before, since ++ [a], List.append_assoc _ _ _, hopened.passed hne⟩
    rw [recordAll_concat] at hf
    cases hkey : a.key? with
    | none =>
      rw [recordPacket_of_no_key hkey] at hf
      exact hpassed (by simp [hkey]) hf
    | some key =>
      obtain ⟨proto, hflows⟩ := recordPacket_of_key net (recordAll net start l) hkey
      rw [hflows, Dict.get?_set] at hf
      by_cases hk : k = key
      · subst hk
        rw [if_pos rfl, Option.some.injEq] at hf
        obtain ⟨hpackets, hbytes⟩ := count_totals a.now a.pkt
          ((((recordAll net start l).prune a.now k).flows.get? k).getD
            (newFlow net a.now proto a.pkt))
        rw [hf] at hpackets hbytes
        cases hold : ((recordAll net start l).prune a.now k).flows.get? k with
        | none =>
          rw [hold, Option.getD_none] at hpackets hbytes
          refine ⟨l, [a], rfl, .opens ⟨hkey, hold⟩ ?_ ?_⟩
          · rw [hpackets, (newFlow_totals ..).1]
          · rw [hbytes, (newFlow_totals ..).2, Nat.zero_add]
        | some f₀ =>
          obtain ⟨before, since, rfl, hopened⟩ := ih k f₀ (get?_of_prune hold)
          rw [hold, Option.getD_some] at hpackets hbytes
          have hopens : ¬ Opens (recordAll net start (before ++ since)) a k := by
            intro h
            rw [h.2] at hold
            cases hold
          exact ⟨before, since ++ [a], List.append_assoc _ _ _,
            hopened.concat hopens (.inr ⟨hkey, hpackets, hbytes⟩)⟩
      · rw [if_neg hk] at hf
        have hne : a.key? ≠ some k := by
          rw [hkey]
          exact fun h => hk (Option.some.inj h).symm
        exact hpassed hne (get?_of_prune hf)

/-! ## Sums -/

/-- The text has a character that is not white space. -/
def HasWord (text : Text) : Prop := ∃ c ∈ text, Text.isSpace c = false

theorem firstWord_ok {text : Text} (h : HasWord text) : ∃ word, firstWord text = .ok word := by
  obtain ⟨c, hc, hspace⟩ := h
  unfold firstWord
  split
  · next hnil =>
    have hall := List.dropWhile_eq_nil_iff.mp hnil c hc
    rw [hspace] at hall
    cases hall
  · exact ⟨_, rfl⟩

theorem firstWord_error {text : Text} (h : ¬ HasWord text) :
    firstWord text = .error .indexError := by
  have hspaces : text.dropWhile Text.isSpace = [] := by
    refine List.dropWhile_eq_nil_iff.mpr fun c hc => ?_
    by_contra hspace
    exact h ⟨c, hc, Bool.eq_false_iff.mpr hspace⟩
  unfold firstWord
  rw [hspaces]

/-- The packet has both addresses, but nothing in its protocol except white space. -/
def Arrival.Blank (a : Arrival) : Prop :=
  a.pkt.srcIp ≠ [] ∧ a.pkt.dstIp ≠ [] ∧ ¬ HasWord a.pkt.protocol

/-- The call for such a packet raises before it looks at the table. -/
theorem Arrival.Blank.recordPacket (h : a.Blank) (net : Addresses) (t : FlowTracker) :
    recordPacket net a.now a.pkt t = (.error .indexError, t) :=
  recordPacket_of_error (not_or.mpr ⟨h.1, h.2.1⟩) (firstWord_error h.2.2)

/-- The packet has both addresses and a protocol word. -/
def Arrival.Counted (a : Arrival) : Prop :=
  a.pkt.srcIp ≠ [] ∧ a.pkt.dstIp ≠ [] ∧ HasWord a.pkt.protocol

theorem Arrival.Counted.key?_eq (h : a.Counted) :
    ∃ word, firstWord a.pkt.protocol = .ok word ∧ a.key? = some (keyOf word a.pkt) := by
  obtain ⟨hsrc, hdst, hword⟩ := h
  obtain ⟨word, hok⟩ := firstWord_ok hword
  refine ⟨word, hok, ?_⟩
  unfold Arrival.key?
  rw [if_neg (not_or.mpr ⟨hsrc, hdst⟩), hok]

/-- No packet of the sequence makes the table evict a flow. -/
def NoEvictions (net : Addresses) (t : FlowTracker) (l : List Arrival) : Prop :=
  ∀ before a after, l = before ++ a :: after → ¬ Evicts (recordAll net t before) a

theorem NoEvictions.of_concat (h : NoEvictions net t (l ++ [a])) : NoEvictions net t l := by
  rintro before b after rfl
  exact h before b (after ++ [a]) (by simp)

/-- The packets and the bytes over all flows. -/
def FlowTracker.sums (t : FlowTracker) : Nat × Nat :=
  ((t.flows.items.map fun item => item.2.totalPackets).sum,
    (t.flows.items.map fun item => item.2.totalBytes).sum)

/-- A packet that evicts nothing adds one to the packets, and its length to the bytes. -/
theorem sums_recordPacket (hkey : a.key? = some k) (h : ¬ Evicts t a) :
    (recordPacket net a.now a.pkt t).2.sums = (t.sums.1 + 1, t.sums.2 + a.pkt.length) := by
  have hkept : (t.prune a.now k).flows = t.flows := by
    refine prune_flows_of_keeps fun k' hk' => ?_
    by_contra hnot
    exact h ⟨k, hkey, k', hk', hnot⟩
  obtain ⟨proto, hflows⟩ := recordPacket_of_key net t hkey
  rw [hkept] at hflows
  obtain ⟨hpackets, hbytes⟩ := count_totals a.now a.pkt
    ((t.flows.get? k).getD (newFlow net a.now proto a.pkt))
  have hold : ∀ f : PacketFlow → Nat, f (newFlow net a.now proto a.pkt) = 0 →
      f ((t.flows.get? k).getD (newFlow net a.now proto a.pkt)) =
        ((t.flows.get? k).map f).getD 0 := by
    intro f hf
    cases t.flows.get? k with
    | none => exact hf
    | some old => rfl
  have hpacketSum := Dict.sum_set (d := t.flows) (k := k) (v := count a.now a.pkt
    ((t.flows.get? k).getD (newFlow net a.now proto a.pkt))) PacketFlow.totalPackets
  have hbyteSum := Dict.sum_set (d := t.flows) (k := k) (v := count a.now a.pkt
    ((t.flows.get? k).getD (newFlow net a.now proto a.pkt))) PacketFlow.totalBytes
  rw [hpackets, hold _ (newFlow_totals ..).1, ← hflows] at hpacketSum
  rw [hbytes, hold _ (newFlow_totals ..).2, ← hflows] at hbyteSum
  unfold FlowTracker.sums
  refine Prod.ext ?_ ?_
  · dsimp only
    omega
  · dsimp only
    omega

theorem sums_recordAll {start : FlowTracker} (hstart : start.flows = .empty)
    (hl : ∀ a ∈ l, a.Counted) (h : NoEvictions net start l) :
    (recordAll net start l).sums = (l.length, (l.map fun a => a.pkt.length).sum) := by
  induction l using List.reverseRecOn with
  | nil =>
    have hnil : recordAll net start [] = start := rfl
    rw [hnil, FlowTracker.sums, hstart]
    rfl
  | append_singleton l a ih =>
    obtain ⟨word, -, hkey⟩ := (hl a List.mem_concat_self).key?_eq
    have hrest := ih (fun b hb => hl b (List.mem_append_left _ hb)) h.of_concat
    rw [recordAll_concat, sums_recordPacket hkey (h l a [] rfl), hrest]
    simp

/-- The flow table counts exactly the traffic: packets are counted in one flow exactly if they
agree in the protocol word and in the two endpoints, each flow has counted the packets with its key
since it was last opened, and without evictions nothing is missing from the sums. -/
theorem flow_accounts {start : FlowTracker} (hstart : start.flows = .empty)
    (hl : ∀ a ∈ l, a.Counted) :
    (∀ a ∈ l, ∀ b ∈ l, a.key? = b.key? ↔
      firstWord a.pkt.protocol = firstWord b.pkt.protocol ∧
        s(a.pkt.source, a.pkt.destination) = s(b.pkt.source, b.pkt.destination)) ∧
    (∀ k f, (recordAll net start l).flows.get? k = some f →
      ∃ before since, l = before ++ since ∧ OpenedBy net start k f before since) ∧
    (NoEvictions net start l → (recordAll net start l).sums =
      (l.length, (l.map fun a => a.pkt.length).sum)) := by
  refine ⟨fun a ha b hb => ?_, openedBy_of_get? hstart l, sums_recordAll hstart hl⟩
  obtain ⟨word, hword, hkey⟩ := (hl a ha).key?_eq
  obtain ⟨word', hword', hkey'⟩ := (hl b hb).key?_eq
  rw [hkey, hkey', hword, hword', Option.some.injEq, keyOf_eq_iff, Except.ok.injEq]

section Example

/-- A tracker in its first minute. -/
def freshTracker : FlowTracker := { lastPrune := 0 }

/-- A query over the given protocol, and its reply. -/
def queryOver (protocol : Text) : PacketMetadata where
  id := 1
  timestamp := "12:00:00.000"
  interface := "eth0"
  direction := "LAN → WAN"
  ipVersion := "IPv4"
  srcIp := "192.168.1.15"
  dstIp := "1.1.1.1"
  protocol := protocol
  srcPort := some 52000
  dstPort := some 53
  length := 64

def replyOver (protocol : Text) : PacketMetadata :=
  { queryOver protocol with
    srcIp := "1.1.1.1", dstIp := "192.168.1.15", srcPort := some 53, dstPort := some 52000,
    length := 128 }

def exchange : List Arrival := [⟨1, queryOver "UDP"⟩, ⟨2, replyOver "UDP"⟩]

theorem not_evicts {t : FlowTracker} {a : Arrival} (hstale : ¬ a.now - t.lastPrune > 60)
    (hroom : (t.flows.items.length : Int) < t.maxFlows) : ¬ Evicts t a := by
  rintro ⟨k, -, k', hk', hnot⟩
  have hprune : t.prune a.now k = t := by
    unfold prune
    dsimp only
    rw [if_neg hstale, if_neg (fun h => by omega)]
  rw [hprune] at hnot
  exact hnot hk'

/-- The query and its reply are in the sums of the table. -/
theorem flow_accounts_exchange :
    (recordAll noAddresses freshTracker exchange).sums = (2, 192) := by
  have hcounted : ∀ a ∈ exchange, a.Counted := by
    intro a ha
    rcases List.mem_pair.mp ha with rfl | rfl
    · exact ⟨by decide, by decide, 'U', by decide, by decide⟩
    · exact ⟨by decide, by decide, 'U', by decide, by decide⟩
  have hnone : NoEvictions noAddresses freshTracker exchange := by
    intro before a after heq
    rcases before with _ | ⟨b, _ | ⟨c, before⟩⟩
    · obtain rfl := (List.cons.inj heq).1
      exact not_evicts (by decide +kernel) (by decide +kernel)
    · obtain ⟨rfl, hrest⟩ := List.cons.inj heq
      obtain rfl := (List.cons.inj hrest).1
      exact not_evicts (by decide +kernel) (by decide +kernel)
    · simp [exchange] at heq
  exact (flow_accounts rfl hcounted).2.2 hnone

/-- A packet whose protocol is a space is not counted. -/
theorem blank_protocol_uncounted :
    (queryOver " ").srcIp ≠ [] ∧ (queryOver " ").dstIp ≠ [] ∧ (queryOver " ").protocol ≠ [] ∧
      NoEvictions noAddresses freshTracker [⟨1, queryOver " "⟩] ∧
      (recordAll noAddresses freshTracker [⟨1, queryOver " "⟩]).sums ≠
        ([(⟨1, queryOver " "⟩ : Arrival)].length, (queryOver " ").length) := by
  refine ⟨by decide, by decide, by decide, ?_, by decide +kernel⟩
  intro before a after heq
  cases before with
  | nil =>
    obtain rfl := (List.cons.inj heq).1
    exact not_evicts (by decide +kernel) (by decide +kernel)
  | cons b before => simp at heq

end Example

end FocusGuard

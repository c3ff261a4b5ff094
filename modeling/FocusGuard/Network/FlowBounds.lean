import FocusGuard.Lib.Eviction
import FocusGuard.Network.FlowAccounting
import Mathlib.Tactic.Linarith
import Mathlib.Tactic.NormNum

/-!
# The bounds of the flow table

The table has a capacity, and its flows an age. Stale flows are evicted when the last time is more
than a minute ago; where there is no room for a new flow after that, the least recently used ones
are.

## Main results

* `prune_eq`: the two stages of an eviction.
* `flow_table_bounded`: the capacity.
* `flow_ages_bounded`: the age.
-/

namespace FocusGuard

open FlowTracker

variable {net : Addresses} {t start : FlowTracker} {now : ℚ} {key k : FlowKey} {a : Arrival}
  {l : List Arrival} {f : PacketFlow}

namespace FlowTracker

/-! ## Two stages -/

/-- Stale flows are evicted, unless that was done in the last minute. -/
def pruneIfDue (t : FlowTracker) (now : ℚ) : FlowTracker :=
  if now - t.lastPrune > 60 then t.pruneStale now else t

theorem prune_eq (t : FlowTracker) (now : ℚ) (key : FlowKey) : t.prune now key =
    if ((t.pruneIfDue now).flows.items.length : Int) ≥ t.maxFlows ∧
        key ∉ (t.pruneIfDue now).flows.keys then
      (t.pruneIfDue now).pruneOldest
    else t.pruneIfDue now := by
  have hmax : (t.pruneIfDue now).maxFlows = t.maxFlows := by
    unfold pruneIfDue
    split
    · rfl
    · rfl
  rw [← hmax]
  rfl

theorem mem_staleKeys {items : List (FlowKey × PacketFlow)} {idleTimeout : ℚ} :
    k ∈ (items.filter fun item => now - item.2.lastSeen > idleTimeout).map Prod.fst ↔
      ∃ f, (k, f) ∈ items ∧ now - f.lastSeen > idleTimeout := by
  simp only [List.mem_map, List.mem_filter, decide_eq_true_eq, Prod.exists, exists_and_right,
    exists_eq_right]

/-- A flow stays exactly if it has not been idle for too long. -/
theorem get?_pruneStale : (t.pruneStale now).flows.get? k = some f ↔
    t.flows.get? k = some f ∧ now - f.lastSeen ≤ t.idleTimeout := by
  unfold pruneStale
  simp only [Dict.get?_filter, decide_eq_true_eq]
  split
  · next hnot =>
    refine ⟨fun h => ⟨h, ?_⟩, fun h => h.1⟩
    by_contra hstale
    exact hnot (mem_staleKeys.mpr ⟨f, Dict.mem_items_iff.mpr h, lt_of_not_ge hstale⟩)
  · next hmem =>
    obtain ⟨f', hf', hstale⟩ := mem_staleKeys.mp (not_not.mp hmem)
    constructor
    · intro h
      cases h
    · intro h
      have heq := h.1
      rw [Dict.mem_items_iff.mp hf', Option.some.injEq] at heq
      exact absurd h.2 (not_le_of_gt (heq ▸ hstale))

theorem pruneIfDue_flows (t : FlowTracker) (now : ℚ) :
    ∃ keep : FlowKey → Bool, (t.pruneIfDue now).flows = t.flows.filter keep := by
  unfold pruneIfDue
  split
  · exact pruneStale_flows t now
  · exact ⟨fun _ => true, (Dict.filter_eq_self fun _ _ => rfl).symm⟩

/-- The least recently used flows are dropped, one tenth of the table but at least one. -/
theorem pruneOldest_eq (t : FlowTracker) (h : t.flows.items ≠ []) :
    t.pruneOldest.flows =
      t.flows.dropFirst PacketFlow.lastSeen (max 1 (t.flows.items.length / 10)) := by
  have hlength : t.sortedKeys.length = t.flows.items.length := by
    rw [sortedKeys, List.length_map, List.length_mergeSort]
  unfold pruneOldest
  rw [if_neg h, hlength]
  rfl

/-- `v` is `u` with the least recently used flows evicted for lack of room. -/
structure CapacityEviction (u v : FlowTracker) : Prop where
  removed : v.flows.items.length + max 1 (u.flows.items.length / 10) = u.flows.items.length
  kept : ∀ k f, v.flows.get? k = some f → u.flows.get? k = some f
  oldest : ∀ k f, u.flows.get? k = some f → v.flows.get? k = none →
    ∀ k' f', v.flows.get? k' = some f' → f.lastSeen ≤ f'.lastSeen

theorem pruneOldest_evicts (t : FlowTracker) (h : t.flows.items ≠ []) :
    CapacityEviction t t.pruneOldest := by
  have hpos : 0 < t.flows.items.length := List.length_pos_iff.mpr h
  have heq := pruneOldest_eq t h
  constructor
  · rw [heq]
    exact Dict.length_dropFirst (by omega)
  · intro k f hf
    obtain ⟨keep, hkeep⟩ := pruneOldest_flows t
    rw [hkeep, Dict.get?_filter] at hf
    split at hf
    · exact hf
    · cases hf
  · intro k f hf hdropped k' f' hf'
    rw [heq] at hdropped hf'
    exact Dict.rank_le_of_dropped hf hdropped hf'

/-! ## Settings -/

theorem pruneIfDue_settings (t : FlowTracker) (now : ℚ) :
    (t.pruneIfDue now).maxFlows = t.maxFlows ∧ (t.pruneIfDue now).idleTimeout = t.idleTimeout := by
  unfold pruneIfDue
  split
  · exact ⟨rfl, rfl⟩
  · exact ⟨rfl, rfl⟩

theorem pruneOldest_settings (t : FlowTracker) : t.pruneOldest.maxFlows = t.maxFlows ∧
    t.pruneOldest.idleTimeout = t.idleTimeout ∧ t.pruneOldest.lastPrune = t.lastPrune := by
  unfold pruneOldest
  split
  · exact ⟨rfl, rfl, rfl⟩
  · exact ⟨rfl, rfl, rfl⟩

theorem prune_settings (t : FlowTracker) (now : ℚ) (key : FlowKey) :
    (t.prune now key).maxFlows = t.maxFlows ∧ (t.prune now key).idleTimeout = t.idleTimeout ∧
      (t.prune now key).lastPrune = (t.pruneIfDue now).lastPrune := by
  obtain ⟨hmax, hidle⟩ := t.pruneIfDue_settings now
  rw [prune_eq]
  split
  · obtain ⟨hmax', hidle', hlast⟩ := (t.pruneIfDue now).pruneOldest_settings
    exact ⟨hmax'.trans hmax, hidle'.trans hidle, hlast⟩
  · exact ⟨hmax, hidle, rfl⟩

end FlowTracker

/-! ## One packet -/

theorem lastSeen_count (now : ℚ) (pkt : PacketMetadata) (flow : PacketFlow) :
    (count now pkt flow).lastSeen = now := by
  unfold count
  dsimp only
  split
  · rfl
  · rfl

theorem Arrival.key?_eq_some : a.key? = some k ↔ ¬ (a.pkt.srcIp = [] ∨ a.pkt.dstIp = []) ∧
    ∃ proto, firstWord a.pkt.protocol = .ok proto ∧ keyOf proto a.pkt = k := by
  unfold Arrival.key?
  split
  · next h => exact ⟨nofun, fun h' => absurd h h'.1⟩
  · next h =>
    cases hword : firstWord a.pkt.protocol with
    | error e => simp
    | ok proto => simp [h]

/-- What recording a packet with a key returns and leaves. -/
theorem recordPacket_eq (net : Addresses) (t : FlowTracker) (h : a.key? = some k) : ∃ flow,
    flow.lastSeen = a.now ∧ recordPacket net a.now a.pkt t = (.ok (some flow),
      { t.prune a.now k with flows := (t.prune a.now k).flows.set k flow }) := by
  obtain ⟨haddr, proto, hword, rfl⟩ := Arrival.key?_eq_some.mp h
  exact ⟨_, lastSeen_count _ _ _, recordPacket_of_ok haddr hword⟩

/-- The flow that is returned is the one in the table. -/
theorem get?_recordPacket (net : Addresses) (t : FlowTracker) (h : a.key? = some k) : ∃ flow,
    flow.lastSeen = a.now ∧ (recordPacket net a.now a.pkt t).1 = .ok (some flow) ∧
      (recordPacket net a.now a.pkt t).2.flows.get? k = some flow := by
  obtain ⟨flow, hseen, hrecord⟩ := recordPacket_eq net t h
  rw [hrecord]
  exact ⟨flow, hseen, rfl, Dict.get?_set_self⟩

/-- What every packet preserves holds after all of them. -/
theorem recordAll_invariant {I : FlowTracker → Prop}
    (hstep : ∀ a ∈ l, ∀ k t, a.key? = some k → I t → I (recordPacket net a.now a.pkt t).2)
    (hstart : I start) : I (recordAll net start l) := by
  induction l using List.reverseRecOn with
  | nil => exact hstart
  | append_singleton l a ih =>
    have hrest := ih fun b hb => hstep b (List.mem_append_left _ hb)
    rw [recordAll_concat]
    cases hkey : a.key? with
    | none => rwa [recordPacket_of_no_key hkey]
    | some k => exact hstep a List.mem_concat_self k _ hkey hrest

/-! ## The capacity -/

/-- The table is not larger than it may be. -/
def WithinCapacity (maxFlows : Int) (t : FlowTracker) : Prop :=
  t.maxFlows = maxFlows ∧ (t.flows.items.length : Int) ≤ maxFlows

theorem length_pruneIfDue_le (t : FlowTracker) (now : ℚ) :
    (t.pruneIfDue now).flows.items.length ≤ t.flows.items.length := by
  obtain ⟨keep, hkeep⟩ := t.pruneIfDue_flows now
  rw [hkeep]
  exact Dict.length_filter_le keep

/-- Whether a packet makes the table evict flows for lack of room. -/
theorem FlowTracker.prune_cases (t : FlowTracker) (now : ℚ) (key : FlowKey)
    (hmax : 1 ≤ t.maxFlows) :
    (t.prune now key = t.pruneIfDue now ∧ (key ∈ (t.pruneIfDue now).flows.keys ∨
      ((t.pruneIfDue now).flows.items.length : Int) < t.maxFlows)) ∨
    (CapacityEviction (t.pruneIfDue now) (t.prune now key) ∧
      key ∉ (t.pruneIfDue now).flows.keys ∧
      t.maxFlows ≤ (t.pruneIfDue now).flows.items.length) := by
  rw [prune_eq]
  split
  · next h =>
    have hne : (t.pruneIfDue now).flows.items ≠ [] := by
      intro hnil
      rw [hnil] at h
      exact absurd (hmax.trans h.1) (by decide)
    exact .inr ⟨pruneOldest_evicts _ hne, h.2, h.1⟩
  · next h =>
    refine .inl ⟨rfl, ?_⟩
    rw [or_iff_not_imp_left]
    intro hkey
    by_contra hroom
    exact h ⟨not_lt.mp hroom, hkey⟩

/-- A packet of a flow in the table finds room: its flow is kept, or has made room itself. -/
theorem prune_of_mem (hbound : WithinCapacity t.maxFlows t) (hmax : 1 ≤ t.maxFlows)
    (hkey : key ∈ t.flows.keys) : t.prune now key = t.pruneIfDue now := by
  rcases t.prune_cases now key hmax with ⟨heq, -⟩ | ⟨-, hgone, hfull⟩
  · exact heq
  · obtain ⟨keep, hkeep⟩ := t.pruneIfDue_flows now
    rw [hkeep, Dict.keys_filter, List.mem_filter, not_and] at hgone
    have hlt := Dict.length_filter_lt hkey (Bool.eq_false_iff.mpr (hgone hkey))
    rw [← hkeep] at hlt
    have hle := hbound.2
    omega

theorem WithinCapacity.recordPacket {maxFlows : Int} (hmax : 1 ≤ maxFlows)
    (h : WithinCapacity maxFlows t) (hkey : a.key? = some k) :
    WithinCapacity maxFlows (recordPacket net a.now a.pkt t).2 := by
  obtain ⟨rfl, hbound⟩ := h
  obtain ⟨flow, -, hrecord⟩ := recordPacket_eq net t hkey
  have hle := length_pruneIfDue_le t a.now
  rw [hrecord]
  refine ⟨(t.prune_settings a.now k).1, ?_⟩
  dsimp only
  rw [Dict.length_set]
  rcases t.prune_cases a.now k hmax with ⟨heq, hroom⟩ | ⟨hevicted, -, -⟩
  · rw [heq]
    split
    · omega
    · next hnot =>
      have hlt := hroom.resolve_left hnot
      push_cast
      omega
  · have hremoved := hevicted.removed
    split
    · omega
    · push_cast
      omega

/-- The flow table is bounded and evicts least recently used flows: after every packet it holds no
more flows than it may, and that of the packet; a packet of a flow in the table takes no room from
the others; and where there is no room, a tenth of the table goes, the flows seen last staying. A
packet with a blank protocol raises and leaves the table as it is. -/
theorem flow_table_bounded (hstart : start.flows = .empty) (hmax : 1 ≤ start.maxFlows)
    (l : List Arrival) :
    ((recordAll net start l).flows.items.length : Int) ≤ start.maxFlows ∧
    (∀ a : Arrival, a.Counted → ∃ k flow,
      let t := recordAll net start l
      let t' := recordAll net start (l ++ [a])
      a.key? = some k ∧
      (recordPacket net a.now a.pkt t).1 = .ok (some flow) ∧ t'.flows.get? k = some flow ∧
      (k ∈ t.flows.keys → t.prune a.now k = t.pruneIfDue a.now) ∧
      (t.prune a.now k = t.pruneIfDue a.now ∨
        CapacityEviction (t.pruneIfDue a.now) (t.prune a.now k))) ∧
    ∀ a : Arrival, a.Blank → recordPacket net a.now a.pkt (recordAll net start l) =
      (.error .indexError, recordAll net start l) := by
  have hwithin : WithinCapacity start.maxFlows (recordAll net start l) := by
    refine recordAll_invariant (fun a _ k t hkey h => h.recordPacket hmax hkey) ⟨rfl, ?_⟩
    rw [hstart]
    exact (by decide : (0 : Int) ≤ 1).trans hmax
  refine ⟨hwithin.2, fun a ha => ?_, fun a ha => ha.recordPacket net _⟩
  obtain ⟨word, -, hkey⟩ := ha.key?_eq
  obtain ⟨flow, -, hresult, hflow⟩ := get?_recordPacket net (recordAll net start l) hkey
  obtain ⟨hsetting, hbound⟩ := hwithin
  rw [← hsetting] at hbound hmax
  refine ⟨_, flow, hkey, hresult, ?_, prune_of_mem ⟨rfl, hbound⟩ hmax, ?_⟩
  · rw [recordAll_concat]
    exact hflow
  · rcases (recordAll net start l).prune_cases a.now (keyOf word a.pkt) hmax with ⟨heq, -⟩ | h
    · exact .inl heq
    · exact .inr h.1

/-- A query over UDP, and one over TCP. -/
def twoFlows : List Arrival := [⟨1, queryOver "UDP"⟩, ⟨2, queryOver "TCP"⟩]

theorem queryOver_counted (now : ℚ) {protocol : Text} (h : HasWord protocol) :
    Arrival.Counted ⟨now, queryOver protocol⟩ := ⟨by simp [queryOver], by simp [queryOver], h⟩

theorem queryOver_blank (now : ℚ) : Arrival.Blank ⟨now, queryOver " "⟩ := by
  refine ⟨by simp [queryOver], by simp [queryOver], ?_⟩
  rintro ⟨c, hc, hspace⟩
  rw [List.mem_singleton.mp hc] at hspace
  cases hspace

/-- In a table for one flow the second of them evicts the first. -/
theorem flow_table_bounded_twoFlows :
    let t := recordAll noAddresses { freshTracker with maxFlows := 1 } [⟨1, queryOver "UDP"⟩]
    let t' := recordAll noAddresses { freshTracker with maxFlows := 1 } twoFlows
    (t'.flows.items.length : Int) ≤ 1 ∧ ∃ k flow,
      (⟨2, queryOver "TCP"⟩ : Arrival).key? = some k ∧ t'.flows.get? k = some flow ∧
        CapacityEviction (t.pruneIfDue 2) (t.prune 2 k) := by
  intro t t'
  have hmax : (1 : Int) ≤ { freshTracker with maxFlows := 1 }.maxFlows := by decide
  have hcounted : Arrival.Counted ⟨2, queryOver "TCP"⟩ :=
    queryOver_counted 2 ⟨'T', by decide, by decide⟩
  obtain ⟨k, flow, hkey, -, hflow, -, hevicts⟩ :=
    (@flow_table_bounded noAddresses _ rfl hmax [⟨1, queryOver "UDP"⟩]).2.1 _ hcounted
  refine ⟨(flow_table_bounded rfl hmax twoFlows).1, k, flow, hkey, hflow,
    hevicts.resolve_left fun heq => ?_⟩
  have hevicted : (t.prune 2 k).flows.items.length = 0 := by
    obtain rfl : _ = k := Option.some.inj hkey
    decide +kernel
  rw [heq] at hevicted
  revert hevicted
  decide +kernel

/-- The flow of a packet with a blank protocol is not in the table. -/
theorem blank_protocol_no_flow : ¬ ∀ (start : FlowTracker) (l : List Arrival) (a : Arrival),
    start.flows = .empty → 1 ≤ start.maxFlows →
    (∀ b ∈ l ++ [a], b.pkt.srcIp ≠ [] ∧ b.pkt.dstIp ≠ []) →
    ∃ k flow, (recordAll noAddresses start (l ++ [a])).flows.get? k = some flow := by
  intro h
  obtain ⟨k, flow, hflow⟩ := h freshTracker [] ⟨1, queryOver " "⟩ rfl (by decide) fun b hb => by
    obtain rfl := List.mem_singleton.mp hb
    exact ⟨by decide, by decide⟩
  have hnone : recordAll noAddresses freshTracker ([] ++ [⟨1, queryOver " "⟩]) = freshTracker := by
    rw [recordAll_concat, (queryOver_blank 1).recordPacket]
    rfl
  rw [hnone] at hflow
  cases hflow

/-! ## The age -/

/-- The flows were not too old when they were last looked at. -/
structure Aged (idleTimeout : ℚ) (t : FlowTracker) : Prop where
  timeout : t.idleTimeout = idleTimeout
  fresh : ∀ k f, t.flows.get? k = some f → t.lastPrune - f.lastSeen ≤ idleTimeout

/-- The last look is less than a minute ago, and what is left was not too old then. -/
theorem Aged.pruneIfDue {idleTimeout : ℚ} (h : Aged idleTimeout t) (hclock : t.lastPrune ≤ now) :
    Aged idleTimeout (t.pruneIfDue now) ∧ (t.pruneIfDue now).lastPrune ≤ now ∧
      now - (t.pruneIfDue now).lastPrune ≤ 60 := by
  obtain ⟨rfl, hfresh⟩ := h
  unfold FlowTracker.pruneIfDue
  split
  · refine ⟨⟨rfl, fun k f hf => (get?_pruneStale.mp hf).2⟩, le_refl now, ?_⟩
    have hlast : (t.pruneStale now).lastPrune = now := rfl
    rw [hlast, sub_self]
    norm_num
  · next hdue => exact ⟨⟨rfl, hfresh⟩, hclock, not_lt.mp hdue⟩

theorem get?_pruneIfDue_of_prune (h : (t.prune now key).flows.get? k = some f) :
    (t.pruneIfDue now).flows.get? k = some f := by
  rw [prune_eq] at h
  split at h
  · obtain ⟨keep, hkeep⟩ := pruneOldest_flows (t.pruneIfDue now)
    rw [hkeep, Dict.get?_filter] at h
    split at h
    · exact h
    · cases h
  · exact h

/-- After a packet no flow is older than the timeout and the time between two looks. -/
theorem Aged.recordPacket (net : Addresses) {idleTimeout : ℚ} (hidle : 0 ≤ idleTimeout)
    (h : Aged idleTimeout t) (hclock : t.lastPrune ≤ a.now) (hkey : a.key? = some key) :
    let t' := (recordPacket net a.now a.pkt t).2
    Aged idleTimeout t' ∧ (t'.lastPrune = t.lastPrune ∨ t'.lastPrune = a.now) ∧
      ∀ k f, t'.flows.get? k = some f → a.now - f.lastSeen ≤ idleTimeout + 60 := by
  obtain ⟨⟨htimeout, hfresh⟩, hle, hrecent⟩ := h.pruneIfDue hclock
  obtain ⟨flow, hseen, hrecord⟩ := recordPacket_eq net t hkey
  obtain ⟨-, hsetting, hlast⟩ := t.prune_settings a.now key
  have hflows : ∀ k f, ((t.prune a.now key).flows.set key flow).get? k = some f →
      (k = key ∧ f.lastSeen = a.now) ∨ (t.pruneIfDue a.now).flows.get? k = some f := by
    intro k f hf
    rw [Dict.get?_set] at hf
    split at hf
    · next heq =>
      obtain rfl := Option.some.inj hf
      exact .inl ⟨heq, hseen⟩
    · exact .inr (get?_pruneIfDue_of_prune hf)
  rw [hrecord]
  refine ⟨⟨hsetting.trans h.timeout, fun k f hf => ?_⟩, ?_, fun k f hf => ?_⟩
  · dsimp only at hf ⊢
    rw [hlast]
    rcases hflows k f hf with ⟨-, hnew⟩ | hold
    · rw [hnew]
      linarith
    · exact hfresh k f hold
  · dsimp only
    rw [hlast]
    unfold FlowTracker.pruneIfDue
    split
    · exact .inr rfl
    · exact .inl rfl
  · rcases hflows k f hf with ⟨-, hnew⟩ | hold
    · rw [hnew]
      linarith
    · have hage := hfresh k f hold
      linarith

/-- The table is aged after any packets, and was last looked at when it was made or at one of
them. -/
theorem aged_recordAll (net : Addresses) (hstart : start.flows = .empty)
    (hidle : 0 ≤ start.idleTimeout)
    (hclock : (start.lastPrune :: l.map Arrival.now).Pairwise (· ≤ ·)) :
    Aged start.idleTimeout (recordAll net start l) ∧
      (recordAll net start l).lastPrune ∈ start.lastPrune :: l.map Arrival.now := by
  induction l using List.reverseRecOn with
  | nil =>
    refine ⟨⟨rfl, fun k f hf => ?_⟩, List.mem_cons_self⟩
    have hnone : start.flows.get? k = some f := hf
    rw [hstart] at hnone
    cases hnone
  | append_singleton l a ih =>
    rw [List.map_append, ← List.cons_append] at hclock ⊢
    obtain ⟨hbefore, -, hlater⟩ := List.pairwise_append.mp hclock
    obtain ⟨haged, hlast⟩ := ih hbefore
    rw [recordAll_concat]
    cases hkey : a.key? with
    | none =>
      rw [recordPacket_of_no_key hkey]
      exact ⟨haged, List.mem_append_left _ hlast⟩
    | some key =>
      obtain ⟨haged', hlast', -⟩ := haged.recordPacket net hidle
        (hlater _ hlast _ (List.mem_singleton.mpr rfl)) hkey
      refine ⟨haged', ?_⟩
      rcases hlast' with heq | heq
      · rw [heq]
        exact List.mem_append_left _ hlast
      · rw [heq]
        exact List.mem_append_right _ (List.mem_singleton.mpr rfl)

/-- Stale flows are bounded in age: right after a packet no flow has been idle for longer than the
timeout and a minute, and every flow that was evicted as stale had been idle for longer than the
timeout. A packet with a blank protocol raises and evicts nothing. -/
theorem flow_ages_bounded (hstart : start.flows = .empty) (hidle : 0 ≤ start.idleTimeout)
    (l : List Arrival) (a : Arrival)
    (hclock : (start.lastPrune :: (l ++ [a]).map Arrival.now).Pairwise (· ≤ ·)) :
    (a.Counted → ∀ k f, (recordAll net start (l ++ [a])).flows.get? k = some f →
      a.now - f.lastSeen ≤ start.idleTimeout + 60) ∧
    (∀ k f, (recordAll net start l).flows.get? k = some f →
      ((recordAll net start l).pruneIfDue a.now).flows.get? k = none →
      start.idleTimeout < a.now - f.lastSeen) ∧
    (a.Blank → recordPacket net a.now a.pkt (recordAll net start l) =
      (.error .indexError, recordAll net start l)) := by
  rw [List.map_append, ← List.cons_append] at hclock
  obtain ⟨hbefore, -, hlater⟩ := List.pairwise_append.mp hclock
  obtain ⟨haged, hlast⟩ := aged_recordAll net hstart hidle hbefore
  refine ⟨fun ha => ?_, fun k f hf hgone => ?_, fun ha => ha.recordPacket net _⟩
  · obtain ⟨word, -, hkey⟩ := ha.key?_eq
    rw [recordAll_concat]
    exact (haged.recordPacket net hidle (hlater _ hlast _ (List.mem_singleton.mpr rfl)) hkey).2.2
  · rw [← haged.timeout]
    by_contra hfresh
    unfold FlowTracker.pruneIfDue at hgone
    split at hgone
    · rw [get?_pruneStale.mpr ⟨hf, not_lt.mp hfresh⟩] at hgone
      cases hgone
    · rw [hf] at hgone
      cases hgone

/-- The flow of a query goes with the first packet that comes after its timeout, whose own flow is
new. -/
theorem flow_ages_bounded_exchange :
    let t := recordAll noAddresses freshTracker [⟨1, queryOver "UDP"⟩]
    let t' := recordAll noAddresses freshTracker [⟨1, queryOver "UDP"⟩, ⟨400, queryOver "TCP"⟩]
    (∃ k f, t.flows.get? k = some f ∧ (t.pruneIfDue 400).flows.get? k = none ∧
      300 < 400 - f.lastSeen) ∧
    ∃ k f, t'.flows.get? k = some f ∧ 400 - f.lastSeen ≤ 300 + 60 := by
  intro t t'
  have hages := @flow_ages_bounded noAddresses freshTracker rfl
    (by decide +kernel) [⟨1, queryOver "UDP"⟩] ⟨400, queryOver "TCP"⟩ (by decide +kernel)
  have hudp : Arrival.Counted ⟨1, queryOver "UDP"⟩ :=
    queryOver_counted 1 ⟨'U', by decide, by decide⟩
  have htcp : Arrival.Counted ⟨400, queryOver "TCP"⟩ :=
    queryOver_counted 400 ⟨'T', by decide, by decide⟩
  constructor
  · obtain ⟨word, -, hkey⟩ := hudp.key?_eq
    obtain ⟨flow, -, -, hflow⟩ := get?_recordPacket noAddresses freshTracker hkey
    have hgone : (t.pruneIfDue 400).flows.get? (keyOf word (queryOver "UDP")) = none := by
      have hempty : (t.pruneIfDue 400).flows.items = [] := by decide +kernel
      cases hget : (t.pruneIfDue 400).flows.get? (keyOf word (queryOver "UDP")) with
      | none => rfl
      | some f => exact absurd (Dict.mem_items_iff.mpr hget) (by simp [hempty])
    exact ⟨_, flow, hflow, hgone, hages.2.1 _ flow hflow hgone⟩
  · obtain ⟨word, -, hkey⟩ := htcp.key?_eq
    obtain ⟨flow, -, -, hflow⟩ := get?_recordPacket noAddresses t hkey
    exact ⟨_, flow, hflow, hages.1 htcp _ flow hflow⟩

/-- A packet with a blank protocol raises before the table is looked at, however old its flows
are. -/
theorem blank_protocol_no_pruning : ¬ ∀ (start : FlowTracker) (l : List Arrival) (a : Arrival),
    start.flows = .empty → 0 ≤ start.idleTimeout →
    (∀ b ∈ l ++ [a], b.pkt.srcIp ≠ [] ∧ b.pkt.dstIp ≠ []) →
    (start.lastPrune :: (l ++ [a]).map Arrival.now).Pairwise (· ≤ ·) →
    ∀ k f, (recordAll noAddresses start (l ++ [a])).flows.get? k = some f →
      a.now - f.lastSeen ≤ start.idleTimeout + 60 := by
  intro h
  have hold := h freshTracker [⟨1, queryOver "UDP"⟩] ⟨1000, queryOver " "⟩ rfl (by decide +kernel)
    (fun b hb => by
      rcases List.mem_pair.mp hb with rfl | rfl
      · exact ⟨by decide, by decide⟩
      · exact ⟨by decide, by decide⟩)
    (by decide +kernel)
  have hudp : Arrival.Counted ⟨1, queryOver "UDP"⟩ :=
    queryOver_counted 1 ⟨'U', by decide, by decide⟩
  obtain ⟨word, -, hkey⟩ := hudp.key?_eq
  obtain ⟨flow, hseen, -, hflow⟩ := get?_recordPacket noAddresses freshTracker hkey
  rw [recordAll_concat, (queryOver_blank 1000).recordPacket] at hold
  have hage := hold _ flow hflow
  rw [hseen] at hage
  revert hage
  decide +kernel

end FocusGuard

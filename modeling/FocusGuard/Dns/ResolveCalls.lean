import FocusGuard.Dns.Upstream

/-!
# Calls of `resolve` with their suspensions

A call looks into the cache and goes on to the first upstream without a pause, and is suspended
while it connects, sends and waits for the datagram. The calls share nothing but the cache.

## Main definitions

* `resumeCall`: what a call does between two suspensions.
* `LookupStep`: one of the calls goes on to its next suspension.

## Main results

* `resolve_alone`: a call that nobody interrupts does what `resolve` does.
* `served_of_run`: behind the calls there is the traffic of `Dns/Upstream`.
-/

namespace FocusGuard

open DNSMessage

/-- The arguments of a call of `resolve`. -/
structure ResolveCall where
  queryBytes : Bytes
  msg : DNSMessage

/-- What a suspended call waits for. -/
inductive ResolveAwait where
  | sockConnect
  | sockSendall
  | sockRecv
  deriving DecidableEq

inductive CallState where
  | created
  | suspended (await : ResolveAwait) (upstream : Upstream) (rest : List Upstream)
  | returned (reply : Except PyError Bytes)
  | cancelled

/-- What a call is resumed with. -/
inductive Resumption where
  /-- The call begins. -/
  | called (now : ℚ)
  /-- The socket is connected, or the query is sent. -/
  | completed
  | received (data : Bytes) (later : ℚ)
  /-- `asyncio.TimeoutError` or `OSError`. -/
  | failed
  /-- `asyncio.CancelledError`, which no handler catches. -/
  | cancelled

/-- The loop goes to the next upstream; behind the last one the call returns a `SERVFAIL`. -/
def nextUpstream (msg : DNSMessage) : List Upstream → CallState
  | [] => .returned (servfail msg).toBytes
  | upstream :: rest => .suspended .sockConnect upstream rest

/-- What a call does until its next suspension; `none` where it is not suspended in this way. -/
def resumeCall (rt : Runtime) (msg : DNSMessage) :
    CallState → Resumption → DNSResolver → Option (CallState × DNSResolver)
  | .created, .called now, r =>
    match getCachedResponse rt msg now r with
    | (.ok (some cached), r) => some (.returned (.ok cached), r)
    | (.ok none, r) => some (nextUpstream msg r.upstreams, r)
    | (.error e, r) => some (.returned (.error e), r)
  | .suspended .sockConnect upstream rest, .completed, r =>
    some (.suspended .sockSendall upstream rest, r)
  | .suspended .sockSendall upstream rest, .completed, r =>
    some (.suspended .sockRecv upstream rest, r)
  | .suspended .sockRecv _ rest, .received data later, r =>
    if data = [] then some (nextUpstream msg rest, r)
    else some (.returned (.ok data), (storeCache rt msg data later r).2)
  | .suspended _ _ rest, .failed, r => some (nextUpstream msg rest, r)
  | .suspended _ _ _, .cancelled, r => some (.cancelled, r)
  | _, _, _ => none

/-- The resolver and its calls. -/
structure Lookups (P : Type) where
  resolver : DNSResolver
  clock : ℚ
  calls : P → CallState

/-- A call gets on, and nothing else changes. -/
def Lookups.setCall {P : Type} [DecidableEq P] (s : Lookups P) (p : P) (c : CallState) :
    Lookups P := { s with calls := Function.update s.calls p c }

/-- A call is resumed in a state. -/
structure Resumed (P : Type) where
  state : Lookups P
  call : P
  resumption : Resumption

/-- The reading of the clock; an empty datagram is not stored. -/
def Resumption.time? : Resumption → Option ℚ
  | .called now => some now
  | .received data later => if data = [] then none else some later
  | .completed | .failed | .cancelled => none

variable {P : Type} [DecidableEq P] (rt : Runtime) (args : P → ResolveCall)

/-- The call of the event goes on to its next suspension; the clock does not go back. -/
def LookupStep (s : Lookups P) (ev : Resumed P) (s' : Lookups P) : Prop :=
  ev.state = s ∧ (∀ now ∈ ev.resumption.time?, s.clock ≤ now) ∧ ∃ call resolver,
    resumeCall rt (args ev.call).msg (s.calls ev.call) ev.resumption s.resolver =
      some (call, resolver) ∧
    s' = Lookups.setCall ⟨resolver, ev.resumption.time?.getD s.clock, s.calls⟩ ev.call call

namespace CallState

/-- The call has missed the cache and has not ended. -/
def UnderWay (c : CallState) : Prop := ∃ await upstream rest, c = .suspended await upstream rest

@[simp] theorem underWay_suspended {await : ResolveAwait} {upstream : Upstream}
    {rest : List Upstream} : (suspended await upstream rest).UnderWay := ⟨_, _, _, rfl⟩

@[simp] theorem not_underWay_created : ¬ created.UnderWay := by simp [UnderWay]

@[simp] theorem not_underWay_returned {reply : Except PyError Bytes} :
    ¬ (returned reply).UnderWay := by simp [UnderWay]

@[simp] theorem not_underWay_cancelled : ¬ cancelled.UnderWay := by simp [UnderWay]

end CallState

variable {rt args} {s s' t : Lookups P} {ev : Resumed P} {evs : List (Resumed P)} {p q : P}
  {e : Resumption} {c c' : CallState} {r r' : DNSResolver} {msg : DNSMessage}

/-! ## One step -/

/-- What `resumeCall` can do, case by case. -/
inductive CallMove (rt : Runtime) (msg : DNSMessage) :
    CallState → Resumption → DNSResolver → CallState → DNSResolver → Prop where
  | hit {now : ℚ} {r : DNSResolver} {entry : CacheEntry} :
      liveEntry rt r msg now = some entry →
      CallMove rt msg .created (.called now) r
        (.returned (rewriteId entry.responseBytes msg.id)) r
  | miss {now : ℚ} {r : DNSResolver} :
      liveEntry rt r msg now = none →
      CallMove rt msg .created (.called now) r (nextUpstream msg r.upstreams)
        (getCachedResponse rt msg now r).2
  | connected {upstream : Upstream} {rest : List Upstream} {r : DNSResolver} :
      CallMove rt msg (.suspended .sockConnect upstream rest) .completed r
        (.suspended .sockSendall upstream rest) r
  | sent {upstream : Upstream} {rest : List Upstream} {r : DNSResolver} :
      CallMove rt msg (.suspended .sockSendall upstream rest) .completed r
        (.suspended .sockRecv upstream rest) r
  | accepted {upstream : Upstream} {rest : List Upstream} {r : DNSResolver} {data : Bytes}
      {later : ℚ} : data ≠ [] →
      CallMove rt msg (.suspended .sockRecv upstream rest) (.received data later) r
        (.returned (.ok data)) (storeCache rt msg data later r).2
  | empty {upstream : Upstream} {rest : List Upstream} {r : DNSResolver} {later : ℚ} :
      CallMove rt msg (.suspended .sockRecv upstream rest) (.received [] later) r
        (nextUpstream msg rest) r
  | failed {await : ResolveAwait} {upstream : Upstream} {rest : List Upstream} {r : DNSResolver} :
      CallMove rt msg (.suspended await upstream rest) .failed r (nextUpstream msg rest) r
  | cancelled {await : ResolveAwait} {upstream : Upstream} {rest : List Upstream}
      {r : DNSResolver} : CallMove rt msg (.suspended await upstream rest) .cancelled r .cancelled r

theorem resumeCall_hit {now : ℚ} {entry : CacheEntry} (h : liveEntry rt r msg now = some entry) :
    resumeCall rt msg .created (.called now) r =
      some (.returned (rewriteId entry.responseBytes msg.id), r) := by
  rw [resumeCall, getCachedResponse_of_live h]
  cases rewriteId entry.responseBytes msg.id <;> rfl

theorem resumeCall_miss {now : ℚ} (h : liveEntry rt r msg now = none) :
    resumeCall rt msg .created (.called now) r =
      some (nextUpstream msg r.upstreams, (getCachedResponse rt msg now r).2) := by
  have hlookup : getCachedResponse rt msg now r =
      (.ok none, (getCachedResponse rt msg now r).2) :=
    Prod.ext (getCachedResponse_of_not_live h) rfl
  have hupstreams := getCachedResponse_upstreams rt msg now r
  rw [resumeCall, hlookup]
  dsimp only
  rw [hupstreams]

theorem CallMove.resumeCall_eq (h : CallMove rt msg c e r c' r') :
    resumeCall rt msg c e r = some (c', r') := by
  cases h with
  | hit hlive => exact resumeCall_hit hlive
  | miss hlive => exact resumeCall_miss hlive
  | accepted hdata => exact if_neg hdata
  | @failed await => cases await <;> rfl
  | @cancelled await => cases await <;> rfl
  | connected | sent | empty => rfl

theorem CallMove.of_resumeCall (h : resumeCall rt msg c e r = some (c', r')) :
    CallMove rt msg c e r c' r' := by
  cases c with
  | created =>
    cases e with
    | called now =>
      cases hlive : liveEntry rt r msg now with
      | some entry =>
        rw [resumeCall_hit hlive] at h
        cases h
        exact .hit hlive
      | none =>
        rw [resumeCall_miss hlive] at h
        cases h
        exact .miss hlive
    | completed | received | failed | cancelled => cases h
  | suspended await upstream rest =>
    cases e with
    | called => cases await <;> cases h
    | completed =>
      cases await with
      | sockConnect => cases h; exact .connected
      | sockSendall => cases h; exact .sent
      | sockRecv => cases h
    | received data later =>
      cases await with
      | sockConnect | sockSendall => cases h
      | sockRecv =>
        rw [resumeCall] at h
        split at h
        · next hdata =>
          subst hdata
          cases h
          exact .empty
        · next hdata =>
          cases h
          exact .accepted hdata
    | failed => cases await <;> cases h <;> exact .failed
    | cancelled => cases await <;> cases h <;> exact .cancelled
  | returned | cancelled => cases h

theorem LookupStep.call_moves (h : LookupStep rt args s ev s') : ∃ c r,
    CallMove rt (args ev.call).msg (s.calls ev.call) ev.resumption s.resolver c r ∧
    s' = Lookups.setCall ⟨r, ev.resumption.time?.getD s.clock, s.calls⟩ ev.call c := by
  obtain ⟨-, -, c, r, hres, hs'⟩ := h
  exact ⟨c, r, .of_resumeCall hres, hs'⟩

theorem step_of_move (hp : s.calls p = c) (h : CallMove rt (args p).msg c e s.resolver c' r')
    (hclock : ∀ now ∈ e.time?, s.clock ≤ now) : LookupStep rt args s ⟨s, p, e⟩
      (Lookups.setCall ⟨r', e.time?.getD s.clock, s.calls⟩ p c') :=
  ⟨rfl, hclock, c', r', hp ▸ h.resumeCall_eq, rfl⟩

@[simp] theorem calls_setCall_self : (s.setCall p c).calls p = c := Function.update_self _ _ _

theorem calls_setCall_of_ne (h : q ≠ p) : (s.setCall p c).calls q = s.calls q :=
  Function.update_of_ne h _ _

@[simp] theorem setCall_resolver : (s.setCall p c).resolver = s.resolver := rfl
theorem setCall_setCall : (s.setCall p c).setCall p c' = s.setCall p c' := by
  rw [Lookups.setCall, Lookups.setCall, Lookups.setCall, Function.update_idem]

theorem LookupStep.calls_of_ne (h : LookupStep rt args s ev s') (hq : q ≠ ev.call) :
    s'.calls q = s.calls q := by
  obtain ⟨-, -, c, r, -, rfl⟩ := h
  exact calls_setCall_of_ne hq

theorem CallMove.upstreams (h : CallMove rt msg c e r c' r') : r'.upstreams = r.upstreams := by
  cases h with
  | miss => exact getCachedResponse_upstreams ..
  | accepted => exact storeCache_upstreams ..
  | hit | connected | sent | empty | failed | cancelled => rfl

theorem run_upstreams (h : Run (LookupStep rt args) s evs t) :
    t.resolver.upstreams = s.resolver.upstreams := by
  induction h with
  | nil => rfl
  | cons hstep _ ih =>
    obtain ⟨c, r, hmove, rfl⟩ := hstep.call_moves
    exact ih.trans hmove.upstreams

theorem step_connected (rt : Runtime) (args : P → ResolveCall) {upstream : Upstream}
    {rest : List Upstream} (hp : s.calls p = .suspended .sockConnect upstream rest) :
    LookupStep rt args s ⟨s, p, .completed⟩ (s.setCall p (.suspended .sockSendall upstream rest)) :=
  step_of_move hp .connected (by simp [Resumption.time?])

theorem step_sent (rt : Runtime) (args : P → ResolveCall) {upstream : Upstream}
    {rest : List Upstream} (hp : s.calls p = .suspended .sockSendall upstream rest) :
    LookupStep rt args s ⟨s, p, .completed⟩ (s.setCall p (.suspended .sockRecv upstream rest)) :=
  step_of_move hp .sent (by simp [Resumption.time?])

/-- The socket is connected and the query sent. -/
theorem run_sent (rt : Runtime) (args : P → ResolveCall) {upstream : Upstream}
    {rest : List Upstream} (hp : s.calls p = .suspended .sockConnect upstream rest) :
    Run (LookupStep rt args) s
      [⟨s, p, .completed⟩, ⟨s.setCall p (.suspended .sockSendall upstream rest), p, .completed⟩]
      (s.setCall p (.suspended .sockRecv upstream rest)) := by
  have hsent := step_sent rt args
    (calls_setCall_self (s := s) (p := p) (c := .suspended .sockSendall upstream rest))
  rw [setCall_setCall] at hsent
  exact .cons (step_connected rt args hp) (.single hsent)

theorem step_called {now : ℚ} (hp : s.calls p = .created)
    (hlive : liveEntry rt s.resolver (args p).msg now = none) (hclock : s.clock ≤ now) :
    LookupStep rt args s ⟨s, p, .called now⟩
      (Lookups.setCall ⟨(getCachedResponse rt (args p).msg now s.resolver).2, now, s.calls⟩ p
        (nextUpstream (args p).msg s.resolver.upstreams)) :=
  step_of_move hp (.miss hlive) (by simpa [Resumption.time?] using hclock)

/-! ## Without other calls -/

/-- A run of one call leaves the others as they are, in each of its states. -/
theorem run_frame (h : Run (LookupStep rt args) s evs t) (halone : ∀ ev ∈ evs, ev.call = p)
    (hq : q ≠ p) : (∀ ev ∈ evs, ev.state.calls q = s.calls q) ∧ t.calls q = s.calls q := by
  induction h with
  | nil => exact ⟨by simp, rfl⟩
  | @cons s s₁ t ev evs hstep _ ih =>
    obtain ⟨hev, hrest⟩ := List.forall_mem_cons.mp halone
    obtain ⟨hstates, hlast⟩ := ih hrest
    have hsame : s₁.calls q = s.calls q := hstep.calls_of_ne (hev ▸ hq)
    refine ⟨List.forall_mem_cons.mpr ⟨by rw [hstep.1], fun ev hev => ?_⟩, hlast.trans hsame⟩
    exact (hstates ev hev).trans hsame

/-- A run of this call alone leads from one state to the other. -/
def Alone (rt : Runtime) (args : P → ResolveCall) (p : P) (s t : Lookups P) : Prop :=
  ∃ evs, Run (LookupStep rt args) s evs t ∧ ∀ ev ∈ evs, ev.call = p

theorem Alone.single (h : LookupStep rt args s ⟨s, p, e⟩ t) : Alone rt args p s t :=
  ⟨_, .single h, List.forall_mem_singleton.mpr rfl⟩

theorem Alone.trans (h : Alone rt args p s s') (h' : Alone rt args p s' t) :
    Alone rt args p s t := by
  obtain ⟨evs, hrun, halone⟩ := h
  obtain ⟨evs', hrun', halone'⟩ := h'
  exact ⟨evs ++ evs', hrun.append hrun', List.forall_mem_append.mpr ⟨halone, halone'⟩⟩

theorem alone_sent (rt : Runtime) (args : P → ResolveCall) {upstream : Upstream}
    {rest : List Upstream} (hp : s.calls p = .suspended .sockConnect upstream rest) :
    Alone rt args p s (s.setCall p (.suspended .sockRecv upstream rest)) :=
  ⟨_, run_sent rt args hp, by simp⟩

/-- A query that is sent and brings no answer leads to the next upstream. -/
theorem alone_unanswered {upstream : Upstream} {rest : List Upstream}
    (hp : s.calls p = .suspended .sockConnect upstream rest) (htime : e.time? = none)
    (hmove : CallMove rt (args p).msg (.suspended .sockRecv upstream rest) e s.resolver
      (nextUpstream (args p).msg rest) s.resolver) :
    Alone rt args p s (s.setCall p (nextUpstream (args p).msg rest)) := by
  have hstep := step_of_move (s := s.setCall p (.suspended .sockRecv upstream rest))
    calls_setCall_self hmove (by simp [htime])
  rw [htime] at hstep
  rw [← setCall_setCall]
  exact (alone_sent rt args hp).trans (.single hstep)

/-- What the upstreams leave of a call that tries them one after the other. -/
def afterUpstreams (rt : Runtime) (args : ResolveCall) (net : Network) (r : DNSResolver) :
    Option Bytes → DNSResolver × CallState
  | some response => ((storeCache rt args.msg response net.later r).2, .returned (.ok response))
  | none => (r, .returned (servfail args.msg).toBytes)

/-- The loop over the upstreams, with the outcome of each attempt as the network has it. -/
theorem queryUpstreams_alone (net : Network) {upstreams : List Upstream} {i : Nat}
    (hp : s.calls p = nextUpstream (args p).msg upstreams) (hclock : s.clock ≤ net.later) :
    ∃ t, Alone rt args p s t ∧ (t.resolver, t.calls p) =
      afterUpstreams rt (args p) net s.resolver
        (queryUpstreams net (args p).queryBytes upstreams i) := by
  induction upstreams generalizing s i with
  | nil => exact ⟨s, ⟨[], .nil s, by simp⟩, by rw [hp]; rfl⟩
  | cons upstream rest ih =>
    have hnext : Alone rt args p s (s.setCall p (nextUpstream (args p).msg rest)) →
        ∃ t, Alone rt args p s t ∧ (t.resolver, t.calls p) =
          afterUpstreams rt (args p) net s.resolver
            (queryUpstreams net (args p).queryBytes rest (i + 1)) := by
      intro hfailed
      obtain ⟨t, ht, hend⟩ := ih (i := i + 1) calls_setCall_self hclock
      exact ⟨t, hfailed.trans ht, hend⟩
    rw [queryUpstreams]
    cases net.queryUdp i (args p).queryBytes upstream with
    | answer data =>
      dsimp only
      split
      · exact hnext (alone_unanswered (e := .received [] net.later) hp rfl .empty)
      · next hdata =>
        have htime : (Resumption.received data net.later).time? = some net.later := if_neg hdata
        have hstep : LookupStep rt args (s.setCall p (.suspended .sockRecv upstream rest))
            ⟨_, p, .received data net.later⟩ _ :=
          step_of_move calls_setCall_self (.accepted hdata)
            (by rw [htime]; exact fun _ h => Option.some.inj h ▸ hclock)
        refine ⟨_, (alone_sent rt args hp).trans (.single hstep), ?_⟩
        rw [calls_setCall_self]
        rfl
    | timeout => exact hnext (alone_unanswered hp rfl .failed)
    | osError =>
      exact hnext (.single (step_of_move hp .failed (by simp [Resumption.time?])))

/-- A call that nobody interrupts does what `resolve` does. -/
theorem resolve_alone (net : Network) (hp : s.calls p = .created) (hnow : s.clock ≤ net.now)
    (hlater : net.now ≤ net.later) : ∃ t, Alone rt args p s t ∧ (t.resolver, t.calls p) =
      ((resolve rt (args p).queryBytes (args p).msg net s.resolver).2,
        .returned (resolve rt (args p).queryBytes (args p).msg net s.resolver).1) := by
  cases hlive : liveEntry rt s.resolver (args p).msg net.now with
  | some entry =>
    refine ⟨_, .single (step_of_move hp (.hit hlive) (by simpa [Resumption.time?] using hnow)), ?_⟩
    rw [resolve_of_live hlive, calls_setCall_self]
    rfl
  | none =>
    have hcalled := step_called hp hlive hnow
    generalize hr : (getCachedResponse rt (args p).msg net.now s.resolver).2 = r at hcalled
    obtain ⟨t, ht, hend⟩ := queryUpstreams_alone net (i := 0)
      (calls_setCall_self (s := ⟨r, net.now, s.calls⟩)) hlater
    refine ⟨t, (Alone.single hcalled).trans ht, ?_⟩
    rw [hend, resolve_of_not_live hlive, hr]
    dsimp only [Lookups.setCall]
    cases queryUpstreams net (args p).queryBytes s.resolver.upstreams 0 <;> rfl

/-! ## The traffic behind the calls -/

section

/-- The call of `resolve` that the server makes for a query. -/
def Query.call (q : Query) : ResolveCall := ⟨q.bytes, q.msg⟩

/-- The waiting queries of the traffic are those of the calls that are under way. -/
structure Serves (queries : P → Query) (t : Traffic) (s : Lookups P) : Prop where
  resolver : t.resolver = s.resolver
  clock : t.clock = s.clock
  waiting : ∃ l : List P, l.Nodup ∧ (∀ p, p ∈ l ↔ (s.calls p).UnderWay) ∧
    t.waiting.Perm (l.map queries)

variable {queries : P → Query} {t : Traffic}

namespace Serves

omit [DecidableEq P] in
/-- The resolver and the clock go on. -/
theorem moved (h : Serves queries t s) (r : DNSResolver) (now : ℚ) (received : List Received) :
    Serves queries { t with resolver := r, clock := now, received := received }
      ⟨r, now, s.calls⟩ := ⟨rfl, rfl, h.waiting⟩

omit [DecidableEq P] in
theorem mem_waiting (h : Serves queries t s) (hp : (s.calls p).UnderWay) :
    queries p ∈ t.waiting := by
  obtain ⟨l, -, hmem, hwaiting⟩ := h.waiting
  exact hwaiting.mem_iff.mpr (List.mem_map_of_mem ((hmem p).mpr hp))

/-- A call stays under way, or it stays out. -/
theorem stays (h : Serves queries t s) (hc : c.UnderWay ↔ (s.calls p).UnderWay) :
    Serves queries t (s.setCall p c) := by
  obtain ⟨l, hnodup, hmem, hwaiting⟩ := h.waiting
  refine ⟨h.resolver, h.clock, l, hnodup, fun q => (hmem q).trans ?_, hwaiting⟩
  by_cases hq : q = p
  · subst hq
    rw [calls_setCall_self, hc]
  · rw [calls_setCall_of_ne hq]

/-- A call that was under way ends. -/
theorem ends (h : Serves queries t s) (hp : (s.calls p).UnderWay) (hc : ¬ c.UnderWay) :
    Serves queries { t with waiting := t.waiting.erase (queries p) } (s.setCall p c) := by
  obtain ⟨l, hnodup, hmem, hwaiting⟩ := h.waiting
  refine ⟨h.resolver, h.clock, l.erase p, hnodup.erase p, fun q => ?_, ?_⟩
  · rw [hnodup.mem_erase_iff, hmem]
    by_cases hq : q = p
    · subst hq
      simp [hc]
    · simp [hq, calls_setCall_of_ne hq]
  · have hl : (l.map queries).Perm (queries p :: (l.erase p).map queries) :=
      (List.perm_cons_erase ((hmem p).mpr hp)).map queries
    simpa using (hwaiting.trans hl).erase (queries p)

/-- A call gets under way. -/
theorem begins (h : Serves queries t s) (hp : ¬ (s.calls p).UnderWay) (hc : c.UnderWay) :
    Serves queries { t with waiting := queries p :: t.waiting } (s.setCall p c) := by
  obtain ⟨l, hnodup, hmem, hwaiting⟩ := h.waiting
  have hfresh : p ∉ l := fun hl => hp ((hmem p).mp hl)
  refine ⟨h.resolver, h.clock, p :: l, hnodup.cons hfresh, fun q => ?_, hwaiting.cons _⟩
  rw [List.mem_cons, hmem]
  by_cases hq : q = p
  · subst hq
    simp [hc]
  · simp [hq, calls_setCall_of_ne hq]

end Serves

/-- The call goes to the next upstream, or it gives up. -/
theorem Serves.next (h : Serves queries t s) (hp : (s.calls p).UnderWay)
    (rest : List Upstream) : ∃ es t', Run (CallStep rt) t es t' ∧
      Serves queries t' (s.setCall p (nextUpstream msg rest)) := by
  cases rest with
  | nil => exact ⟨_, _, .single (.giveUp (h.mem_waiting hp)), h.ends hp (by simp [nextUpstream])⟩
  | cons => exact ⟨[], t, .nil t, h.stays (by simp [nextUpstream, hp])⟩

omit [DecidableEq P] in
theorem afterLookup_of_live {q : Query} {now : ℚ} {entry : CacheEntry}
    (h : liveEntry rt t.resolver q.msg now = some entry) :
    t.afterLookup rt q now = { t with clock := now } := by
  rw [Traffic.afterLookup, h, getCachedResponse_of_live h]
  cases rewriteId entry.responseBytes q.msg.id <;> rfl

omit [DecidableEq P] in
theorem afterLookup_of_not_live {q : Query} {now : ℚ}
    (h : liveEntry rt t.resolver q.msg now = none) : t.afterLookup rt q now =
      { t with resolver := (getCachedResponse rt q.msg now t.resolver).2, clock := now,
               waiting := q :: t.waiting } := by
  rw [Traffic.afterLookup, if_pos h]

/-- A step of a call is a run of the traffic. -/
theorem LookupStep.serves (h : LookupStep rt (fun p => (queries p).call) s ev s')
    (ht : Serves queries t s) : ∃ es t', Run (CallStep rt) t es t' ∧ Serves queries t' s' := by
  obtain ⟨c, r, hmove, rfl⟩ := h.call_moves
  have hclock := h.2.1
  obtain ⟨s₀, p, e⟩ := ev
  dsimp only at hmove hclock ⊢
  generalize hp : s.calls p = c₀ at hmove
  cases hmove with
  | @hit now _ entry hlive =>
    refine ⟨_, _, .single (.lookup (q := queries p) (ht.clock ▸ hclock now rfl)), ?_⟩
    rw [afterLookup_of_live (ht.resolver ▸ hlive), ht.resolver]
    exact (ht.moved s.resolver now t.received).stays (by simp [hp])
  | @miss now _ hlive =>
    have hlookup : CallStep rt t (.lookup (queries p) now) (t.afterLookup rt (queries p) now) :=
      .lookup (ht.clock ▸ hclock now rfl)
    rw [afterLookup_of_not_live (ht.resolver ▸ hlive), ht.resolver] at hlookup
    have hmoved := ht.moved (getCachedResponse rt (queries p).msg now s.resolver).2 now t.received
    cases hup : s.resolver.upstreams with
    | nil =>
      refine ⟨_, _, .cons hlookup (.single (.giveUp List.mem_cons_self)), ?_⟩
      rw [Traffic.afterGiveUp, List.erase_cons_head]
      exact hmoved.stays (by simp [hp, nextUpstream])
    | cons => exact ⟨_, _, .single hlookup, hmoved.begins (by simp [hp]) (by simp [nextUpstream])⟩
  | connected | sent => exact ⟨[], t, .nil t, ht.stays (by simp [hp])⟩
  | @accepted _ _ _ data later hdata =>
    have htime : (Resumption.received data later).time? = some later := if_neg hdata
    have hunder : (s.calls p).UnderWay := by simp [hp]
    rw [htime] at hclock ⊢
    refine ⟨_, _, .single (.accept (ht.clock ▸ hclock later rfl) (ht.mem_waiting hunder) hdata), ?_⟩
    rw [Traffic.afterAccept, ht.resolver]
    exact (ht.moved _ later _).ends hunder (by simp)
  | empty | failed => exact ht.next (by simp [hp]) _
  | cancelled =>
    have hunder : (s.calls p).UnderWay := by simp [hp]
    exact ⟨_, _, .single (.giveUp (ht.mem_waiting hunder)),
      ht.ends hunder (by simp [CallState.not_underWay_cancelled])⟩

/-- A resolver that nobody has called yet. -/
def Lookups.start (upstreams : List Upstream) (enabled : Bool) (clock : ℚ) : Lookups P :=
  ⟨DNSResolver.init upstreams enabled, clock, fun _ => .created⟩

omit [DecidableEq P] in
theorem serves_start (queries : P → Query) (upstreams : List Upstream) (enabled : Bool)
    (clock : ℚ) : Serves queries ⟨DNSResolver.init upstreams enabled, clock, [], []⟩
      (Lookups.start upstreams enabled clock) :=
  ⟨rfl, rfl, [], .nil, by simp [Lookups.start], .refl _⟩

/-- So every interleaving of the calls is one of the traffic, with its calls waiting. -/
theorem served_of_run {upstreams : List Upstream} {enabled : Bool} {clock : ℚ}
    (h : Run (LookupStep rt fun p => (queries p).call) (.start upstreams enabled clock) evs s) :
    ∃ t, Served rt (fun _ => True) t ∧ Serves queries t s := by
  obtain ⟨es, t, hrun, hs⟩ := h.simulateRuns (R := fun s t => Serves queries t s)
    (fun _ _ _ _ hs hstep => hstep.serves hs) (serves_start queries upstreams enabled clock)
  exact ⟨t, .run (.init ⟨⟨upstreams, enabled, rfl⟩, rfl, rfl⟩) hrun fun _ _ => trivial, hs⟩

end

end FocusGuard

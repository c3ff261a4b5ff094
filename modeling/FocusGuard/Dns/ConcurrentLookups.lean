import FocusGuard.Dns.ResolveCalls

/-!
# Lookups at the same time

Nothing of one call of `resolve` is known to the others but what it stores in the end, so a question
that is asked again in the meantime is sent again.

## Main definitions

* `SecondQuery`: a query is sent while another one for its question is outstanding.
* `Overlaps`: a call misses the cache while another one for its question is under way.

## Main results

* `second_query_iff`: lookups that do not overlap send no second query, and one that does can.
-/

namespace FocusGuard

open DNSMessage

/-! ## Queries and questions -/

namespace CallState

/-- An upstream has got the query and has not answered. -/
def Outstanding (c : CallState) : Prop := ∃ upstream rest, c = .suspended .sockRecv upstream rest

theorem Outstanding.underWay {c : CallState} (h : c.Outstanding) : c.UnderWay := by
  obtain ⟨upstream, rest, rfl⟩ := h
  exact ⟨_, _, _, rfl⟩

end CallState

variable {P : Type} [DecidableEq P] (rt : Runtime) (args : P → ResolveCall)

namespace Resumed

/-- The event sends the datagram to the upstream. -/
def Sends (ev : Resumed P) (datagram : Bytes) (upstream : Upstream) : Prop :=
  ev.resumption = .completed ∧ (args ev.call).queryBytes = datagram ∧
    ∃ rest, ev.state.calls ev.call = .suspended .sockSendall upstream rest

/-- The event begins a call. -/
def Begins (ev : Resumed P) : Prop := ∃ now, ev.resumption = .called now

end Resumed

/-- The calls ask the same question, as the cache sees it. -/
def ShareKey (p q : P) : Prop :=
  ∃ key, getCacheKey rt (args p).msg = some key ∧ getCacheKey rt (args q).msg = some key

/-- The event sends a query while another one for its question is outstanding. -/
def SecondQuery (ev : Resumed P) : Prop :=
  (∃ datagram upstream, ev.Sends args datagram upstream) ∧
    ∃ q, q ≠ ev.call ∧ ShareKey rt args ev.call q ∧ (ev.state.calls q).Outstanding

/-- The event begins a call that finds no usable entry while another one for its question is under
way. -/
def Overlaps (ev : Resumed P) : Prop :=
  ∃ now, ev.resumption = .called now ∧
    liveEntry rt ev.state.resolver (args ev.call).msg now = none ∧
    ∃ q, q ≠ ev.call ∧ ShareKey rt args ev.call q ∧ (ev.state.calls q).UnderWay

/-- No two calls for one question are under way. -/
def Exclusive (s : Lookups P) : Prop :=
  ∀ p q, ShareKey rt args p q → (s.calls p).UnderWay → (s.calls q).UnderWay → p = q

variable {rt args} {s s' t : Lookups P} {ev : Resumed P} {evs : List (Resumed P)} {p q : P}
  {e : Resumption} {c c' : CallState} {r r' : DNSResolver} {msg : DNSMessage}

/-! ## Calls for one question -/

/-- A call gets under way when it begins and finds no usable entry. -/
theorem CallMove.underWay (h : CallMove rt msg c e r c' r') (hc : c'.UnderWay) :
    c.UnderWay ∨ ∃ now, e = .called now ∧ liveEntry rt r msg now = none := by
  cases h with
  | hit => exact absurd hc CallState.not_underWay_returned
  | miss hlive => exact .inr ⟨_, rfl, hlive⟩
  | connected | sent | accepted | empty | failed | cancelled =>
    exact .inl CallState.underWay_suspended

/-- A call that gets under way by a step did not overlap, so nobody else asks its question. -/
theorem LookupStep.underWay (h : LookupStep rt args s ev s') (hapart : ¬ Overlaps rt args ev)
    (hp : (s'.calls ev.call).UnderWay) : (s.calls ev.call).UnderWay ∨
      ∀ q, q ≠ ev.call → ShareKey rt args ev.call q → ¬ (s.calls q).UnderWay := by
  obtain ⟨c, r, hmove, hs'⟩ := h.call_moves
  rw [hs', calls_setCall_self] at hp
  refine (hmove.underWay hp).imp_right ?_
  rintro ⟨now, hcalled, hlive⟩ q hne hsame hq
  rw [← h.1] at hlive hq
  exact hapart ⟨now, hcalled, hlive, q, hne, hsame, hq⟩

omit [DecidableEq P] in
theorem ShareKey.symm (h : ShareKey rt args p q) : ShareKey rt args q p := by
  obtain ⟨key, hp, hq⟩ := h
  exact ⟨key, hq, hp⟩

theorem Exclusive.step (hs : Exclusive rt args s) (h : LookupStep rt args s ev s')
    (hapart : ¬ Overlaps rt args ev) : Exclusive rt args s' := by
  -- one of the two is the call of the event, or nothing has changed for them
  have hother : ∀ q, q ≠ ev.call → ShareKey rt args ev.call q →
      (s'.calls ev.call).UnderWay → ¬ (s'.calls q).UnderWay := by
    intro q hne hsame hp hq
    rw [h.calls_of_ne hne] at hq
    rcases h.underWay hapart hp with hp | hnone
    · exact hne (hs _ _ hsame hp hq).symm
    · exact hnone q hne hsame hq
  intro p q hsame hp hq
  by_cases hpe : p = ev.call
  · subst hpe
    by_contra hne
    exact hother q (Ne.symm hne) hsame hp hq
  · by_cases hqe : q = ev.call
    · subst hqe
      exact absurd hp (hother p hpe hsame.symm hq)
    · rw [h.calls_of_ne hpe] at hp
      rw [h.calls_of_ne hqe] at hq
      exact hs p q hsame hp hq

theorem Exclusive.not_secondQuery (hs : Exclusive rt args s) (h : LookupStep rt args s ev s') :
    ¬ SecondQuery rt args ev := by
  obtain ⟨rfl, -⟩ := h
  rintro ⟨⟨datagram, upstream, -, -, rest, hsending⟩, q, hne, hsame, hq⟩
  exact hne (hs _ _ hsame ⟨_, _, _, hsending⟩ hq.underWay).symm

/-- Lookups that do not overlap keep the calls for one question apart. -/
theorem run_apart (h : Run (LookupStep rt args) s evs t) (hs : Exclusive rt args s)
    (hapart : ∀ ev ∈ evs, ¬ Overlaps rt args ev) :
    Exclusive rt args t ∧ ∀ ev ∈ evs, ¬ SecondQuery rt args ev := by
  induction h with
  | nil => exact ⟨hs, by simp⟩
  | cons hstep _ ih =>
    obtain ⟨hfirst, hrest⟩ := List.forall_mem_cons.mp hapart
    obtain ⟨ht, hnone⟩ := ih (hs.step hstep hfirst) hrest
    exact ⟨ht, List.forall_mem_cons.mpr ⟨hs.not_secondQuery hstep, hnone⟩⟩

/-! ## Overlapping lookups -/

omit [DecidableEq P] in
theorem not_begins_completed : ¬ (⟨s, p, .completed⟩ : Resumed P).Begins := by
  rintro ⟨now, hnow⟩
  cases hnow

/-- A call that is under way can go on until its query is outstanding. -/
theorem outstanding_of_underWay (rt : Runtime) (args : P → ResolveCall)
    (hq : (s.calls q).UnderWay) : ∃ evs t,
    Run (LookupStep rt args) s evs t ∧ (∀ ev ∈ evs, ¬ ev.Begins) ∧ (t.calls q).Outstanding ∧
      ∀ p, p ≠ q → t.calls p = s.calls p := by
  obtain ⟨await, upstream, rest, hcall⟩ := hq
  cases await with
  | sockRecv => exact ⟨[], s, .nil s, by simp, ⟨upstream, rest, hcall⟩, fun _ _ => rfl⟩
  | sockSendall =>
    refine ⟨_, _, .single (step_sent rt args hcall), ?_, ⟨upstream, rest, calls_setCall_self⟩,
      fun p hne => calls_setCall_of_ne hne⟩
    exact List.forall_mem_singleton.mpr not_begins_completed
  | sockConnect =>
    refine ⟨_, _, run_sent rt args hcall, ?_, ⟨upstream, rest, calls_setCall_self⟩,
      fun p hne => calls_setCall_of_ne hne⟩
    exact List.forall_mem_cons.mpr
      ⟨not_begins_completed, List.forall_mem_singleton.mpr not_begins_completed⟩

/-- A lookup that overlaps can send a second query, without any other call beginning. -/
theorem second_of_overlaps {now : ℚ} (hup : s.resolver.upstreams ≠ [])
    (hcreated : s.calls p = .created) (hclock : s.clock ≤ now)
    (h : Overlaps rt args ⟨s, p, .called now⟩) : ∃ evs t,
    Run (LookupStep rt args) s (⟨s, p, .called now⟩ :: evs) t ∧ (∀ ev ∈ evs, ¬ ev.Begins) ∧
      ∃ ev ∈ evs, SecondQuery rt args ev := by
  obtain ⟨_, ⟨⟩, hlive, q, hne, hsame, hq⟩ := h
  obtain ⟨upstream, rest, hupstreams⟩ := List.exists_cons_of_ne_nil hup
  have hcall := step_called hcreated hlive hclock
  rw [hupstreams, nextUpstream] at hcall
  generalize hs₁ : Lookups.setCall _ p (.suspended .sockConnect upstream rest) = s₁ at hcall
  have hq₁ : (s₁.calls q).UnderWay := by
    rw [← hs₁, calls_setCall_of_ne hne]
    exact hq
  obtain ⟨evs, s₂, hrun, hbegins, hout, hothers⟩ := outstanding_of_underWay rt args hq₁
  have hconnecting : s₂.calls p = .suspended .sockConnect upstream rest := by
    rw [hothers p hne.symm, ← hs₁, calls_setCall_self]
  refine ⟨_, _, .cons hcall (hrun.append (run_sent rt args hconnecting)), ?_, _,
    List.mem_append_right _ (.tail _ (.head _)), ?_⟩
  · rw [List.forall_mem_append, List.forall_mem_cons, List.forall_mem_singleton]
    exact ⟨hbegins, not_begins_completed, not_begins_completed⟩
  · refine ⟨⟨_, upstream, rfl, rfl, rest, calls_setCall_self⟩, q, hne, hsame, ?_⟩
    rw [calls_setCall_of_ne hne]
    exact hout

/-- Lookups that do not overlap send no second query while one for their question is outstanding;
and a further lookup can, with no other call beginning, exactly if it overlaps. -/
theorem second_query_iff (hup : s.resolver.upstreams ≠ [])
    (hidle : ∀ p, ¬ (s.calls p).UnderWay) (hrun : Run (LookupStep rt args) s evs t)
    (hapart : ∀ ev ∈ evs, ¬ Overlaps rt args ev) :
    (∀ ev ∈ evs, ¬ SecondQuery rt args ev) ∧
    ∀ p now, t.calls p = .created → t.clock ≤ now →
      (Overlaps rt args ⟨t, p, .called now⟩ ↔ ∃ evs' t',
        Run (LookupStep rt args) t (⟨t, p, .called now⟩ :: evs') t' ∧
        (∀ ev ∈ evs', ¬ ev.Begins) ∧ ∃ ev ∈ evs', SecondQuery rt args ev) := by
  have hexclusive : Exclusive rt args s := fun p _ _ hp _ => absurd hp (hidle p)
  obtain ⟨ht, hnone⟩ := run_apart hrun hexclusive hapart
  refine ⟨hnone, fun p now hcreated hclock => ⟨second_of_overlaps ?_ hcreated hclock, ?_⟩⟩
  · rwa [run_upstreams hrun]
  · rintro ⟨evs', t', hrun', hbegins, ev, hev, hsecond⟩
    by_contra hapart'
    refine (run_apart hrun' ht ?_).2 ev (List.mem_cons_of_mem _ hev) hsecond
    refine List.forall_mem_cons.mpr ⟨hapart', fun ev hev hoverlaps => hbegins ev hev ?_⟩
    obtain ⟨now, hcalled, -⟩ := hoverlaps
    exact ⟨now, hcalled⟩

/-! ## Two calls for one question -/

def tvCalls (_ : Bool) : ResolveCall := tvQuery.call

theorem tvCalls_shareKey (p q : Bool) : ShareKey asciiRuntime tvCalls p q :=
  ⟨_, rfl, rfl⟩

/-- A call that begins behind the end of the other one sends no second query. -/
theorem second_query_iff_inTurn : ∃ evs t,
    Run (LookupStep asciiRuntime tvCalls) (.start [] true 0) evs t ∧
    t.calls false = .returned (.ok tvResponse.wire) ∧
    (∀ ev ∈ evs, ¬ SecondQuery asciiRuntime tvCalls ev) ∧
    ∀ evs' t', Run (LookupStep asciiRuntime tvCalls) t (⟨t, true, .called t.clock⟩ :: evs') t' →
      (∀ ev ∈ evs', ¬ ev.Begins) → ∀ ev ∈ evs', ¬ SecondQuery asciiRuntime tvCalls ev := by
  have hresolve : (resolve asciiRuntime tvQuery.bytes tvQuery.msg (answering tvResponse.wire)
      (DNSResolver.init [] true)).1 = .ok tvResponse.wire := by
    rw [resolve_of_not_live (liveEntry_init [] true _ _), queryUpstreams_answering (by decide)]
  have hlookup : ∃ t, Alone asciiRuntime tvCalls false (.start [] true 0) t ∧ _ = _ :=
    resolve_alone (answering tvResponse.wire) rfl le_rfl le_rfl
  obtain ⟨t, ⟨evs, hrun, halone⟩, hend⟩ := hlookup
  have hfirst : t.calls false = .returned (.ok tvResponse.wire) :=
    (congrArg Prod.snd hend).trans (congrArg CallState.returned hresolve)
  obtain ⟨hstates, hsecond⟩ := run_frame hrun halone (q := true) (by decide)
  have hapart : ∀ ev ∈ evs, ¬ Overlaps asciiRuntime tvCalls ev := by
    rintro ev hev ⟨now, -, -, q, hne, -, hq⟩
    rw [halone ev hev, ne_eq, Bool.not_eq_false] at hne
    rw [hne, hstates ev hev] at hq
    exact CallState.not_underWay_created hq
  obtain ⟨hnone, hnext⟩ := second_query_iff (by decide) (fun _ => CallState.not_underWay_created)
    hrun hapart
  refine ⟨evs, t, hrun, hfirst, hnone, fun evs' t' hrun' hbegins ev hev hquery => ?_⟩
  obtain ⟨now, -, -, q, hne, -, hq⟩ :=
    (hnext true t.clock hsecond le_rfl).mpr ⟨evs', t', hrun', hbegins, ev, hev, hquery⟩
  rw [ne_eq, Bool.not_eq_true] at hne
  dsimp only at hq
  rw [hne, hfirst] at hq
  exact CallState.not_underWay_returned hq

/-- The second call begins while the query of the first is outstanding, and sends its own. -/
theorem second_query_sent : ¬ ∀ (args : Bool → ResolveCall) (evs : List (Resumed Bool))
    (t : Lookups Bool), (∀ p q, ShareKey asciiRuntime args p q) →
    Run (LookupStep asciiRuntime args) (.start [] true 0) evs t →
    (∀ ev ∈ evs, ∀ now, ev.resumption = .called now →
      liveEntry asciiRuntime ev.state.resolver (args ev.call).msg now = none) →
    ∀ ev ∈ evs, ¬ SecondQuery asciiRuntime args ev := by
  intro h
  have hlive : ∀ now, liveEntry asciiRuntime (DNSResolver.init [] true) tvQuery.msg now = none :=
    liveEntry_init [] true tvQuery.msg
  obtain ⟨upstream, rest, hup⟩ := List.exists_cons_of_ne_nil
    (show (DNSResolver.init [] true).upstreams ≠ [] by decide)
  have hcalled : LookupStep asciiRuntime tvCalls (.start [] true 0) ⟨_, false, .called 0⟩
      (Lookups.setCall (.start [] true 0) false (nextUpstream tvQuery.msg
        (DNSResolver.init [] true).upstreams)) := step_called rfl (hlive 0) le_rfl
  rw [hup, nextUpstream] at hcalled
  have hsent := run_sent asciiRuntime tvCalls (calls_setCall_self (p := false)
    (s := .start [] true 0) (c := .suspended .sockConnect upstream rest))
  rw [setCall_setCall, setCall_setCall] at hsent
  generalize hwaits : (Lookups.start [] true 0).setCall false (.suspended .sockRecv upstream rest)
    = s at hsent
  have hresolver : s.resolver = DNSResolver.init [] true := hwaits ▸ rfl
  have hcreated : s.calls true = .created := by
    rw [← hwaits, calls_setCall_of_ne (by decide)]
    rfl
  have hwaiting : (s.calls false).UnderWay := by
    rw [← hwaits, calls_setCall_self]
    exact CallState.underWay_suspended
  have hoverlaps : Overlaps asciiRuntime tvCalls ⟨s, true, .called 0⟩ := by
    refine ⟨0, rfl, ?_, false, Bool.false_ne_true, tvCalls_shareKey _ _, hwaiting⟩
    rw [hresolver]
    exact hlive 0
  obtain ⟨evs, t, hrun, hbegins, ev, hev, hsecond⟩ := second_of_overlaps
    (by rw [hresolver]; decide) hcreated (by rw [← hwaits]; exact le_rfl) hoverlaps
  refine h tvCalls _ t tvCalls_shareKey (.cons hcalled (hsent.append hrun)) ?_ ev (by simp [hev])
    hsecond
  simp only [List.cons_append, List.nil_append, List.forall_mem_cons]
  refine ⟨fun now _ => hlive now, ?_, ?_, ?_, ?_⟩
  · rintro now ⟨⟩
  · rintro now ⟨⟩
  · intro now _
    rw [hresolver]
    exact hlive now
  · intro ev hev now hcalled
    exact absurd ⟨now, hcalled⟩ (hbegins ev hev)

end FocusGuard

import FocusGuard.Dns.ConcurrentLookups
import FocusGuard.Service.LockSafety

/-!
# The daemon with its DNS server

Requests, heartbeats and restarts change the policy while queries come in and lookups wait for
upstreams. A query is judged by the sinkhole of the moment in which its task begins; what the server
does not answer itself it hands to the resolver, whose calls go on beside everything else.

## Main definitions

* `ownReply`: what the server answers without the resolver.
* `ApplianceStep`: the policy changes, a query is heard, or a lookup goes on.

## Main results

* `heard_once`: a query gets the reply that the policy of its arrival calls for.
* `sent_were_permitted`: what leaves the host was permitted when it came in.
* `locked_names_stay`: until a locked session expires, no query for a blocked name leaves the host.
-/

namespace FocusGuard

open Bytes DNSMessage PolicyEngine

/-! ## What the server answers itself -/

/-- The result of `handle_query` where it does not get to the resolver. -/
def ownReply : Route → Option (Except PyError (Option Bytes))
  | .dropped => some (.ok none)
  | .formatError msgId => some ((errResp msgId).toBytes.map some)
  | .noQuestions msg => some ((noQuestionsResp msg).toBytes.map some)
  | .sinkhole msg => some (msg.createSinkholeResponse.toBytes.map some)
  | .forward _ => none

/-- The call of `resolve` that the server makes for a datagram. -/
def resolveCall (data : Bytes) : ResolveCall := ⟨data, (parse data).toOption.getD {}⟩

variable {rt : Runtime} {s : DomainSinkhole} {data : Bytes} {msg : DNSMessage}
  {result : Except PyError (Option Bytes)}

/-- A reply that is built without the network. -/
theorem built_apply (reply : Except PyError Bytes) (r : DNSResolver) :
    (Exec.ofExcept reply >>= fun reply => (pure (some reply) : Exec PyError DNSResolver _)) r =
      (reply.map some, r) := by
  cases reply <;> rfl

/-- Such a reply depends neither on the network nor on the cache, and leaves both alone. -/
theorem handleQuery_of_ownReply (h : ownReply (route rt s data) = some result) (net : Network)
    (r : DNSResolver) : handleQuery rt s data net r = (result, r) := by
  unfold handleQuery
  generalize route rt s data = decision at h
  cases decision with
  | dropped =>
    cases h
    rfl
  | formatError | noQuestions | sinkhole =>
    cases h
    exact built_apply _ r
  | forward => cases h

/-- Any other query is handed to the resolver as it came. -/
theorem handleQuery_of_forward (h : route rt s data = .forward msg) (net : Network)
    (r : DNSResolver) : handleQuery rt s data net r =
      (fun res => (res.1.map some, res.2)) (resolve rt (resolveCall data).queryBytes
        (resolveCall data).msg net r) := by
  have hspec := route_spec rt s data
  rw [h] at hspec
  have hmsg : resolveCall data = ⟨data, msg⟩ := by
    rw [resolveCall, hspec.1]
    rfl
  rw [handleQuery, h, hmsg]
  dsimp only
  rcases hres : resolve rt data msg net r with ⟨e | reply, r'⟩
  · exact Exec.bind_of_error hres
  · exact Exec.bind_of_ok hres

/-! ## Steps -/

/-- The daemon, the calls of its resolver, and what `handle_query` has returned by itself. -/
structure Appliance (P : Type) where
  daemon : Daemon
  lookups : Lookups P
  answered : P → Option (Except PyError (Option Bytes))

inductive ApplianceEvent (P : Type) where
  /-- A request, a heartbeat or a restart. -/
  | service (ev : Event)
  /-- The task of a query begins. -/
  | hears (p : P) (now : ℚ)
  /-- A suspended lookup goes on. -/
  | resumes (ev : Resumed P)

variable {P : Type} [DecidableEq P]

/-- The calls that a new process does not have any more. -/
def Lookups.lost (l : Lookups P) (upstreams : List Upstream) : Lookups P where
  resolver := DNSResolver.init upstreams true
  clock := l.clock
  calls p := match l.calls p with
    | .suspended _ _ _ => .cancelled
    | c => c

omit [DecidableEq P] in
theorem calls_lost {l : Lookups P} {upstreams : List Upstream} {p : P} :
    (l.lost upstreams).calls p = .created ↔ l.calls p = .created := by
  unfold Lookups.lost
  dsimp only
  cases l.calls p <;> simp

/-- No task has begun for this query. -/
def Appliance.Unheard (a : Appliance P) (p : P) : Prop :=
  a.answered p = none ∧ a.lookups.calls p = .created

def Appliance.sinkhole (a : Appliance P) : DomainSinkhole := a.daemon.engine.sinkhole

/-- One step of the process; a restart configures the upstreams anew. -/
inductive ApplianceStep (rt : Runtime) (queries : P → Bytes) :
    Appliance P → ApplianceEvent P → Appliance P → Prop where
  | service {a : Appliance P} {ev : Event} {d : Daemon} :
      (∀ env, ev ≠ .restart env) → Daemon.Step rt a.daemon ev d →
      ApplianceStep rt queries a (.service ev) { a with daemon := d }
  | restarts {a : Appliance P} {env : CallEnv} {d : Daemon} {upstreams : List Upstream} :
      Daemon.Step rt a.daemon (.restart env) d →
      ApplianceStep rt queries a (.service (.restart env))
        { a with daemon := d, lookups := a.lookups.lost upstreams }
  | answers {a : Appliance P} {p : P} {now : ℚ} {result : Except PyError (Option Bytes)} :
      a.Unheard p → ownReply (route rt a.sinkhole (queries p)) = some result →
      ApplianceStep rt queries a (.hears p now)
        { a with answered := Function.update a.answered p (some result) }
  | forwards {a : Appliance P} {p : P} {now : ℚ} {l : Lookups P} :
      a.Unheard p → ownReply (route rt a.sinkhole (queries p)) = none →
      LookupStep rt (fun p => resolveCall (queries p)) a.lookups ⟨a.lookups, p, .called now⟩ l →
      ApplianceStep rt queries a (.hears p now) { a with lookups := l }
  | resumes {a : Appliance P} {ev : Resumed P} {l : Lookups P} :
      (a.lookups.calls ev.call).UnderWay →
      LookupStep rt (fun p => resolveCall (queries p)) a.lookups ev l →
      ApplianceStep rt queries a (.resumes ev) { a with lookups := l }

def ApplianceEvent.service? : ApplianceEvent P → Option Event
  | .service ev => some ev
  | .hears _ _ | .resumes _ => none

variable {queries : P → Bytes} {a a' : Appliance P} {es : List (ApplianceEvent P)}
  {ev : ApplianceEvent P} {p : P} {now : ℚ}

/-- The policy goes through the steps of the daemon alone. -/
theorem daemon_run (h : Run (ApplianceStep rt queries) a es a') :
    Run (Daemon.Step rt) a.daemon (es.filterMap ApplianceEvent.service?) a'.daemon := by
  induction h with
  | nil a => exact .nil a.daemon
  | cons hstep _ ih =>
    cases hstep with
    | service _ hd => exact .cons hd ih
    | restarts hd => exact .cons hd ih
    | answers | forwards | resumes => exact ih

/-! ## One query -/

/-- The server has answered the query itself. -/
def Appliance.AnswersAlone (p : P) (result : Except PyError (Option Bytes)) (a : Appliance P) :
    Prop := a.answered p = some result ∧ a.lookups.calls p = .created

omit [DecidableEq P] in
/-- A call that has begun is not a new one. -/
theorem CallMove.ne_created {c c' : CallState} {e : Resumption} {r r' : DNSResolver}
    (h : CallMove rt msg c e r c' r') : c' ≠ .created := by
  have hnext : ∀ upstreams, nextUpstream msg upstreams ≠ .created := by
    rintro (- | ⟨upstream, rest⟩) <;> simp [nextUpstream]
  cases h with
  | miss | empty | failed => exact hnext _
  | hit | connected | sent | accepted | cancelled => simp

namespace ApplianceStep

/-- Only a lookup under way is resumed. -/
theorem call_ne {ev : Resumed P} (h : ApplianceStep rt queries a (.resumes ev) a')
    (hp : a.lookups.calls p = .created) : ev.call ≠ p := by
  rintro rfl
  cases h with
  | resumes hunder => exact absurd hunder (by simp [hp])

/-- What is heard stays heard. -/
theorem unheard (h : ApplianceStep rt queries a ev a') (hp : a'.Unheard p) : a.Unheard p := by
  obtain ⟨hanswered, hcreated⟩ := hp
  cases h with
  | service => exact ⟨hanswered, hcreated⟩
  | restarts => exact ⟨hanswered, calls_lost.mp hcreated⟩
  | @answers q =>
    refine ⟨?_, hcreated⟩
    by_cases hq : p = q
    · subst hq
      simp at hanswered
    · exact (Function.update_of_ne hq _ _).symm.trans hanswered
  | @forwards q _ _ hunheard _ hl =>
    by_cases hq : p = q
    · exact hq ▸ hunheard
    · exact ⟨hanswered, hl.calls_of_ne hq ▸ hcreated⟩
  | @resumes ev l hunder hl =>
    by_cases hq : p = ev.call
    · obtain ⟨c, r, hmove, rfl⟩ := hl.call_moves
      rw [hq, calls_setCall_self] at hcreated
      exact absurd hcreated hmove.ne_created
    · exact ⟨hanswered, hl.calls_of_ne hq ▸ hcreated⟩

/-- A query that the server has answered itself does not come to the resolver later. -/
theorem answersAlone (h : ApplianceStep rt queries a ev a') (hp : a.AnswersAlone p result) :
    a'.AnswersAlone p result := by
  obtain ⟨hanswered, hcreated⟩ := hp
  cases h with
  | service => exact ⟨hanswered, hcreated⟩
  | restarts => exact ⟨hanswered, calls_lost.mpr hcreated⟩
  | @answers q _ _ hunheard =>
    have hq : p ≠ q := by
      rintro rfl
      simp [hunheard.1] at hanswered
    exact ⟨(Function.update_of_ne hq _ _).trans hanswered, hcreated⟩
  | @forwards q _ _ hunheard _ hl =>
    have hq : p ≠ q := by
      rintro rfl
      simp [hunheard.1] at hanswered
    exact ⟨hanswered, (hl.calls_of_ne hq).trans hcreated⟩
  | resumes hunder hl =>
    have hq := call_ne (.resumes hunder hl) hcreated
    exact ⟨hanswered, (hl.calls_of_ne hq.symm).trans hcreated⟩

end ApplianceStep

theorem unheard_of_run (h : Run (ApplianceStep rt queries) a es a') (hp : a'.Unheard p) :
    a.Unheard p ∧ ∀ ev, .resumes ev ∈ es → ev.call ≠ p := by
  induction h with
  | nil => exact ⟨hp, by simp⟩
  | cons hstep _ ih =>
    obtain ⟨hmid, hrest⟩ := ih hp
    have hfirst := hstep.unheard hmid
    refine ⟨hfirst, fun ev hev => ?_⟩
    rcases List.mem_cons.mp hev with rfl | hev
    · exact hstep.call_ne hfirst.2
    · exact hrest ev hev

theorem answersAlone_of_run (h : Run (ApplianceStep rt queries) a es a')
    (hp : a.AnswersAlone p result) :
    a'.AnswersAlone p result ∧ ∀ ev, .resumes ev ∈ es → ev.call ≠ p := by
  induction h with
  | nil => exact ⟨hp, by simp⟩
  | cons hstep _ ih =>
    obtain ⟨hlast, hrest⟩ := ih (hstep.answersAlone hp)
    refine ⟨hlast, fun ev hev => ?_⟩
    rcases List.mem_cons.mp hev with rfl | hev
    · exact hstep.call_ne hp.2
    · exact hrest ev hev

/-- A query is judged when it is heard, and what the server answers itself stays answered. -/
theorem heard_once (h : Run (ApplianceStep rt queries) a es a') (hp : .hears p now ∈ es) :
    ∃ es₁ a₁, es₁ <+: es ∧ Run (ApplianceStep rt queries) a es₁ a₁ ∧
      ∀ result, ownReply (route rt a₁.sinkhole (queries p)) = some result →
        a'.AnswersAlone p result ∧ ∀ ev, .resumes ev ∈ es → ev.call ≠ p := by
  obtain ⟨es₁, es₂, rfl⟩ := List.append_of_mem hp
  obtain ⟨a₁, hbefore, hafter⟩ := h.split
  refine ⟨es₁, a₁, List.prefix_append _ _, hbefore, fun result hreply => ?_⟩
  cases hafter with
  | cons hstep hrest =>
    cases hstep with
    | forwards _ hnone =>
      rw [hreply] at hnone
      cases hnone
    | @answers _ _ result' hunheard hreply' =>
      obtain rfl : result = result' := Option.some.inj (hreply.symm.trans hreply')
      obtain ⟨hlast, hne⟩ :=
        answersAlone_of_run hrest ⟨Function.update_self _ _ _, hunheard.2⟩
      obtain ⟨-, hne'⟩ := unheard_of_run hbefore hunheard
      refine ⟨hlast, fun ev hev => ?_⟩
      rcases List.mem_append.mp hev with hev | hev
      · exact hne' ev hev
      · exact hne ev ((List.mem_cons.mp hev).resolve_left (by simp))

/-! ## What is sent -/

theorem ownReply_eq_none {decision : Route} (h : ownReply decision = none) :
    ∃ msg, decision = .forward msg := by
  cases decision with
  | forward msg => exact ⟨msg, rfl⟩
  | dropped | formatError | noQuestions | sinkhole => cases h

/-- The query was heard in the course of the events, by a sinkhole that did not block it. -/
def Permitted (rt : Runtime) (queries : P → Bytes) (a : Appliance P)
    (es : List (ApplianceEvent P)) (p : P) : Prop :=
  ∃ es₁ a₁ now msg, es₁ ++ [.hears p now] <+: es ∧ Run (ApplianceStep rt queries) a es₁ a₁ ∧
    route rt a₁.sinkhole (queries p) = .forward msg

theorem Permitted.append (h : Permitted rt queries a es p) (es' : List (ApplianceEvent P)) :
    Permitted rt queries a (es ++ es') p := by
  obtain ⟨es₁, a₁, now, msg, hpre, hrest⟩ := h
  exact ⟨es₁, a₁, now, msg, hpre.trans (List.prefix_append _ _), hrest⟩

/-- A call that has begun was permitted. -/
theorem permitted_of_run (hfresh : ∀ p, a.Unheard p) (h : Run (ApplianceStep rt queries) a es a')
    (hp : a'.lookups.calls p ≠ .created) : Permitted rt queries a es p := by
  refine (h.history (I := fun es b => Run (ApplianceStep rt queries) a es b ∧
    ∀ p, b.lookups.calls p ≠ .created → Permitted rt queries a es p) ?_
    ⟨.nil a, fun p hp => absurd (hfresh p).2 hp⟩).2 p hp
  rintro es b ev b' ⟨hrun, hcalls⟩ hstep
  refine ⟨hrun.append (.single hstep), fun p hp => ?_⟩
  by_cases hb : b.lookups.calls p = .created
  · cases hstep with
    | service | answers => exact absurd hb hp
    | restarts => exact absurd (calls_lost.mpr hb) hp
    | resumes hunder hl =>
      have hne := ApplianceStep.call_ne (.resumes hunder hl) hb
      exact absurd ((hl.calls_of_ne hne.symm).trans hb) hp
    | @forwards q now l _ hnone hl =>
      by_cases hq : p = q
      · subst hq
        obtain ⟨msg, hroute⟩ := ownReply_eq_none hnone
        exact ⟨es, b, now, msg, List.prefix_refl _, hrun, hroute⟩
      · exact absurd ((hl.calls_of_ne hq).trans hb) hp
  · exact (hcalls p hb).append [ev]

/-- Whatever is sent to an upstream is a query as it came in, for a name that the policy of its
arrival permits, however the policy changes while lookups are under way. -/
theorem sent_were_permitted (hfresh : ∀ p, a.Unheard p)
    (hrun : Run (ApplianceStep rt queries) a es a') {ev : Resumed P} (hev : .resumes ev ∈ es)
    {datagram : Bytes} {upstream : Upstream}
    (hsends : ev.Sends (fun p => resolveCall (queries p)) datagram upstream) :
    datagram = queries ev.call ∧ ∃ es₁ a₁ now msg q rest, es₁ ++ [.hears ev.call now] <+: es ∧
      Run (ApplianceStep rt queries) a es₁ a₁ ∧ parse datagram = .ok msg ∧
      msg.questions = q :: rest ∧ (a₁.sinkhole.isBlocked rt q.qname).1 = false := by
  obtain ⟨-, rfl, -⟩ := hsends
  obtain ⟨before, after, rfl⟩ := List.append_of_mem hev
  obtain ⟨b, hbefore, hafter⟩ := hrun.split
  have hcall : b.lookups.calls ev.call ≠ .created := by
    intro hcreated
    cases hafter with
    | cons hstep _ => exact hstep.call_ne hcreated rfl
  obtain ⟨es₁, a₁, now, msg, hpre, hrun₁, hroute⟩ :=
    (permitted_of_run hfresh hbefore hcall).append (.resumes ev :: after)
  have hspec := route_spec rt a₁.sinkhole (queries ev.call)
  rw [hroute] at hspec
  obtain ⟨hparse, q, rest, hq, hpermitted⟩ := hspec
  exact ⟨rfl, es₁, a₁, now, msg, q, rest, hpre, hrun₁, hparse, hq, hpermitted⟩

/-- A host that has just come up, without a policy. -/
def openAppliance : Appliance Unit where
  daemon := ⟨⟨openSinkhole, ⟨⟨none, none⟩, none⟩, {}, {}⟩, []⟩
  lookups := .start [] true 0
  answered _ := none

/-- The query is sent to the first upstream. -/
theorem sent_were_permitted_tv : ∃ (a : Appliance Unit) (es : List (ApplianceEvent Unit)) (now : ℚ)
    (msg : DNSMessage), Run (ApplianceStep asciiRuntime fun _ => tvQuery.bytes) openAppliance es a ∧
    .hears () now ∈ es ∧ parse tvQuery.bytes = .ok msg := by
  have hforward : ownReply (route asciiRuntime openSinkhole tvQuery.bytes) = none := by
    obtain ⟨msg, hmsg⟩ : ∃ msg, route asciiRuntime openSinkhole tvQuery.bytes = .forward msg :=
      (forwarded_iff tvQuery.parsed).mpr ⟨_, rfl, by decide⟩
    rw [hmsg]
    rfl
  let queries : Unit → Bytes := fun _ => tvQuery.bytes
  let args : Unit → ResolveCall := fun p => resolveCall (queries p)
  let l₁ : Lookups Unit := Lookups.setCall (.start [] true 0) ()
    (nextUpstream (resolveCall tvQuery.bytes).msg defaultUpstreams)
  let upstream : Upstream := ("1.1.1.1".toList, 53)
  let l₂ : Lookups Unit := l₁.setCall () (.suspended .sockSendall upstream defaultUpstreams.tail)
  let l₃ : Lookups Unit := l₂.setCall () (.suspended .sockRecv upstream defaultUpstreams.tail)
  have hcalled : LookupStep asciiRuntime args (.start [] true 0) ⟨.start [] true 0, (), .called 0⟩
      l₁ := by
    have hlive : ∀ msg, liveEntry asciiRuntime (DNSResolver.init [] true) msg 0 = none :=
      fun msg => liveEntry_init [] true msg 0
    have hcached : ∀ msg, (getCachedResponse asciiRuntime msg 0
        (Lookups.start [] true 0 : Lookups Unit).resolver).2 = DNSResolver.init [] true := by
      intro msg
      rcases getCachedResponse_state asciiRuntime msg 0 (.init [] true) with h | ⟨_, _, -, h, -⟩
      · exact h
      · cases h
    have hstep : LookupStep asciiRuntime args (.start [] true 0) _ _ :=
      step_called (p := ()) rfl (hlive _) (le_refl (0 : ℚ))
    rwa [hcached] at hstep
  have hconnected : LookupStep asciiRuntime args l₁ ⟨l₁, (), .completed⟩ l₂ :=
    step_connected asciiRuntime args calls_setCall_self
  have hsent : LookupStep asciiRuntime args l₂ ⟨l₂, (), .completed⟩ l₃ :=
    step_sent asciiRuntime args calls_setCall_self
  have hrun : Run (ApplianceStep asciiRuntime queries) openAppliance
      [.hears () 0, .resumes ⟨l₁, (), .completed⟩, .resumes ⟨l₂, (), .completed⟩]
      { openAppliance with lookups := l₃ } :=
    .cons (.forwards ⟨rfl, rfl⟩ hforward hcalled)
      (.cons (.resumes ⟨_, _, _, calls_setCall_self⟩ hconnected)
        (.single (.resumes ⟨_, _, _, calls_setCall_self⟩ hsent)))
  have hsends : Resumed.Sends args ⟨l₂, (), .completed⟩ tvQuery.bytes upstream :=
    ⟨rfl, rfl, _, calls_setCall_self⟩
  obtain ⟨-, es₁, a₁, now, msg, q, rest, hpre, -, hparse, -⟩ :=
    sent_were_permitted (fun _ => ⟨rfl, rfl⟩) hrun (by simp) hsends
  exact ⟨_, _, now, msg, hrun, hpre.subset (by simp), hparse⟩

/-! ## Under a lock -/

/-- What an event needs for the lock to hold: its writes succeed and its readings are early. -/
def ApplianceEvent.Before (u : Int) : ApplianceEvent P → Prop
  | .service ev => ev.SavesSucceed ∧ ev.Before u
  | .hears _ _ | .resumes _ => True

variable {u : Int}

theorem appliance_samePolicy (hd : Daemon.Reached rt a.daemon)
    (hl : a.daemon.engine.session.LockedUntil rt u) (hrun : Run (ApplianceStep rt queries) a es a')
    (hes : ∀ ev ∈ es, ev.Before u) : SamePolicy a.daemon a'.daemon := by
  refine samePolicy_of_run hd.inv hl (daemon_run hrun) fun ev hev => ?_
  obtain ⟨ev', hev', hservice⟩ := List.mem_filterMap.mp hev
  have hbefore := hes ev' hev'
  cases ev' with
  | service =>
    cases hservice
    exact hbefore
  | hears | resumes => cases hservice

/-- The rules of a locked engine are in its sinkhole. -/
theorem Daemon.Reached.enforces {d : Daemon} (hd : Reached rt d)
    (hl : d.engine.session.LockedUntil rt u) {domain : Text}
    (hdomain : domain ∈ getAllActiveBlockedDomains rt d.engine.config d.engine.session) {rule : Key}
    (hrule : ruleOf rt domain = some rule) :
    Installed rt d.engine.sinkhole ∧ rule ∈ d.engine.sinkhole.blockedTrees := by
  have hne : d.engine.session.status ≠ .expired := by
    rw [SessionState.status_of_isLocked hl.locked]
    decide
  have hsynced := hd.inv.synced hne
  rw [Installed, hsynced.blocked]
  refine ⟨⟨_, _, blockedRules_active_iff.mpr ⟨hsynced.safe, rfl⟩⟩, ?_⟩
  exact mem_rulesOf.mpr ⟨domain, List.mem_append_right _ hdomain, hrule⟩

/-- What the server answers itself to a query under a rule. -/
theorem ownReply_of_endsWith (hmode : s.allowlistMode = false) (hs : Installed rt s) {rule : Key}
    (hr : rule ∈ s.blockedTrees) (hqd : get16 data 4 = some 1) {pointers : List (Fin 16384)}
    {labels : List Bytes} {stop : Nat} (hname : WireName data 12 pointers labels stop)
    (hlabels : EndsWith labels rule) (hess : ¬ Essential (cleanDomain rt (nameOf labels)))
    (hascii : Text.isAscii (nameOf labels) = true) :
    ∃ reply, ownReply (route rt s data) = some (.ok (some reply)) ∧
      ((∃ msg, parse data = .ok msg ∧ reply = msg.createSinkholeResponse.wire) ∨
        ∃ msgId, get16 data 0 = some msgId ∧ reply = (errResp msgId).wire) := by
  rcases route_of_endsWith hmode hs hr hqd hname hlabels hess with
    ⟨msg, q, hroute, hq, hqn⟩ | ⟨msgId, hroute⟩
  · obtain ⟨hparse, -⟩ := parse_of_route_sinkhole hroute
    have hwf := parse_wellFormed hparse
    have hnames : msg.createSinkholeResponse.AsciiNames := by
      intro n hn
      obtain ⟨q', hq', rfl⟩ := (createSinkholeResponse_names hwf hq).mp hn
      rw [hq, List.mem_singleton] at hq'
      rw [hq', hqn]
      exact hascii
    have hbytes := toBytes_ok (createSinkholeResponse_wellFormed hwf hq) hnames
    refine ⟨_, ?_, .inl ⟨msg, hparse, rfl⟩⟩
    rw [hroute, ownReply, hbytes]
    rfl
  · have hid := route_formatError hroute
    have hbytes := toBytes_ok (errResp_wellFormed (get16_lt hid))
      (by simp [AsciiNames, DNSMessage.names, DNSMessage.records, errResp])
    refine ⟨_, ?_, .inr ⟨msgId, hid, rfl⟩⟩
    rw [hroute, ownReply, hbytes]
    rfl

/-- From any reached daemon in blocklist mode whose session is locked until `u`, whatever requests,
heartbeats, restarts, queries and lookups come next in whatever order, with clock readings before
`u`: a query for a name under a domain that was in force at the beginning is answered by the server
itself, from the sinkhole or as malformed, and no lookup is made for it. -/
theorem locked_names_stay (hd : Daemon.Reached rt a.daemon)
    (hl : a.daemon.engine.session.LockedUntil rt u)
    (hmode : a.daemon.engine.config.allowlistMode = false)
    (hrun : Run (ApplianceStep rt queries) a es a') (hes : ∀ ev ∈ es, ev.Before u)
    (hp : .hears p now ∈ es) {domain : Text} {rule : Key}
    (hdomain : domain ∈
      getAllActiveBlockedDomains rt a.daemon.engine.config a.daemon.engine.session)
    (hrule : ruleOf rt domain = some rule) (hqd : get16 (queries p) 4 = some 1)
    {pointers : List (Fin 16384)} {labels : List Bytes} {stop : Nat}
    (hname : WireName (queries p) 12 pointers labels stop) (hlabels : EndsWith labels rule)
    (hess : ¬ Essential (cleanDomain rt (nameOf labels)))
    (hascii : Text.isAscii (nameOf labels) = true) :
    (∃ reply, a'.answered p = some (.ok (some reply)) ∧
      ((∃ msg, parse (queries p) = .ok msg ∧ reply = msg.createSinkholeResponse.wire) ∨
        ∃ msgId, get16 (queries p) 0 = some msgId ∧ reply = (errResp msgId).wire)) ∧
    a'.lookups.calls p = .created ∧ ∀ ev, .resumes ev ∈ es → ev.call ≠ p := by
  obtain ⟨es₁, a₁, hpre, hbefore, hanswers⟩ := heard_once hrun hp
  have hsame : a₁.sinkhole = a.sinkhole :=
    (appliance_samePolicy hd hl hbefore fun ev hev => hes ev (hpre.subset hev)).sinkhole
  obtain ⟨hinstalled, hmem⟩ := hd.enforces hl hdomain hrule
  have hblocklist : a.sinkhole.allowlistMode = false := hd.inv.allowlistMode.trans hmode
  obtain ⟨reply, hreply, hshape⟩ :=
    ownReply_of_endsWith hblocklist hinstalled hmem hqd hname hlabels hess hascii
  obtain ⟨⟨hanswered, hcreated⟩, hne⟩ := hanswers _ (hsame ▸ hreply)
  exact ⟨⟨reply, hanswered, hshape⟩, hcreated, hne⟩

section Example

/-- A query for `WwW.YouTube.com` and a heartbeat, under the morning's session. -/
theorem locked_names_stay_morning : ∃ (a a' : Appliance Unit) (reply : Bytes),
    Run (ApplianceStep asciiRuntime fun _ => mixedCaseQuery) a
      [.hears () 0, .service (.tick (envAt eleven))] a' ∧
    a'.answered () = some (.ok (some reply)) := by
  obtain ⟨d, hd, hsession, hconfig⟩ := exists_morning_daemon asciiRuntime
  have hl : d.engine.session.LockedUntil asciiRuntime twelve.micros :=
    hsession ▸ morningSession_lockedUntil asciiRuntime
  have hmode : d.engine.config.allowlistMode = false := by rw [hconfig]
  have hdomain : "youtube.com".toList ∈
      getAllActiveBlockedDomains asciiRuntime d.engine.config d.engine.session := by
    rw [hsession]
    exact mem_getAllActiveBlockedDomains.mpr (.inr List.mem_cons_self)
  have hrule : ruleOf asciiRuntime "youtube.com".toList =
      some ["com".toList, "youtube".toList] := by decide
  have hdrop : mixedCaseQuery.drop 12 = flatName [[87, 119, 87],
      [89, 111, 117, 84, 117, 98, 101], [99, 111, 109]] ++ [0, 1, 0, 1] := rfl
  have hname := wireName_flatName (by decide) hdrop
  have hlabels : EndsWith [[87, 119, 87], [89, 111, 117, 84, 117, 98, 101], [99, 111, 109]]
      ["com".toList, "youtube".toList] :=
    ⟨[[87, 119, 87]], _, rfl, .cons (by unfold SameLabel; decide)
      (.cons (by unfold SameLabel; decide) .nil)⟩
  have hess : ¬ Essential (cleanDomain asciiRuntime (nameOf [[87, 119, 87],
      [89, 111, 117, 84, 117, 98, 101], [99, 111, 109]])) := by
    unfold Essential
    decide
  obtain ⟨hinstalled, hmem⟩ := hd.enforces hl hdomain hrule
  obtain ⟨result, hresult, -⟩ := ownReply_of_endsWith (hd.inv.allowlistMode.trans hmode)
    hinstalled hmem (by decide) hname hlabels hess (by decide)
  let a : Appliance Unit := ⟨d, .start [] true 0, fun _ => none⟩
  have hrun : ∃ a', Run (ApplianceStep asciiRuntime fun _ => mixedCaseQuery) a
      [.hears () 0, .service (.tick (envAt eleven))] a' :=
    ⟨_, .cons (.answers ⟨rfl, rfl⟩ hresult) (.single (.service (by simp) rfl))⟩
  obtain ⟨a', hrun⟩ := hrun
  obtain ⟨⟨reply, hreply, -⟩, -⟩ := locked_names_stay hd hl hmode hrun (by
    simp only [List.forall_mem_cons, List.not_mem_nil, false_implies, implies_true, and_true]
    exact ⟨trivial, rfl, fun _ => show eleven.micros < twelve.micros by decide⟩)
    List.mem_cons_self hdomain hrule (by decide) hname hlabels hess (by decide)
  exact ⟨a, a', reply, hrun, hreply⟩

end Example

end FocusGuard

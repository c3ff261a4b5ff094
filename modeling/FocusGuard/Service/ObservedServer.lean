import FocusGuard.Dns.SinkholeReply
import FocusGuard.Network.Bypass
import FocusGuard.Network.Devices
import FocusGuard.Network.Monitor
import FocusGuard.Service.EventBus
import FocusGuard.Service.TrailReplay
import Mathlib.Data.List.DropRight

/-!
# The observers of the DNS server

`handle_query` of `focusguard/dns/server.py` tells the device tracker, the packet monitor, the event
bus and, through callbacks of the daemon, the log of each query it judges. That is over before the
task is first suspended, so that a query is one step here, between the calls, heartbeats and
restarts of the engine and what the subscribers of the bus do. The log outlives the process; the
other observers do not.

## Main definitions

* `judge`: what a query is taken for, and why.
* `ObservedServer.Step`: one step of the process, or its restart.

## Main results

* `Observed.step`: what one step adds to what the observers have seen.
* `observers_agree`: after any run, all observers have seen the same queries.
-/

namespace FocusGuard

open Calendar DNSMessage

/-! ## Judging a query -/

/-- A query as it is judged, with the labels that are made for the observers. -/
structure JudgedQuery where
  clientIp : Text
  qname : Text
  qtype : Nat
  isBlocked : Bool
  reason : Text
  service : Option Text
  bypassType : Option Text
  /-- The locked session, if there is one. -/
  sessionId : Option Text

def JudgedQuery.action (q : JudgedQuery) : Text := if q.isBlocked then "BLOCKED" else "ALLOWED"

/-- What is read while a query is handled: the clock, again for each observer, and host names. -/
structure QueryEnv where
  clock : Nat → Instant
  lookup : Text → Option Text

/-- A judged query with the readings. -/
structure Notice extends JudgedQuery where
  env : QueryEnv

variable (rt : Runtime)

/-- The reason that is shown, the service and the kind of bypass. -/
def enrich (qname : Text) (isBlocked : Bool) (reason : Text) : Text × Option Text × Option Text :=
  if isBlocked then
    match identifyBypassAttempt rt qname with
    | some (bypassType, prov) =>
      (bypassType ++ (" (" : Text) ++ prov ++ [')'], none, some bypassType)
    | none =>
      match matchServiceByDomain rt qname with
      | some svc => (("Service: " : Text) ++ svc, some svc, none)
      | none => (reason, none, none)
  else (reason, none, none)

/-- `none` where the query is answered before it is judged. -/
def judge (e : PolicyEngine) (clientIp : Text) (queryBytes : Bytes) : Option JudgedQuery :=
  match parse queryBytes with
  | .error _ => none
  | .ok msg =>
    match msg.questions with
    | [] => none
    | q :: _ =>
      let verdict := e.sinkhole.isBlocked rt q.qname
      let labels := enrich rt q.qname verdict.1 verdict.2
      some {
        clientIp := clientIp
        qname := q.qname
        qtype := q.qtype
        isBlocked := verdict.1
        reason := labels.1
        service := labels.2.1
        bypassType := labels.2.2
        sessionId := if e.session.isLocked then e.session.sessionId else none }

/-! ## What each observer is told -/

namespace Notice

def ingestion (hostV4 : Text) (port : Int) (n : Notice) : Ingestion :=
  .ingestDnsEvent n.clientIp (if hostV4 ≠ ("0.0.0.0" : Text) then hostV4 else "127.0.0.1") port
    "UDP" n.qname n.isBlocked

def flowEvent (n : Notice) : FlowEvent where
  timestamp := isoformat (n.env.clock 1)
  clientIp := n.clientIp
  domain := n.qname
  qtype := n.qtype
  action := n.action
  reason := n.reason
  service := n.service
  bypassType := n.bypassType

def flowRow (n : Notice) : LogFlow :=
  EventLogStore.flowRow rt (n.env.clock 2) n.clientIp n.qname n.qtype n.action n.reason n.sessionId
    none

def blockRow (n : Notice) : LogEvent where
  timestamp := isoformat (n.env.clock 3)
  category := "dns_block"
  action := "query_sinkholed"
  details := ("Domain: " : Text) ++ n.qname ++ (" from " : Text) ++ n.clientIp

end Notice

structure ObservedServer where
  audited : AuditedEngine
  hostV4 : Text
  port : Int
  deviceTracker : DeviceTracker
  eventBus : EventBus
  /-- The calls of the packet monitor, the oldest first. -/
  ingested : List Ingestion

namespace ObservedServer

/-- The observers are told; `order` is that in which the bus serves its subscribers. -/
def notify (o : ObservedServer) (order : List Nat) (n : Notice) : ObservedServer :=
  { o with
    deviceTracker :=
      o.deviceTracker.recordQuery n.env.lookup (n.env.clock 0) n.clientIp n.isBlocked
    ingested := o.ingested ++ [n.ingestion o.hostV4 o.port]
    eventBus := o.eventBus.publish order n.flowEvent
    audited :=
      let recorded := (AuditedEngine.onFlowRecorded rt (n.env.clock 2) n.clientIp n.qname n.qtype
        n.action n.reason o.audited).2
      if n.isBlocked then
        (AuditedEngine.onBlockedQuery (n.env.clock 3) n.clientIp n.qname recorded).2
      else recorded }

/-- A new process on what is stored, and on the log. -/
def restarted (a : AuditedEngine) (hostV4 : Text) (port : Int) : ObservedServer where
  audited := a
  hostV4 := hostV4
  port := port
  deviceTracker := .empty
  eventBus := .empty
  ingested := []

end ObservedServer

inductive ServerEvent where
  | policy (ev : PolicyEvent)
  | heard (n : Notice)
  | bus (ev : BusEvent)

/-- A step; only the server itself publishes on the bus. -/
inductive ObservedServer.Step : ObservedServer → ServerEvent → ObservedServer → Prop where
  | policy {o : ObservedServer} {ev : PolicyEvent} {a : AuditedEngine} :
      (∀ env, ev ≠ .restart env) → AuditedEngine.Step rt o.audited (.policy ev) a →
      Step o (.policy ev) { o with audited := a }
  | restart {o : ObservedServer} {env : CallEnv} {a : AuditedEngine} {hostV4 : Text} {port : Int} :
      AuditedEngine.Step rt o.audited (.policy (.restart env)) a →
      Step o (.policy (.restart env)) (restarted a hostV4 port)
  | heard {o : ObservedServer} {queryBytes : Bytes} {n : Notice} {order : List Nat} :
      judge rt o.audited.engine n.clientIp queryBytes = some n.toJudgedQuery →
      order.Nodup → (∀ q, q ∈ order ↔ q ∈ o.eventBus.subscribers) →
      Step o (.heard n) (o.notify rt order n)
  | bus {o : ObservedServer} {ev : BusEvent} {b : EventBus} :
      (∀ e, ev ≠ .publish e) → EventBus.Step o.eventBus ev b →
      Step o (.bus ev) { o with eventBus := b }

/-! ## What has been heard -/

namespace ServerEvent

def heard? : ServerEvent → Option Notice
  | .heard n => some n
  | _ => none

def bus? : ServerEvent → Option BusEvent
  | .policy _ => none
  | .heard n => some (.publish n.flowEvent)
  | .bus ev => some ev

def isRestart : ServerEvent → Bool
  | .policy (.restart _) => true
  | _ => false

end ServerEvent

def sinceRestart (es : List ServerEvent) : List ServerEvent := es.rtakeWhile fun ev => !ev.isRestart

def heard (es : List ServerEvent) : List Notice := es.filterMap ServerEvent.heard?

/-- What has happened on the bus. -/
def busEvents (es : List ServerEvent) : List BusEvent := es.filterMap ServerEvent.bus?

def seenFrom (ip : Text) (ns : List Notice) : Nat := ns.countP fun n => n.clientIp = ip

def blockedFrom (ip : Text) (ns : List Notice) : Nat :=
  ns.countP fun n => n.clientIp = ip ∧ n.isBlocked

namespace DeviceTracker

/-- The addresses that are devices. -/
def Tracked (ip : Text) : Prop :=
  ¬ (ip = [] ∨ ip ∈ (["127.0.0.1", "::1", "localhost"] : List Text))

instance (ip : Text) : Decidable (Tracked ip) := inferInstanceAs (Decidable (¬ _))

/-- The counters of a device, if there is one. -/
def counts (t : DeviceTracker) (ip : Text) : Option (Nat × Nat) :=
  (t.get? ip).map fun dev => (dev.totalQueries, dev.blockedQueries)

end DeviceTracker

/-- What the tracker has counted of a device: nothing where the address is not one. -/
def deviceCounts (ip : Text) (ns : List Notice) : Option (Nat × Nat) :=
  if DeviceTracker.Tracked ip ∧ 0 < seenFrom ip ns then some (seenFrom ip ns, blockedFrom ip ns)
  else none

/-- The row tells that a query was blocked. -/
def LogEvent.tellsBlock (row : LogEvent) : Bool := row.category = ("dns_block" : Text)

/-- The log holds the last of the flows, and the blocks among its last events, within the limits
that it had in the beginning. -/
structure Logged (base : EventLogStore) (flows : List LogFlow) (blocks : List LogEvent)
    (s : EventLogStore) : Prop where
  bounded : s.Bounded
  limits : s.maxEntries = base.maxEntries ∧ s.maxFlows = base.maxFlows
  flows : s.flows.values = flows.rtake s.maxFlows.toNat
  events : ∃ rows : List LogEvent, s.events.values = rows.rtake s.maxEntries.toNat ∧
    rows.filter LogEvent.tellsBlock = blocks

def flowRows (ns : List Notice) : List LogFlow := ns.map (Notice.flowRow rt)

def blockRows (ns : List Notice) : List LogEvent :=
  (ns.filter fun n => n.isBlocked).map Notice.blockRow

/-- What all observers have seen of the events: the log of all, the others of the last process. -/
structure Observed (base : EventLogStore) (es : List ServerEvent) (o : ObservedServer) : Prop where
  log : Logged base (flowRows rt (heard es)) (blockRows (heard es)) o.audited.logStore
  devices : ∀ ip, o.deviceTracker.counts ip = deviceCounts ip (heard (sinceRestart es))
  packets : o.ingested = (heard (sinceRestart es)).map (Notice.ingestion o.hostV4 o.port)
  bus : Run EventBus.Step .empty (busEvents (sinceRestart es)) o.eventBus
  published : (busEvents (sinceRestart es)).filterMap BusEvent.published? =
    (heard (sinceRestart es)).map Notice.flowEvent

variable {rt : Runtime} {o o' : ObservedServer} {es : List ServerEvent} {ev : ServerEvent}
  {ns : List Notice} {n : Notice} {e : PolicyEngine} {base s : EventLogStore} {ip : Text}

theorem heard_concat : heard (es ++ [ev]) = heard es ++ [ev].filterMap ServerEvent.heard? :=
  List.filterMap_append

theorem busEvents_concat :
    busEvents (es ++ [ev]) = busEvents es ++ [ev].filterMap ServerEvent.bus? :=
  List.filterMap_append

theorem sinceRestart_concat :
    sinceRestart (es ++ [ev]) = if ev.isRestart then [] else sinceRestart es ++ [ev] := by
  unfold sinceRestart
  rw [List.rtakeWhile_concat]
  cases ev.isRestart with
  | true => rfl
  | false => rfl

/-! ## Judging -/

/-- The verdict that the observers are told is the one that decides the reply. -/
theorem judge_route {queryBytes : Bytes} {q : JudgedQuery} {clientIp : Text}
    (h : judge rt e clientIp queryBytes = some q) :
    (q.isBlocked = true ∧ ∃ msg, route rt e.sinkhole queryBytes = .sinkhole msg) ∨
      (q.isBlocked = false ∧ ∃ msg, route rt e.sinkhole queryBytes = .forward msg) := by
  unfold judge at h
  unfold route
  cases hparse : parse queryBytes with
  | error x =>
    rw [hparse] at h
    cases h
  | ok msg =>
    rw [hparse] at h
    dsimp only at h ⊢
    cases hquestions : msg.questions with
    | nil =>
      rw [hquestions] at h
      cases h
    | cons question rest =>
      rw [hquestions] at h
      obtain rfl := Option.some.inj h
      dsimp only
      cases hblocked : (e.sinkhole.isBlocked rt question.qname).1 with
      | true => exact .inl ⟨rfl, msg, rfl⟩
      | false => exact .inr ⟨rfl, msg, rfl⟩

/-- What is judged can be recorded, under the session that is locked. -/
theorem judge_spec {queryBytes : Bytes} {q : JudgedQuery} {clientIp : Text}
    (h : judge rt e clientIp queryBytes = some q) : q.clientIp = clientIp ∧ q.qtype < 65536 ∧
      q.sessionId = if e.session.isLocked then e.session.sessionId else none := by
  unfold judge at h
  cases hparse : parse queryBytes with
  | error x =>
    rw [hparse] at h
    cases h
  | ok msg =>
    rw [hparse] at h
    dsimp only at h
    cases hquestions : msg.questions with
    | nil =>
      rw [hquestions] at h
      cases h
    | cons question rest =>
      rw [hquestions] at h
      obtain rfl := Option.some.inj h
      exact ⟨rfl, ((parse_wellFormed hparse).questions question (by simp [hquestions])).qtype, rfl⟩

/-! ## The devices -/

theorem seenFrom_concat :
    seenFrom ip (ns ++ [n]) = seenFrom ip ns + if n.clientIp = ip then 1 else 0 := by
  simp [seenFrom, List.countP_append, List.countP_cons]

theorem blockedFrom_concat : blockedFrom ip (ns ++ [n]) =
    blockedFrom ip ns + if n.clientIp = ip ∧ n.isBlocked = true then 1 else 0 := by
  simp [blockedFrom, List.countP_append, List.countP_cons]

theorem blockedFrom_eq_zero (h : seenFrom ip ns = 0) : blockedFrom ip ns = 0 := by
  refine Nat.le_zero.mp (h ▸ List.countP_mono_left fun n _ hn => ?_)
  simp only [decide_eq_true_eq] at hn ⊢
  exact hn.1

namespace DeviceTracker

variable {t : DeviceTracker} {lookup : Text → Option Text} {now : Instant} {clientIp : Text}
  {isBlocked : Bool}

theorem counts_recordQuery : (t.recordQuery lookup now clientIp isBlocked).counts ip =
    if Tracked clientIp ∧ clientIp = ip then
      some (((t.counts ip).getD (0, 0)).1 + 1,
        ((t.counts ip).getD (0, 0)).2 + if isBlocked then 1 else 0)
    else t.counts ip := by
  unfold recordQuery
  by_cases htracked : Tracked clientIp
  · rw [if_neg htracked]
    unfold counts
    rw [Dict.get?_set]
    by_cases hip : clientIp = ip
    · subst hip
      have hboth : Tracked clientIp ∧ clientIp = clientIp := ⟨htracked, rfl⟩
      rw [if_pos hboth, if_pos rfl]
      cases t.get? clientIp with
      | none => cases isBlocked <;> rfl
      | some dev => cases isBlocked <;> rfl
    · rw [if_neg (Ne.symm hip), if_neg fun h => hip h.2]
  · rw [if_pos (not_not.mp htracked), if_neg fun h => htracked h.1]

end DeviceTracker

theorem deviceCounts_nil : deviceCounts ip [] = none := if_neg fun h => Nat.lt_irrefl 0 h.2

/-- A tracker that agrees with what was heard agrees after one more query. -/
theorem counts_hear {t : DeviceTracker} (h : ∀ ip, t.counts ip = deviceCounts ip ns) (n : Notice)
    (ip : Text) : (t.recordQuery n.env.lookup (n.env.clock 0) n.clientIp n.isBlocked).counts ip =
      deviceCounts ip (ns ++ [n]) := by
  rw [DeviceTracker.counts_recordQuery, h ip, deviceCounts, deviceCounts, seenFrom_concat,
    blockedFrom_concat]
  by_cases hip : n.clientIp = ip
  · subst hip
    by_cases htracked : DeviceTracker.Tracked n.clientIp
    · by_cases hseen : seenFrom n.clientIp ns = 0
      · simp [htracked, hseen, blockedFrom_eq_zero hseen]
      · simp [htracked, Nat.pos_of_ne_zero hseen]
    · simp [htracked]
  · simp [hip]

/-! ## The log -/

section Log

variable {flows : List LogFlow} {blocks : List LogEvent}

theorem Logged.record (h : Logged base flows blocks s) (now : Instant)
    (category action details : Text) : Logged base flows
      (blocks ++ [⟨isoformat now, category, action, details⟩].filter LogEvent.tellsBlock)
      (EventLogStore.record now category action details s).2 := by
  obtain ⟨rows, hvalues, rfl⟩ := h.events
  rw [EventLogStore.record_apply _ _ _ _ h.bounded.1]
  exact ⟨h.bounded, h.limits, h.flows, _, SqlTable.values_insert_keepNewest hvalues _,
    List.filter_append _ _⟩

theorem Logged.recordFlow (h : Logged base flows blocks s) (rt : Runtime) (now : Instant)
    (clientIp domain : Text) {qtype : Int} (hqtype : InRange qtype) (action reason : Text)
    (sessionId timestamp : Option Text) : Logged base
      (flows ++ [EventLogStore.flowRow rt now clientIp domain qtype action reason sessionId
        timestamp]) blocks
      (EventLogStore.recordFlow rt now clientIp domain qtype action reason sessionId
        timestamp s).2 := by
  rw [EventLogStore.recordFlow_apply _ _ _ _ _ _ _ hqtype h.bounded.2]
  exact ⟨h.bounded, h.limits, SqlTable.values_insert_keepNewest h.flows _, h.events⟩

/-- What the engine itself records is not about queries. -/
theorem logInvariant_logged (base : EventLogStore) (flows : List LogFlow) (blocks : List LogEvent) :
    LogInvariant (Logged base flows blocks) where
  bounded _ hs := hs.bounded
  record now category action details s hcategory hs := by
    have hne : category ≠ "dns_block" := by
      rcases hcategory with rfl | rfl
      · decide
      · decide
    have hother : LogEvent.tellsBlock ⟨isoformat now, category, action, details⟩ = false :=
      decide_eq_false hne
    have hrecord := hs.record now category action details
    rwa [List.filter_cons, hother, if_neg Bool.false_ne_true, List.filter_nil,
      List.append_nil] at hrecord

end Log

theorem onFlowRecorded_logStore (rt : Runtime) (a : AuditedEngine) (now : Instant)
    (clientIp domain : Text) (qtype : Int) (action reason : Text) :
    (AuditedEngine.onFlowRecorded rt now clientIp domain qtype action reason a).2.logStore =
      (EventLogStore.recordFlow rt now clientIp domain qtype action reason
        (if a.engine.session.isLocked then a.engine.session.sessionId else none) none
        a.logStore).2 :=
  rfl

theorem onBlockedQuery_logStore (a : AuditedEngine) (now : Instant) (clientIp domain : Text) :
    (AuditedEngine.onBlockedQuery now clientIp domain a).2.logStore =
      (EventLogStore.record now "dns_block" "query_sinkholed"
        (("Domain: " : Text) ++ domain ++ (" from " : Text) ++ clientIp) a.logStore).2 :=
  rfl

/-- One more query is recorded, twice if it is blocked. -/
theorem Logged.notify (h : Logged base (flowRows rt ns) (blockRows ns) o.audited.logStore)
    (hqtype : n.qtype < 65536) (hsession : n.sessionId =
      if o.audited.engine.session.isLocked then o.audited.engine.session.sessionId else none)
    (order : List Nat) : Logged base (flowRows rt (ns ++ [n])) (blockRows (ns ++ [n]))
      (o.notify rt order n).audited.logStore := by
  have hrange : InRange n.qtype := ⟨by omega, by omega⟩
  have hflow := h.recordFlow rt (n.env.clock 2) n.clientIp n.qname hrange n.action n.reason
    n.sessionId none
  have hflows : flowRows rt (ns ++ [n]) = flowRows rt ns ++ [n.flowRow rt] := List.map_append
  have hblocks : blockRows (ns ++ [n]) =
      blockRows ns ++ if n.isBlocked then [n.blockRow] else [] := by
    cases hblocked : n.isBlocked with
    | true => simp [blockRows, List.filter_append, hblocked]
    | false => simp [blockRows, List.filter_append, hblocked]
  have hrecorded := onFlowRecorded_logStore rt o.audited (n.env.clock 2) n.clientIp n.qname n.qtype
    n.action n.reason
  rw [← hsession] at hrecorded
  rw [← hrecorded] at hflow
  rw [hflows, hblocks]
  unfold ObservedServer.notify
  dsimp only
  cases n.isBlocked with
  | false =>
    rw [if_neg Bool.false_ne_true, if_neg Bool.false_ne_true, List.append_nil]
    exact hflow
  | true =>
    have htells : [n.blockRow].filter LogEvent.tellsBlock = [n.blockRow] :=
      List.filter_cons_of_pos (decide_eq_true rfl)
    rw [if_pos rfl, if_pos rfl, onBlockedQuery_logStore, ← htells]
    exact hflow.record _ _ _ _

/-! ## Runs -/

theorem heard_since_concat (h : ev.isRestart = false) : heard (sinceRestart (es ++ [ev])) =
    heard (sinceRestart es) ++ [ev].filterMap ServerEvent.heard? := by
  rw [sinceRestart_concat, if_neg (by simp [h]), heard_concat]

theorem busEvents_since_concat (h : ev.isRestart = false) :
    busEvents (sinceRestart (es ++ [ev])) =
      busEvents (sinceRestart es) ++ [ev].filterMap ServerEvent.bus? := by
  rw [sinceRestart_concat, if_neg (by simp [h]), busEvents_concat]

/-- An event that is no query and no restart leaves the tracker and the packet monitor alone. -/
theorem Observed.unheard (h : Observed rt base es o) (hrestart : ev.isRestart = false)
    (hheard : ev.heard? = none) {a : AuditedEngine} {b : EventBus}
    (hlog : Logged base (flowRows rt (heard es)) (blockRows (heard es)) a.logStore)
    (hbus : Run EventBus.Step o.eventBus ([ev].filterMap ServerEvent.bus?) b)
    (hpublished : ([ev].filterMap ServerEvent.bus?).filterMap BusEvent.published? = []) :
    Observed rt base (es ++ [ev]) { o with audited := a, eventBus := b } := by
  have hnothing : [ev].filterMap ServerEvent.heard? = [] := List.filterMap_cons_none hheard
  constructor
  · rw [heard_concat, hnothing, List.append_nil]
    exact hlog
  · rw [heard_since_concat hrestart, hnothing, List.append_nil]
    exact h.devices
  · rw [heard_since_concat hrestart, hnothing, List.append_nil]
    exact h.packets
  · rw [busEvents_since_concat hrestart]
    exact h.bus.append hbus
  · rw [busEvents_since_concat hrestart, heard_since_concat hrestart, hnothing,
      List.filterMap_append, hpublished, List.append_nil, List.append_nil]
    exact h.published

theorem Observed.step (h : Observed rt base es o) (hstep : ObservedServer.Step rt o ev o') :
    Observed rt base (es ++ [ev]) o' := by
  cases hstep with
  | @policy ev a hne hengine =>
    have hrestart : (ServerEvent.policy ev).isRestart = false := by
      cases ev with
      | call env op => rfl
      | tick env => rfl
      | restart env => exact absurd rfl (hne env)
    obtain ⟨-, hlog⟩ := hengine.follows (logInvariant_logged _ _ _) h.log
    exact h.unheard hrestart rfl hlog (.nil _) rfl
  | @restart env a hostV4 port hengine =>
    obtain ⟨-, hlog⟩ := hengine.follows (logInvariant_logged _ _ _) h.log
    have hsince : sinceRestart (es ++ [.policy (.restart env)]) = [] := by
      rw [sinceRestart_concat]
      rfl
    constructor
    · rw [heard_concat]
      exact (List.append_nil (heard es)).symm ▸ hlog
    · intro ip
      rw [hsince]
      exact deviceCounts_nil.symm
    · rw [hsince]
      rfl
    · rw [hsince]
      exact .nil _
    · rw [hsince]
      rfl
  | @heard queryBytes n order hjudge hnodup horder =>
    obtain ⟨-, hqtype, hsession⟩ := judge_spec hjudge
    constructor
    · rw [heard_concat]
      exact h.log.notify hqtype hsession order
    · intro ip
      rw [heard_since_concat rfl]
      exact counts_hear h.devices n ip
    · rw [heard_since_concat rfl, List.map_append]
      exact congrArg (· ++ [n.ingestion o.hostV4 o.port]) h.packets
    · rw [busEvents_since_concat rfl]
      exact h.bus.append (.single (.publish hnodup horder))
    · rw [busEvents_since_concat rfl, heard_since_concat rfl, List.filterMap_append, h.published,
        List.map_append]
      rfl
  | @bus ev b hne hbus =>
    refine h.unheard rfl rfl h.log (.single hbus) (List.filterMap_cons_none ?_)
    cases ev with
    | publish e => exact absurd rfl (hne e)
    | subscribe | unsubscribe | get => rfl

theorem observed_of_run {a : AuditedEngine} {hostV4 : Text} {port : Int}
    (hlog : a.logStore.Bounded) (hevents : a.logStore.events = .empty)
    (hflows : a.logStore.flows = .empty)
    (hrun : Run (ObservedServer.Step rt) (.restarted a hostV4 port) es o) :
    Observed rt a.logStore es o := by
  refine hrun.history (I := Observed rt a.logStore) (fun es o ev o' h hstep => h.step hstep) ?_
  refine ⟨⟨hlog, ⟨rfl, rfl⟩, ?_, [], ?_, rfl⟩, fun ip => deviceCounts_nil.symm, rfl, .nil _, rfl⟩
  · exact (congrArg SqlTable.values hflows).trans (List.rtake_nil _).symm
  · exact (congrArg SqlTable.values hevents).trans (List.rtake_nil _).symm

theorem publishedSince_suffix (es : List BusEvent) (q : Nat) :
    publishedSince es q <:+ es.filterMap BusEvent.published? :=
  (List.dropWhile_suffix _).filterMap _

/-- In every run of a server that starts with a new log, whatever is called, however often it is
restarted and whatever the subscribers of its bus do: the log holds the last of the queries that
were judged, and tells of each of them that was blocked, the tracker counts those of each device
since the last restart, and the packet monitor and the subscribers have been told of these in the
same order, with the same verdicts. -/
theorem observers_agree {a : AuditedEngine} {hostV4 : Text} {port : Int}
    (hlog : a.logStore.Bounded) (hevents : a.logStore.events = .empty)
    (hflows : a.logStore.flows = .empty)
    (hrun : Run (ObservedServer.Step rt) (.restarted a hostV4 port) es o) :
    o.audited.logStore.flows.values =
        (flowRows rt (heard es)).rtake a.logStore.maxFlows.toNat ∧
    (∃ rows : List LogEvent,
      o.audited.logStore.events.values = rows.rtake a.logStore.maxEntries.toNat ∧
        rows.filter LogEvent.tellsBlock = blockRows (heard es)) ∧
    (∀ ip, o.deviceTracker.counts ip = deviceCounts ip (heard (sinceRestart es))) ∧
    o.ingested = (heard (sinceRestart es)).map (Notice.ingestion o.hostV4 o.port) ∧
    ∀ q ∈ o.eventBus.subscribers,
      (o.eventBus.queues q).items <:+ (heard (sinceRestart es)).map Notice.flowEvent := by
  have h := observed_of_run hlog hevents hflows hrun
  have hentries := h.log.events
  have hrows := h.log.flows
  rw [h.log.limits.1] at hentries
  rw [h.log.limits.2] at hrows
  refine ⟨hrows, hentries, h.devices, h.packets, fun q hq => ?_⟩
  have hnewest := ((delivered_of_run h.bus).fed q hq).newest
  exact h.published ▸ hnewest.trans (publishedSince_suffix _ q)

/-- A query for `WwW.YouTube.com`, under an engine that has come up on an empty directory. -/
theorem exists_heard : ∃ (a : AuditedEngine) (n : Notice) (o : ObservedServer),
    a.logStore = {} ∧ n.clientIp = "192.168.1.15" ∧
      Run (ObservedServer.Step asciiRuntime) (.restarted a "0.0.0.0" 53) [.heard n] o := by
  obtain ⟨e, -, -⟩ := exists_onRecord asciiRuntime
  have hdrop : mixedCaseQuery.drop 12 =
      flatName mixedCaseName ++ (Bytes.word16 typeA ++ Bytes.word16 classIn) := rfl
  have hparse : parse mixedCaseQuery = .ok mixedCaseMessage := parse_query rfl hdrop (by decide)
  obtain ⟨q, hq⟩ : ∃ q, judge asciiRuntime e "192.168.1.15" mixedCaseQuery = some q := by
    unfold judge
    rw [hparse]
    exact ⟨_, rfl⟩
  have hip : q.clientIp = "192.168.1.15" := (judge_spec hq).1
  let n : Notice := ⟨q, ⟨fun _ => ten, fun _ => none⟩⟩
  have horder : ∀ q, q ∈ ([] : List Nat) ↔ q ∈ EventBus.empty.subscribers := by
    simp [EventBus.empty]
  have hjudge : judge asciiRuntime e n.clientIp mixedCaseQuery = some n.toJudgedQuery := hip ▸ hq
  exact ⟨⟨e, {}⟩, n, _, rfl, hip, .single (.heard hjudge .nil horder)⟩

theorem deviceCounts_example (n : Notice) (hip : n.clientIp = "192.168.1.15") :
    deviceCounts "192.168.1.15" (heard (sinceRestart [.heard n])) =
      some (1, blockedFrom "192.168.1.15" [n]) := by
  have hseen : seenFrom "192.168.1.15" [n] = 1 :=
    List.countP_eq_length.mpr fun m hm => decide_eq_true (by rw [List.mem_singleton.mp hm, hip])
  have htracked : DeviceTracker.Tracked "192.168.1.15" := by decide
  rw [← hseen]
  exact if_pos ⟨htracked, hseen ▸ Nat.one_pos⟩

theorem observers_agree_youtube : ∃ (o : ObservedServer) (blocked : Nat),
    o.audited.logStore.flows.values.length = 1 ∧
      o.deviceTracker.counts "192.168.1.15" = some (1, blocked) := by
  obtain ⟨a, n, o, hlog, hip, hrun⟩ := exists_heard
  obtain ⟨hflows, -, hdevices, -, -⟩ :=
    observers_agree (hlog ▸ bounded_new) (by rw [hlog]) (by rw [hlog]) hrun
  refine ⟨o, _, ?_, (hdevices _).trans (deviceCounts_example n hip)⟩
  rw [hflows, hlog]
  simp [heard, ServerEvent.heard?, flowRows, List.rtake]

end FocusGuard

import FocusGuard.Service.ObservedServer
import FocusGuard.Storage.FlowStats

/-!
# What the statistics tell

The `stats` request of `focusguard/service/ipc_server.py`, against the queries that were judged and
against the listed devices.

## Main results

* `stats_agree`: the statistics are those of the last queries, and agree with the devices.
-/

namespace FocusGuard

open Calendar SqlGroups DeviceTracker

/-- The session that the statistics are restricted to. -/
def statsSession (sessionScoped : Json) (s : SessionState) : Option Text :=
  if sessionScoped.truthy ∧ s.isLocked then s.sessionId else none

/-- The result of a `stats` request. -/
def ObservedServer.stats (domains devices : GroupOrder Text) (sessionScoped : Json)
    (o : ObservedServer) : FlowStats :=
  o.audited.logStore.getStats domains devices (statsSession sessionScoped o.audited.engine.session)

/-- The query was judged in the session, if one is given. -/
def Notice.inScope (sessionId : Option Text) (n : Notice) : Bool :=
  sessionId.getD [] = [] ∨ n.sessionId = sessionId

variable {rt : Runtime} {o o' : ObservedServer} {es : List ServerEvent} {ns : List Notice}
  {n : Notice} {ip : Text} {sessionId : Option Text} {domains devices : GroupOrder Text}

/-! ## Rows and queries -/

theorem isBlocked_flowRow : (n.flowRow rt).isBlocked = n.isBlocked := by
  change decide (n.action = ("BLOCKED" : Text)) = n.isBlocked
  unfold JudgedQuery.action
  cases n.isBlocked with
  | true => rfl
  | false => decide

theorem isAllowed_flowRow : (n.flowRow rt).isAllowed = !n.isBlocked := by
  change decide (n.action = ("ALLOWED" : Text)) = !n.isBlocked
  unfold JudgedQuery.action
  cases n.isBlocked with
  | true => decide
  | false => rfl

theorem flowRows_filter : (flowRows rt ns).filter (LogFlow.inScope sessionId) =
    flowRows rt (ns.filter (Notice.inScope sessionId)) := List.filter_map

theorem flowRows_rtake (k : Nat) : (flowRows rt ns).rtake k = flowRows rt (ns.rtake k) := by
  rw [flowRows, List.rtake, List.length_map, ← List.map_drop]
  rfl

theorem countP_clientIp :
    ((flowRows rt ns).countP fun f => f.clientIp = ip) = seenFrom ip ns := List.countP_map

theorem countP_blockedIp : ((flowRows rt ns).countP fun f => f.clientIp = ip ∧ f.isBlocked) =
    blockedFrom ip ns := by
  rw [flowRows, List.countP_map, blockedFrom]
  refine List.countP_congr fun n _ => ?_
  simp only [Function.comp_apply, isBlocked_flowRow]
  rfl

/-- Every query was blocked or else allowed. -/
theorem countP_actions : (flowRows rt ns).countP LogFlow.isBlocked +
    (flowRows rt ns).countP LogFlow.isAllowed = (flowRows rt ns).length := by
  have hallowed : (flowRows rt ns).countP LogFlow.isAllowed =
      (flowRows rt ns).countP fun f => ¬ f.isBlocked := by
    refine List.countP_congr fun f hf => ?_
    obtain ⟨n, -, rfl⟩ := List.mem_map.mp hf
    simp [isAllowed_flowRow, isBlocked_flowRow]
  rw [hallowed]
  exact (List.length_eq_countP_add_countP LogFlow.isBlocked).symm

/-! ## Statistics -/

/-- The device is listed with its counters, or ten devices are that asked as often or more often. -/
def InBreakdown (stats : FlowStats) (ip : Text) (total blocked : Nat) : Prop :=
  ⟨ip, total, blocked⟩ ∈ stats.deviceBreakdown ∨
    stats.deviceBreakdown.length = 10 ∧ ∀ d ∈ stats.deviceBreakdown, total ≤ d.totalQueries

theorem inBreakdown_of_describes {stats : FlowStats} (h : stats.Describes (flowRows rt ns))
    (hseen : 0 < seenFrom ip ns) : InBreakdown stats ip (seenFrom ip ns) (blockedFrom ip ns) := by
  by_cases hip : ip ∈ stats.deviceBreakdown.map DeviceCount.clientIp
  · obtain ⟨d, hd, rfl⟩ := List.mem_map.mp hip
    obtain ⟨htotal, -⟩ := h.breakdown.counted _ (List.mem_map_of_mem hd)
    have hblocked := h.breakdownBlocked d hd
    rw [countP_clientIp] at htotal
    rw [countP_blockedIp] at hblocked
    rw [← htotal, ← hblocked]
    exact .inl hd
  · obtain ⟨hlength, hle⟩ := h.breakdown.missing ip (by simpa using hip)
      (countP_clientIp.symm ▸ hseen)
    rw [countP_clientIp] at hle
    exact .inr ⟨by simpa using hlength, fun d hd => hle _ (List.mem_map_of_mem hd)⟩

/-- In every run of a server that starts with a new log, whatever orders the database chooses: the
statistics are those of the last queries that were judged, of the locked session if this is asked
for; every query is counted as blocked or else as allowed. As long as the process has not been
restarted and nothing has been dropped, every device of the tracker is listed with the counters that
the tracker has, or ten others that asked as often are. -/
theorem stats_agree {a : AuditedEngine} {hostV4 : Text} {port : Int}
    (hlog : a.logStore.Bounded) (hevents : a.logStore.events = .empty)
    (hflows : a.logStore.flows = .empty)
    (hrun : Run (ObservedServer.Step rt) (.restarted a hostV4 port) es o)
    (domains devices : GroupOrder Text) (sessionScoped : Json) :
    (o.stats domains devices sessionScoped).Describes (flowRows rt
        (((heard es).rtake a.logStore.maxFlows.toNat).filter
          (Notice.inScope (statsSession sessionScoped o.audited.engine.session)))) ∧
    (o.stats domains devices sessionScoped).blockedQueries +
        (o.stats domains devices sessionScoped).allowedQueries =
      (o.stats domains devices sessionScoped).totalQueries ∧
    ((∀ ev ∈ es, ev.isRestart = false) → (heard es).length ≤ a.logStore.maxFlows →
      ∀ ip total blocked, o.deviceTracker.counts ip = some (total, blocked) →
        InBreakdown (o.stats domains devices (.bool false)) ip total blocked) := by
  have hobserved := observed_of_run hlog hevents hflows hrun
  have hstats : ∀ sessionScoped, (o.stats domains devices sessionScoped).Describes (flowRows rt
      (((heard es).rtake a.logStore.maxFlows.toNat).filter
        (Notice.inScope (statsSession sessionScoped o.audited.engine.session)))) := by
    intro sessionScoped
    have hdescribes := getStats_describes domains devices
      (statsSession sessionScoped o.audited.engine.session) o.audited.logStore
    rwa [hobserved.log.flows, hobserved.log.limits.2, flowRows_rtake, flowRows_filter] at hdescribes
  refine ⟨hstats sessionScoped, ?_, fun hrestart hle ip total blocked hcounts => ?_⟩
  · have hsum := hstats sessionScoped
    rw [hsum.blocked, hsum.allowed, hsum.total]
    exact countP_actions
  · have hsince : sinceRestart es = es :=
      List.rtakeWhile_eq_self_iff.mpr fun ev hev => by rw [hrestart ev hev]; rfl
    have hall : (heard es).rtake a.logStore.maxFlows.toNat = heard es := by
      rw [List.rtake, Nat.sub_eq_zero_of_le (by omega), List.drop_zero]
    have hscope : (heard es).filter (Notice.inScope
        (statsSession (.bool false) o.audited.engine.session)) = heard es :=
      List.filter_eq_self.mpr fun n _ => by simp [Notice.inScope, statsSession, Json.truthy]
    have hdescribes := hstats (.bool false)
    rw [hall, hscope] at hdescribes
    rw [hobserved.devices, hsince, deviceCounts] at hcounts
    split at hcounts
    · next hdevice =>
      obtain ⟨rfl, rfl⟩ := Prod.mk.inj (Option.some.inj hcounts)
      exact inBreakdown_of_describes hdescribes hdevice.2
    · cases hcounts

theorem stats_agree_youtube : ∃ (o : ObservedServer) (total blocked : Nat),
    o.deviceTracker.counts "192.168.1.15" = some (total, blocked) ∧
      InBreakdown (o.stats keysInOrder keysInOrder (.bool false)) "192.168.1.15" total blocked := by
  obtain ⟨a, n, o, hlog, hip, hrun⟩ := exists_heard
  have hbounded : a.logStore.Bounded := hlog ▸ bounded_new
  obtain ⟨-, -, hlisted⟩ := stats_agree hbounded (by rw [hlog]) (by rw [hlog]) hrun keysInOrder
    keysInOrder .null
  have hobserved := observed_of_run hbounded (by rw [hlog]) (by rw [hlog]) hrun
  have hcounts := (hobserved.devices _).trans (deviceCounts_example n hip)
  have hle : ((heard [.heard n]).length : Int) ≤ a.logStore.maxFlows := by
    rw [hlog]
    exact (by decide : (1 : Int) ≤ 5000)
  exact ⟨o, _, _, hcounts, hlisted (by simp [ServerEvent.isRestart]) hle _ _ _ hcounts⟩

end FocusGuard

import FocusGuard.Lib.SqlGroups
import FocusGuard.Storage.EventLog
import Mathlib.Data.Finset.Card

/-!
# Statistics of the flow log

`get_stats` of `focusguard/storage/log_store.py`, without the share of blocked queries, which is a
rounded floating-point number.

## Main definitions

* `EventLogStore.getStats`: the statistics.
* `FlowStats.Describes`: what statistics say about a list of flows.

## Main results

* `stats_describe`: after any calls, what the statistics say is true of the flows that are kept.
-/

namespace FocusGuard

open SqlGroups

structure DomainCount where
  domain : Text
  count : Nat
  deriving DecidableEq

structure DeviceCount where
  clientIp : Text
  totalQueries : Nat
  blockedQueries : Nat
  deriving DecidableEq

structure FlowStats where
  totalQueries : Nat
  blockedQueries : Nat
  allowedQueries : Nat
  uniqueDevices : Nat
  uniqueDomains : Nat
  topBlockedDomains : List DomainCount
  deviceBreakdown : List DeviceCount
  isSessionScoped : Bool

namespace LogFlow

def isBlocked (f : LogFlow) : Bool := f.action = ("BLOCKED" : Text)

def isAllowed (f : LogFlow) : Bool := f.action = ("ALLOWED" : Text)

/-- `WHERE session_id = ?`, a clause that an empty identifier leaves out. -/
def inScope (sessionId : Option Text) (f : LogFlow) : Bool :=
  sessionId.getD [] = [] ∨ f.sessionId = sessionId

end LogFlow

/-- The groups of the two grouped queries come in the orders `domains` and `devices`. -/
def EventLogStore.getStats (domains devices : GroupOrder Text) (sessionId : Option Text)
    (s : EventLogStore) : FlowStats :=
  let flows := s.flows.values.filter (LogFlow.inScope sessionId)
  let blocked := flows.filter LogFlow.isBlocked
  { totalQueries := flows.length
    blockedQueries := flows.countP LogFlow.isBlocked
    allowedQueries := flows.countP LogFlow.isAllowed
    uniqueDevices := (flows.map LogFlow.clientIp).dedup.length
    uniqueDomains := (flows.map LogFlow.domain).dedup.length
    topBlockedDomains := (largest 10 (groupsBy domains LogFlow.domain blocked)).map fun g =>
      ⟨g.1, g.2.length⟩
    deviceBreakdown := (largest 10 (groupsBy devices LogFlow.clientIp flows)).map fun g =>
      ⟨g.1, g.2.length, g.2.countP LogFlow.isBlocked⟩
    isSessionScoped := sessionId.getD [] ≠ [] }

/-! ## What statistics say -/

namespace FlowStats

/-- The statistics are those of the flows. -/
structure Describes (stats : FlowStats) (flows : List LogFlow) : Prop where
  total : stats.totalQueries = flows.length
  blocked : stats.blockedQueries = flows.countP LogFlow.isBlocked
  allowed : stats.allowedQueries = flows.countP LogFlow.isAllowed
  devices : stats.uniqueDevices = (flows.map LogFlow.clientIp).toFinset.card
  domains : stats.uniqueDomains = (flows.map LogFlow.domain).toFinset.card
  topBlocked : Ranking 10 (fun d => flows.countP fun f => f.domain = d ∧ f.isBlocked)
    (stats.topBlockedDomains.map fun d => (d.domain, d.count))
  breakdown : Ranking 10 (fun ip => flows.countP fun f => f.clientIp = ip)
    (stats.deviceBreakdown.map fun d => (d.clientIp, d.totalQueries))
  breakdownBlocked : ∀ d ∈ stats.deviceBreakdown,
    d.blockedQueries = flows.countP fun f => f.clientIp = d.clientIp ∧ f.isBlocked
  /-- With ten devices or fewer, the breakdown leaves nothing out. -/
  sums : stats.uniqueDevices ≤ 10 →
    (stats.deviceBreakdown.map DeviceCount.totalQueries).sum = stats.totalQueries ∧
    (stats.deviceBreakdown.map DeviceCount.blockedQueries).sum = stats.blockedQueries

end FlowStats

variable {maxEntries maxFlows : Nat}

/-- Statistics describe the rows of the table, those of the session if one is given. -/
theorem getStats_describes (domains devices : GroupOrder Text) (sessionId : Option Text)
    (s : EventLogStore) : (s.getStats domains devices sessionId).Describes
      (s.flows.values.filter (LogFlow.inScope sessionId)) := by
  generalize hflows : s.flows.values.filter (LogFlow.inScope sessionId) = flows
  unfold EventLogStore.getStats
  rw [hflows]
  refine ⟨rfl, rfl, rfl, (List.card_toFinset _).symm, (List.card_toFinset _).symm, ?_, ?_, ?_, ?_⟩
  · have hblocked := ranking_largest domains LogFlow.domain (flows.filter LogFlow.isBlocked) 10
    simpa [Function.comp_def, List.countP_filter] using hblocked
  · have hdevices := ranking_largest devices LogFlow.clientIp flows 10
    simpa [Function.comp_def] using hdevices
  · intro d hd
    obtain ⟨g, hg, rfl⟩ := List.mem_map.mp hd
    have hgroup := (mem_groupsBy.mp (mem_of_mem_largest hg)).2
    simp [hgroup, List.countP_filter, Bool.and_comm]
  · intro hle
    have hall : (largest 10 (groupsBy devices LogFlow.clientIp flows)).Perm
        (groupsBy devices LogFlow.clientIp flows) :=
      largest_perm ((length_groupsBy _ _ _).trans_le hle)
    have hsum := fun p => ((hall.map fun g => g.2.countP p).sum_eq).trans
      (sum_groupsBy devices LogFlow.clientIp flows p)
    constructor
    · simpa [Function.comp_def] using hsum fun _ => true
    · simpa [Function.comp_def] using hsum LogFlow.isBlocked

/-- After any calls, in whatever order the database visits its groups, the statistics are those of
the last flows that were recorded, as many as the log may keep. -/
theorem stats_describe (rt : Runtime) (hentries : maxEntries < 2 ^ 63) (hflows : maxFlows < 2 ^ 63)
    (calls : List LogCall) (domains devices : GroupOrder Text) (sessionId : Option Text) :
    (((freshStore maxEntries maxFlows).run rt calls).getStats domains devices sessionId).Describes
      (((LogHistory.run rt {} calls).flows.rtake maxFlows).filter (LogFlow.inScope sessionId)) := by
  have hrange : InRange maxEntries := ⟨by omega, by omega⟩
  have hrange' : InRange maxFlows := ⟨by omega, by omega⟩
  have hfresh : Retains (freshStore maxEntries maxFlows) {} :=
    ⟨(List.rtake_nil _).symm, (List.rtake_nil _).symm⟩
  obtain ⟨hretains, -, hmax⟩ := run_retains rt hrange hrange' hfresh calls
  have hrows := hretains.flows
  rw [hmax] at hrows
  have hstats := getStats_describes domains devices sessionId
    ((freshStore maxEntries maxFlows).run rt calls)
  rwa [hrows] at hstats

/-- Groups in the order in which their keys are first seen. -/
def keysInOrder : GroupOrder Text := ⟨id, fun _ => .refl _⟩

/-- A flow is dropped when the next one comes. -/
theorem stats_describe_exampleCalls : (((freshStore 1 1).run asciiRuntime exampleCalls).getStats
    keysInOrder keysInOrder none).totalQueries = 1 := by
  have hstats := stats_describe asciiRuntime (by decide : 1 < 2 ^ 63) (by decide : 1 < 2 ^ 63)
    exampleCalls keysInOrder keysInOrder none
  rw [hstats.total]
  decide

end FocusGuard

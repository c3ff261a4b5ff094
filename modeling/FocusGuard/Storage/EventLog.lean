import FocusGuard.Core.Normalizer
import FocusGuard.Lib.SqlTable

/-!
# The event and flow log

`focusguard/storage/log_store.py`. Each call is one transaction on the two tables of the database.
Clock readings are arguments, and so is `LIKE`, the pattern match of the database.

## Main results

* `call_retains`: a call keeps the last entries of what has been recorded.
* `logs_are_ring_buffers`: what is read from the logs, after any calls.
-/

namespace FocusGuard

open Calendar

structure LogEvent where
  timestamp : Text
  category : Text
  action : Text
  details : Text
  deriving DecidableEq

structure LogFlow where
  timestamp : Text
  clientIp : Text
  domain : Text
  qtype : Int
  action : Text
  reason : Text
  sessionId : Option Text
  deriving DecidableEq

structure EventLogStore where
  maxEntries : Int := 1000
  maxFlows : Int := 5000
  events : SqlTable LogEvent := .empty
  flows : SqlTable LogFlow := .empty

/-- Integers of the database are 64 bits wide. -/
def InRange (n : Int) : Prop := -2 ^ 63 ≤ n ∧ n < 2 ^ 63

instance (n : Int) : Decidable (InRange n) := inferInstanceAs (Decidable (_ ∧ _))

/-- An integer as a parameter of a statement. -/
def bindInt (n : Int) : Except PyError Int := if InRange n then .ok n else .error .overflowError

namespace EventLogStore

variable (rt : Runtime) (like : Text → Text → Bool)

def record (now : Instant) (category action details : Text) : Exec PyError EventLogStore Unit :=
  Exec.transaction do
    Exec.modify fun s =>
      { s with events := s.events.insert ⟨isoformat now, category, action, details⟩ }
    let s ← Exec.get
    let offset ← Exec.ofExcept (bindInt s.maxEntries)
    Exec.modify fun s => { s with events := s.events.keepNewest offset }

/-- The row of a flow. An empty timestamp is replaced like a missing one. -/
def flowRow (now : Instant) (clientIp domain : Text) (qtype : Int) (action reason : Text)
    (sessionId timestamp : Option Text) : LogFlow where
  timestamp := if timestamp.getD [] = [] then isoformat now else timestamp.getD []
  clientIp := clientIp
  domain := rt.lower (Text.stripBy isDomainBlank domain)
  qtype := qtype
  action := action
  reason := reason
  sessionId := sessionId

def recordFlow (now : Instant) (clientIp domain : Text) (qtype : Int) (action reason : Text)
    (sessionId timestamp : Option Text) : Exec PyError EventLogStore Unit :=
  Exec.transaction do
    let qtype ← Exec.ofExcept (bindInt qtype)
    let row := flowRow rt now clientIp domain qtype action reason sessionId timestamp
    Exec.modify fun s => { s with flows := s.flows.insert row }
    let s ← Exec.get
    let offset ← Exec.ofExcept (bindInt s.maxFlows)
    Exec.modify fun s => { s with flows := s.flows.keepNewest offset }

def getRecent (limit : Int) (category : Option Text) (s : EventLogStore) :
    Except PyError (List LogEvent) := do
  let limit ← bindInt limit
  if category.getD [] ≠ [] then
    .ok ((s.events.selectDesc (fun e => e.category = category.getD []) limit 0).map Prod.snd)
  else .ok ((s.events.selectDesc (fun _ => true) limit 0).map Prod.snd)

def getRecentFlows (limit : Int) (blockedOnly : Bool) (clientIp domain : Option Text)
    (s : EventLogStore) : Except PyError (List LogFlow) := do
  let limit ← bindInt limit
  let selected := fun f : LogFlow =>
    (blockedOnly = true → f.action = ("BLOCKED" : Text)) ∧
      (clientIp.getD [] ≠ [] → f.clientIp = clientIp.getD []) ∧
      (domain.getD [] ≠ [] → like ('%' :: rt.lower (domain.getD []) ++ ['%']) f.domain = true)
  .ok ((s.flows.selectDesc (fun f => selected f) limit 0).map Prod.snd)

def clear : Exec PyError EventLogStore Unit :=
  Exec.transaction (Exec.modify fun s => { s with
    events := s.events.delete fun _ => true
    flows := s.flows.delete fun _ => true })

end EventLogStore

/-! ## Calls -/

inductive LogCall where
  | record (now : Instant) (category action details : Text)
  | recordFlow (now : Instant) (clientIp domain : Text) (qtype : Int) (action reason : Text)
      (sessionId timestamp : Option Text)
  | clear

variable (rt : Runtime) (like : Text → Text → Bool)

def EventLogStore.call : LogCall → Exec PyError EventLogStore Unit
  | .record now category action details => record now category action details
  | .recordFlow now clientIp domain qtype action reason sessionId timestamp =>
    recordFlow rt now clientIp domain qtype action reason sessionId timestamp
  | .clear => clear

/-- The store after the calls; one that raises leaves it as it is. -/
def EventLogStore.run (s : EventLogStore) (calls : List LogCall) : EventLogStore :=
  calls.foldl (fun s c => (EventLogStore.call rt c s).2) s

/-- Everything that was recorded since the logs were last cleared, the oldest first. -/
structure LogHistory where
  events : List LogEvent := []
  flows : List LogFlow := []

/-- What a call adds. A query type that the database cannot hold makes it raise. -/
def LogHistory.call (r : LogHistory) : LogCall → LogHistory
  | .record now category action details =>
    { r with events := r.events ++ [⟨isoformat now, category, action, details⟩] }
  | .recordFlow now clientIp domain qtype action reason sessionId timestamp =>
    if InRange qtype then
      { r with flows := r.flows ++
          [EventLogStore.flowRow rt now clientIp domain qtype action reason sessionId timestamp] }
    else r
  | .clear => {}

def LogHistory.run (r : LogHistory) (calls : List LogCall) : LogHistory :=
  calls.foldl (LogHistory.call rt) r

/-! ## What a call does -/

variable {rt : Runtime} {s : EventLogStore} {r : LogHistory} {n : Int}

theorem bindInt_of_inRange (h : InRange n) : bindInt n = .ok n := if_pos h

theorem bindInt_of_not_inRange (h : ¬ InRange n) : bindInt n = .error .overflowError := if_neg h

namespace EventLogStore

theorem record_apply (now : Instant) (category action details : Text) (h : InRange s.maxEntries) :
    record now category action details s = (.ok (), { s with
      events := (s.events.insert ⟨isoformat now, category, action, details⟩).keepNewest
        s.maxEntries }) := by
  unfold record Exec.transaction
  simp only [Exec.bind_apply, Exec.modify_apply, Exec.get_apply, Exec.ofExcept_apply,
    bindInt_of_inRange h]

theorem record_raises (now : Instant) (category action details : Text)
    (h : ¬ InRange s.maxEntries) :
    record now category action details s = (.error .overflowError, s) := by
  unfold record Exec.transaction
  simp only [Exec.bind_apply, Exec.modify_apply, Exec.get_apply, Exec.ofExcept_apply,
    bindInt_of_not_inRange h]

theorem recordFlow_apply (now : Instant) (clientIp domain : Text) {qtype : Int}
    (action reason : Text) (sessionId timestamp : Option Text) (hq : InRange qtype)
    (h : InRange s.maxFlows) :
    recordFlow rt now clientIp domain qtype action reason sessionId timestamp s = (.ok (), { s with
      flows := (s.flows.insert (flowRow rt now clientIp domain qtype action reason sessionId
        timestamp)).keepNewest s.maxFlows }) := by
  unfold recordFlow Exec.transaction
  simp only [Exec.bind_apply, Exec.modify_apply, Exec.get_apply, Exec.ofExcept_apply,
    bindInt_of_inRange hq, bindInt_of_inRange h]

theorem recordFlow_raises (now : Instant) (clientIp domain : Text) {qtype : Int}
    (action reason : Text) (sessionId timestamp : Option Text)
    (h : ¬ (InRange qtype ∧ InRange s.maxFlows)) :
    recordFlow rt now clientIp domain qtype action reason sessionId timestamp s =
      (.error .overflowError, s) := by
  unfold recordFlow Exec.transaction
  by_cases hq : InRange qtype
  · simp only [Exec.bind_apply, Exec.modify_apply, Exec.get_apply, Exec.ofExcept_apply,
      bindInt_of_inRange hq, bindInt_of_not_inRange fun h' => h ⟨hq, h'⟩]
  · simp only [Exec.bind_apply, Exec.ofExcept_apply, bindInt_of_not_inRange hq]

/-- Recording an event leaves the flows as they are. -/
theorem record_flows (now : Instant) (category action details : Text) :
    (record now category action details s).2.flows = s.flows := by
  by_cases h : InRange s.maxEntries
  · rw [record_apply _ _ _ _ h]
  · rw [record_raises _ _ _ _ h]

/-- Recording a flow leaves the events as they are. -/
theorem recordFlow_events (now : Instant) (clientIp domain : Text) (qtype : Int)
    (action reason : Text) (sessionId timestamp : Option Text) :
    (recordFlow rt now clientIp domain qtype action reason sessionId timestamp s).2.events =
      s.events := by
  by_cases h : InRange qtype ∧ InRange s.maxFlows
  · rw [recordFlow_apply _ _ _ _ _ _ _ h.1 h.2]
  · rw [recordFlow_raises _ _ _ _ _ _ _ h]

end EventLogStore

/-! ## Retention -/

/-- The tables hold the last entries of what has been recorded, as many as they may. -/
structure Retains (s : EventLogStore) (r : LogHistory) : Prop where
  events : s.events.values = r.events.rtake s.maxEntries.toNat
  flows : s.flows.values = r.flows.rtake s.maxFlows.toNat

/-- A call keeps the last entries, and the limits of the store. -/
theorem call_retains (rt : Runtime) (hevents : InRange s.maxEntries) (hflows : InRange s.maxFlows)
    (h : Retains s r) (c : LogCall) :
    Retains (EventLogStore.call rt c s).2 (r.call rt c) ∧
      (EventLogStore.call rt c s).2.maxEntries = s.maxEntries ∧
      (EventLogStore.call rt c s).2.maxFlows = s.maxFlows := by
  cases c with
  | record now category action details =>
    rw [EventLogStore.call, EventLogStore.record_apply _ _ _ _ hevents]
    exact ⟨⟨SqlTable.values_insert_keepNewest h.events _, h.flows⟩, rfl, rfl⟩
  | recordFlow now clientIp domain qtype action reason sessionId timestamp =>
    rw [EventLogStore.call, LogHistory.call]
    split
    · next hq =>
      rw [EventLogStore.recordFlow_apply _ _ _ _ _ _ _ hq hflows]
      exact ⟨⟨h.events, SqlTable.values_insert_keepNewest h.flows _⟩, rfl, rfl⟩
    · next hq =>
      rw [EventLogStore.recordFlow_raises _ _ _ _ _ _ _ fun h' => hq h'.1]
      exact ⟨h, rfl, rfl⟩
  | clear =>
    refine ⟨⟨?_, ?_⟩, rfl, rfl⟩
    · exact s.events.values_delete_all.trans (List.rtake_nil _).symm
    · exact s.flows.values_delete_all.trans (List.rtake_nil _).symm

theorem run_retains (rt : Runtime) (hevents : InRange s.maxEntries) (hflows : InRange s.maxFlows)
    (h : Retains s r) (calls : List LogCall) :
    Retains (s.run rt calls) (r.run rt calls) ∧ (s.run rt calls).maxEntries = s.maxEntries ∧
      (s.run rt calls).maxFlows = s.maxFlows := by
  induction calls generalizing s r with
  | nil => exact ⟨h, rfl, rfl⟩
  | cons c calls ih =>
    obtain ⟨hcall, hmax, hmax'⟩ := call_retains rt hevents hflows h c
    rw [← hmax] at hevents ⊢
    rw [← hmax'] at hflows ⊢
    exact ih hevents hflows hcall

/-! ## Reading -/

/-- A store with empty logs. -/
def freshStore (maxEntries maxFlows : Nat) : EventLogStore where
  maxEntries := maxEntries
  maxFlows := maxFlows

/-- The events that are read are the newest with the category among the last ones recorded. -/
def ReadsEvents (rt : Runtime) (maxEntries maxFlows : Nat) (calls : List LogCall) (limit : Int)
    (category : Option Text) : Prop :=
  EventLogStore.getRecent limit category ((freshStore maxEntries maxFlows).run rt calls) =
    .ok (SqlTable.upTo limit ((((LogHistory.run rt {} calls).events.rtake maxEntries).filter
      fun e => ∀ c ∈ category, e.category = c).reverse))

/-- The flows that are read are the newest among the last ones recorded. -/
def ReadsFlows (rt : Runtime) (like : Text → Text → Bool) (maxEntries maxFlows : Nat)
    (calls : List LogCall) (limit : Int) : Prop :=
  EventLogStore.getRecentFlows rt like limit false none none
      ((freshStore maxEntries maxFlows).run rt calls) =
    .ok (SqlTable.upTo limit ((LogHistory.run rt {} calls).flows.rtake maxFlows).reverse)

theorem getRecent_all {limit : Int} (hlimit : InRange limit) {category : Option Text}
    (hcategory : category.getD [] = []) (s : EventLogStore) :
    s.getRecent limit category = .ok (SqlTable.upTo limit s.events.values.reverse) := by
  unfold EventLogStore.getRecent
  rw [bindInt_of_inRange hlimit]
  change (if category.getD [] ≠ [] then _ else _) = _
  rw [if_neg (not_not.mpr hcategory), SqlTable.selectDesc_eq, List.filter_true]

theorem getRecent_category {limit : Int} (hlimit : InRange limit) {category : Text}
    (hcategory : category ≠ []) (s : EventLogStore) :
    s.getRecent limit (some category) = .ok (SqlTable.upTo limit
      (s.events.values.filter fun e => e.category = category).reverse) := by
  unfold EventLogStore.getRecent
  rw [bindInt_of_inRange hlimit]
  change (if category ≠ [] then _ else _) = _
  rw [if_pos hcategory, SqlTable.selectDesc_eq]
  rfl

theorem getRecent_eq {limit : Int} (hlimit : InRange limit) {category : Option Text}
    (hcategory : category ≠ some []) (s : EventLogStore) :
    s.getRecent limit category =
      .ok (SqlTable.upTo limit (s.events.values.filter
        fun e => ∀ c ∈ category, e.category = c).reverse) := by
  cases category with
  | none =>
    rw [getRecent_all hlimit rfl]
    simp
  | some category =>
    rw [getRecent_category hlimit fun h => hcategory (congrArg some h)]
    simp

theorem getRecentFlows_eq {limit : Int} (hlimit : InRange limit) (like : Text → Text → Bool)
    (s : EventLogStore) : EventLogStore.getRecentFlows rt like limit false none none s =
      .ok (SqlTable.upTo limit s.flows.values.reverse) := by
  unfold EventLogStore.getRecentFlows
  rw [bindInt_of_inRange hlimit]
  change Except.ok _ = _
  rw [SqlTable.selectDesc_eq]
  simp

/-- The logs are ring buffers: what is read are the newest among the last entries recorded, for
every limit that the database can hold and every category but the empty one, which is none.
Recording one kind of entry leaves the other as it is. -/
theorem logs_are_ring_buffers (rt : Runtime) (like : Text → Text → Bool) {maxEntries maxFlows : Nat}
    (hmax : maxEntries < 2 ^ 63) (hmax' : maxFlows < 2 ^ 63) (calls : List LogCall) :
    (∀ limit category, InRange limit → category ≠ some [] →
      ReadsEvents rt maxEntries maxFlows calls limit category) ∧
    (∀ limit, InRange limit → ReadsFlows rt like maxEntries maxFlows calls limit) ∧
    (∀ (s : EventLogStore) now category action details,
      (EventLogStore.record now category action details s).2.flows = s.flows) ∧
    ∀ (s : EventLogStore) now clientIp domain qtype action reason sessionId timestamp,
      (EventLogStore.recordFlow rt now clientIp domain qtype action reason sessionId timestamp
        s).2.events = s.events := by
  have hrange : InRange maxEntries := ⟨by omega, by omega⟩
  have hrange' : InRange maxFlows := ⟨by omega, by omega⟩
  have hfresh : Retains (freshStore maxEntries maxFlows) {} :=
    ⟨(List.rtake_nil _).symm, (List.rtake_nil _).symm⟩
  obtain ⟨hretains, hevents, hflows⟩ := run_retains rt hrange hrange' hfresh calls
  refine ⟨fun limit category hlimit hcategory => ?_, fun limit hlimit => ?_,
    fun s now category action details => EventLogStore.record_flows now category action details,
    fun s now clientIp domain qtype action reason sessionId timestamp =>
      EventLogStore.recordFlow_events now clientIp domain qtype action reason sessionId timestamp⟩
  · rw [ReadsEvents, getRecent_eq hlimit hcategory, hretains.events, hevents]
    rfl
  · rw [ReadsFlows, getRecentFlows_eq hlimit, hretains.flows, hflows]
    rfl

/-- Two events and a flow. -/
def exampleCalls : List LogCall :=
  [.record ⟨1720000000000000, by decide⟩ "session" "start" "1h",
    .record ⟨1720000001000000, by decide⟩ "policy" "add_domain" "Added: example.com",
    .recordFlow ⟨1720000002000000, by decide⟩ "192.168.1.15" "example.com." 1 "BLOCKED" "Custom"
      none none]

theorem logs_are_ring_buffers_exampleCalls :
    ReadsEvents asciiRuntime 1 1 exampleCalls 50 (some "policy") ∧
      ReadsFlows asciiRuntime (fun _ _ => false) 1 1 exampleCalls 50 := by
  obtain ⟨hevents, hflows, -⟩ := logs_are_ring_buffers asciiRuntime (fun _ _ => false)
    (by decide : 1 < 2 ^ 63) (by decide : 1 < 2 ^ 63) exampleCalls
  exact ⟨hevents 50 (some "policy") (by decide) (by decide), hflows 50 (by decide)⟩

/-- An empty category does not select events without a category, and a number that the database
cannot hold makes the call raise, be it the limit of a query or that of the log. -/
theorem logs_not_ring_buffers :
    ¬ ReadsEvents asciiRuntime 1000 5000 (exampleCalls.take 1) 50 (some []) ∧
    ¬ ReadsEvents asciiRuntime 1000 5000 (exampleCalls.take 1) (2 ^ 63) none ∧
    ¬ ReadsEvents asciiRuntime (2 ^ 63) 5000 (exampleCalls.take 1) 50 none := by
  refine ⟨fun h => ?_, fun h => ?_, fun h => ?_⟩
  · have hfresh : Retains (freshStore 1000 5000) {} :=
      ⟨(List.rtake_nil _).symm, (List.rtake_nil _).symm⟩
    obtain ⟨hretains, -⟩ := run_retains asciiRuntime (by decide) (by decide) hfresh
      (exampleCalls.take 1)
    rw [ReadsEvents, getRecent_all (by decide) rfl, hretains.events, Except.ok.injEq] at h
    revert h
    decide
  · rw [ReadsEvents, EventLogStore.getRecent, bindInt_of_not_inRange (by decide)] at h
    cases h
  · have hrun : (freshStore (2 ^ 63) 5000).run asciiRuntime (exampleCalls.take 1) =
        freshStore (2 ^ 63) 5000 :=
      congrArg Prod.snd (EventLogStore.record_raises _ _ _ _ (by decide))
    rw [ReadsEvents, hrun, getRecent_all (by decide) rfl, Except.ok.injEq] at h
    revert h
    decide

end FocusGuard

import FocusGuard.Service.PermanentLists
import FocusGuard.Storage.EventLog

/-!
# The engine with its event log

The operations of `focusguard/core/policy.py` once more, now with the records they make, and the
callbacks with which `focusguard/service/daemon.py` records what the DNS server does. Errors of the
database other than numbers it cannot hold are not modelled.

## Main definitions

* `AuditedEngine`: the engine and the log store.
* `AuditedEngine.Step`: a call, a heartbeat, a restart, or a callback of the DNS server.

## Main results

* `AuditedEngine.Step.follows`: recording changes nothing of what the engine does, and what holds of
  the log whatever the engine records is kept.
-/

/-! ## Simulation under an invariant -/

namespace Exec

variable {ε σ τ α β : Type}

/-- On the states that satisfy `I`, which it keeps, `m` does what `m'` does on the view. -/
def SimulatesOn (I : σ → Prop) (view : σ → τ) (m : Exec ε σ α) (m' : Exec ε τ α) : Prop :=
  ∀ s, I s → m' (view s) = ((m s).1, view (m s).2) ∧ I (m s).2

namespace SimulatesOn

variable {I : σ → Prop} {view : σ → τ} {m : Exec ε σ α} {m' : Exec ε τ α}

theorem pure (a : α) : SimulatesOn I view (Pure.pure a : Exec ε σ α) (Pure.pure a) :=
  fun _ hs => ⟨rfl, hs⟩

theorem throw (e : ε) : SimulatesOn I view (Exec.throw e : Exec ε σ α) (Exec.throw e) :=
  fun _ hs => ⟨rfl, hs⟩

theorem ofExcept (r : Except ε α) : SimulatesOn I view (Exec.ofExcept r) (Exec.ofExcept r) :=
  fun _ hs => ⟨rfl, hs⟩

theorem bind {f : α → Exec ε σ β} {f' : α → Exec ε τ β} (hm : SimulatesOn I view m m')
    (hf : ∀ a, SimulatesOn I view (f a) (f' a)) : SimulatesOn I view (m >>= f) (m' >>= f') := by
  intro s hs
  obtain ⟨heq, ht⟩ := hm s hs
  rw [bind_apply, bind_apply, heq]
  rcases hms : m s with ⟨e | a, t⟩
  · rw [hms] at ht
    exact ⟨rfl, ht⟩
  · rw [hms] at ht
    exact hf a t ht

theorem get_bind {f : σ → Exec ε σ β} {f' : τ → Exec ε τ β}
    (h : ∀ s, SimulatesOn I view (f s) (f' (view s))) :
    SimulatesOn I view (Exec.get >>= f) (Exec.get >>= f') :=
  fun s hs => h s s hs

theorem ite {c : Prop} [Decidable c] {n : Exec ε σ α} {n' : Exec ε τ α}
    (hm : c → SimulatesOn I view m m') (hn : ¬ c → SimulatesOn I view n n') :
    SimulatesOn I view (if c then m else n) (if c then m' else n') := by
  split
  · next h => exact hm h
  · next h => exact hn h

/-- What the view does not show may happen before the rest. -/
theorem silent_bind {n : Exec ε σ Unit} {k : Exec ε σ α}
    (hn : SimulatesOn I view n (Pure.pure ())) (hk : SimulatesOn I view k m') :
    SimulatesOn I view (n >>= fun _ => k) m' := by
  intro s hs
  obtain ⟨heq, ht⟩ := hn s hs
  rw [pure_apply, Prod.mk.injEq] at heq
  obtain ⟨hok, hview⟩ := heq
  rcases hns : n s with ⟨e | ⟨⟨⟩⟩, t⟩
  · rw [hns] at hok
    cases hok
  · rw [bind_of_ok hns, hview, hns]
    rw [hns] at ht
    exact hk t ht

end SimulatesOn

end Exec

namespace FocusGuard

open Calendar

/-! ## Operations -/

structure AuditedEngine where
  engine : PolicyEngine
  logStore : EventLogStore

variable (rt : Runtime) (env : CallEnv)

namespace AuditedEngine

open PolicyEngine (onSession onSinkhole setConfig refreshSinkhole saveState appendMissing
  lookupService sessionEnd sessionScope)

def onEngine {α : Type} (m : Exec PyError PolicyEngine α) : Exec PyError AuditedEngine α :=
  Exec.focus AuditedEngine.engine (fun t a => { a with engine := t }) m

def onLog {α : Type} (m : Exec PyError EventLogStore α) : Exec PyError AuditedEngine α :=
  Exec.focus AuditedEngine.logStore (fun t a => { a with logStore := t }) m

/-- `self.log_store.record(...)`, which takes a reading of its own. -/
def record (category action details : Text) : Exec PyError AuditedEngine Unit :=
  onLog (EventLogStore.record (env.clock 4) category action details)

def addedDetails (normalized : Text) (added : List Text) : Text :=
  ("Added: " : Text) ++ if added = [] then normalized else (", " : Text).intercalate added

def addPermanentDomain (domainInput : Json) (includeCompanions : Bool) :
    Exec PyError AuditedEngine (List Text) := do
  onEngine (onSession (assertNotLocked rt env.clock))
  let normalized ← Exec.ofExcept (normalizeDomain rt domainInput)
  let a ← Exec.get
  let r := appendMissing a.engine.config.permanentDomains
    (normalized :: if includeCompanions then getCompanionDomains rt normalized else [])
  onEngine (setConfig fun c => { c with permanentDomains := r.1 })
  onEngine (refreshSinkhole rt)
  onEngine (saveState rt env)
  record env "policy" "add_domain" (addedDetails normalized r.2)
  pure (if r.2 = [] then [normalized] else r.2)

def removePermanentDomain (domainInput : Json) : Exec PyError AuditedEngine Text := do
  onEngine (onSession (assertNotLocked rt env.clock))
  let normalized ← Exec.ofExcept (normalizeDomain rt domainInput)
  let a ← Exec.get
  if normalized ∈ a.engine.config.permanentDomains then
    onEngine (setConfig fun c =>
      { c with permanentDomains := c.permanentDomains.erase normalized })
    onEngine (refreshSinkhole rt)
    onEngine (saveState rt env)
    record env "policy" "remove_domain" (("Removed: " : Text) ++ normalized)
    pure normalized
  else
    Exec.throw (.valueError (quoted "Domain '" normalized "' is not in permanent blocklist."))

def blockPermanentService (serviceId : Json) :
    Exec PyError AuditedEngine (List (Text × Json)) := do
  onEngine (onSession (assertNotLocked rt env.clock))
  let found ← Exec.ofExcept (lookupService rt serviceId)
  match found with
  | none =>
    Exec.throw (.valueError (quoted "Unknown service '" (serviceId.text?.getD [])
      "'. Run 'focusguard services' to view available services."))
  | some svc =>
    let a ← Exec.get
    if svc.id ∉ a.engine.config.permanentServices then
      onEngine (setConfig fun c => { c with permanentServices := c.permanentServices ++ [svc.id] })
      onEngine (refreshSinkhole rt)
      onEngine (saveState rt env)
      record env "policy" "block_service" (("Permanently blocked service: " : Text) ++ svc.name)
      pure svc.toDict
    else pure svc.toDict

def unblockPermanentService (serviceId : Json) : Exec PyError AuditedEngine Text := do
  onEngine (onSession (assertNotLocked rt env.clock))
  let found ← Exec.ofExcept (lookupService rt serviceId)
  match found with
  | none =>
    Exec.throw (.valueError (quoted "Unknown service '" (serviceId.text?.getD []) "'."))
  | some svc =>
    let a ← Exec.get
    if svc.id ∈ a.engine.config.permanentServices then
      onEngine (setConfig fun c =>
        { c with permanentServices := c.permanentServices.erase svc.id })
      onEngine (refreshSinkhole rt)
      onEngine (saveState rt env)
      record env "policy" "unblock_service" (("Unblocked service: " : Text) ++ svc.name)
      pure svc.name
    else
      Exec.throw (.valueError (quoted "Service '" svc.name
        "' is not currently in permanent blocklist."))

def lockedDetails (expiresAt : Text) (domains services : Nat) : Text :=
  ("Locked until " : Text) ++ expiresAt ++ (" (" : Text) ++ Nat.toDigits 10 domains ++
    (" domains, " : Text) ++ Nat.toDigits 10 services ++ (" services)" : Text)

def startFocusSession (durationStr untilStr domainsArg servicesArg : Json)
    (includeCompanions : Bool) : Exec PyError AuditedEngine (List (Text × Json)) := do
  let now := env.clock 0
  let expiry ← Exec.ofExcept (sessionEnd rt env durationStr untilStr now)
  let a ← Exec.get
  let scope ← Exec.ofExcept
    (sessionScope rt a.engine.config domainsArg servicesArg includeCompanions)
  if scope.1 = [] then
    Exec.throw (.valueError "No valid domains or services specified for focus session.")
  else
    onEngine (onSession (startSession rt env expiry.1 expiry.2 (Text.sorted scope.1)
      (Text.sorted scope.2) now))
    onEngine (refreshSinkhole rt)
    onEngine (saveState rt env)
    record env "session" "start_locked_session" (lockedDetails (isoformat expiry.1)
      (Text.sorted scope.1).length (Text.sorted scope.2).length)
    let a ← Exec.get
    Exec.ofExcept (getSummary rt a.engine.session (env.clock 3))

def stopFocusSession : Exec PyError AuditedEngine Unit :=
  onEngine (PolicyEngine.stopFocusSession rt env)

def tick : Exec PyError AuditedEngine Bool := do
  let r ← onEngine (onSession (checkExpiration rt (env.clock 0)))
  if r.1 then
    onEngine (onSession releaseExpired)
    onEngine (refreshSinkhole rt)
    onEngine (saveState rt env)
    record env "session" "expired_auto_restored" r.2
    pure true
  else pure false

/-! ## Construction -/

def resumedDetails (expiresAt : Option Text) : Text :=
  ("Resumed active locked session until " : Text) ++ expiresAt.getD "None" ++ ("." : Text)

def recoverSession : Exec PyError AuditedEngine Unit := do
  let a ← Exec.get
  if a.engine.session.isLocked then
    let r ← onEngine (onSession (checkExpiration rt (env.clock 0)))
    if r.1 then
      onEngine (onSession releaseExpired)
      onEngine (saveState rt env)
      record env "session" "reboot_recovered_expired" "Session expired during or before reboot."
    else
      let a ← Exec.get
      record env "session" "reboot_resumed_locked" (resumedDetails a.engine.session.expiresAtUtc)
  else pure ()

def boot : Exec PyError AuditedEngine Unit := do
  let a ← Exec.get
  onEngine (onSinkhole (Exec.modify fun s => { s with
    blockDoh := a.engine.config.blockDoh, allowlistMode := a.engine.config.allowlistMode }))
  onEngine (onSinkhole (DomainSinkhole.setAllowedDomains rt a.engine.config.allowedDomains))
  recoverSession rt env
  onEngine (refreshSinkhole rt)

/-- `PolicyEngine(sinkhole, state_manager, log_store)` on the files of a directory. -/
def start (disk : Disk) (logStore : EventLogStore) : Except PyError AuditedEngine :=
  match DomainSinkhole.init rt true with
  | .error x => .error x
  | .ok sinkhole =>
    match load rt env { disk := disk } with
    | (.error x, _) => .error x
    | (.ok data, m) =>
      match boot rt env ⟨⟨sinkhole, m, data.1.config, data.1.session⟩, logStore⟩ with
      | (.error x, _) => .error x
      | (.ok (), a) => .ok a

/-! ## Callbacks of the DNS server -/

def onBlockedQuery (now : Instant) (clientIp domain : Text) : Exec PyError AuditedEngine Unit :=
  onLog (EventLogStore.record now "dns_block" "query_sinkholed"
    (("Domain: " : Text) ++ domain ++ (" from " : Text) ++ clientIp))

def onFlowRecorded (now : Instant) (clientIp domain : Text) (qtype : Int) (action reason : Text) :
    Exec PyError AuditedEngine Unit := do
  let a ← Exec.get
  let sessId := if a.engine.session.isLocked then a.engine.session.sessionId else none
  onLog (EventLogStore.recordFlow rt now clientIp domain qtype action reason sessId none)

end AuditedEngine

/-! ## Steps -/

/-- What happens to an engine, or a callback of the DNS server. -/
inductive AuditEvent where
  | policy (ev : PolicyEvent)
  | blocked (now : Instant) (clientIp domain : Text)
  | flow (now : Instant) (clientIp domain : Text) (qtype : Int) (action reason : Text)

def AuditEvent.policy? : AuditEvent → Option PolicyEvent
  | .policy ev => some ev
  | _ => none

namespace AuditedEngine

/-- The call, less its result. -/
def run : Operation → Exec PyError AuditedEngine Unit
  | .addPermanentDomain domainInput includeCompanions =>
    addPermanentDomain rt env domainInput includeCompanions >>= fun _ => pure ()
  | .removePermanentDomain domainInput =>
    removePermanentDomain rt env domainInput >>= fun _ => pure ()
  | .blockPermanentService serviceId =>
    blockPermanentService rt env serviceId >>= fun _ => pure ()
  | .unblockPermanentService serviceId =>
    unblockPermanentService rt env serviceId >>= fun _ => pure ()
  | .startFocusSession durationStr untilStr domainsArg servicesArg includeCompanions =>
    startFocusSession rt env durationStr untilStr domainsArg servicesArg includeCompanions >>=
      fun _ => pure ()
  | .stopFocusSession => stopFocusSession rt env

/-- What is left after an event; `none` is a restart that does not come up. -/
def after (a : AuditedEngine) : AuditEvent → Option AuditedEngine
  | .policy (.call env op) => some (run rt env op a).2
  | .policy (.tick env) => some (tick rt env a).2
  | .policy (.restart env) =>
    match start rt env a.engine.stateManager.disk a.logStore with
    | .ok a' => some a'
    | .error _ => none
  | .blocked now clientIp domain => some (onBlockedQuery now clientIp domain a).2
  | .flow now clientIp domain qtype action reason =>
    some (onFlowRecorded rt now clientIp domain qtype action reason a).2

def Step (a : AuditedEngine) (ev : AuditEvent) (a' : AuditedEngine) : Prop :=
  a.after rt ev = some a'

end AuditedEngine

variable {rt : Runtime} {env : CallEnv} {a a' : AuditedEngine} {α : Type}

/-! ## The engine beside its log -/

/-- The database can hold the limits of the log. -/
def EventLogStore.Bounded (s : EventLogStore) : Prop := InRange s.maxEntries ∧ InRange s.maxFlows

theorem EventLogStore.Bounded.call {s : EventLogStore} (h : s.Bounded) (rt : Runtime)
    (c : LogCall) : (EventLogStore.call rt c s).2.Bounded := by
  cases c with
  | record now category action details =>
    rw [EventLogStore.call, EventLogStore.record_apply _ _ _ _ h.1]
    exact h
  | recordFlow now clientIp domain qtype action reason sessionId timestamp =>
    rw [EventLogStore.call]
    by_cases hq : InRange qtype
    · rw [EventLogStore.recordFlow_apply _ _ _ _ _ _ _ hq h.2]
      exact h
    · rw [EventLogStore.recordFlow_raises _ _ _ _ _ _ _ fun h' => hq h'.1]
      exact h
  | clear => exact h

/-- The category of what the engine itself records. -/
def OfEngine (category : Text) : Prop := category = "policy" ∨ category = "session"

/-- A property of logs that what the engine records does not change. -/
structure LogInvariant (I : EventLogStore → Prop) : Prop where
  bounded : ∀ s, I s → s.Bounded
  record : ∀ (now : Instant) (category action details : Text) s, OfEngine category → I s →
    I (EventLogStore.record now category action details s).2

theorem logInvariant_bounded : LogInvariant EventLogStore.Bounded where
  bounded _ hs := hs
  record now category action details s _ hs := by
    rw [EventLogStore.record_apply _ _ _ _ hs.1]
    exact hs

namespace AuditedEngine

variable {I : EventLogStore → Prop}

/-- `m` does what `m'` does on the engine, and keeps `I`, which holds of the log. -/
def Follows (I : EventLogStore → Prop) (m : Exec PyError AuditedEngine α)
    (m' : Exec PyError PolicyEngine α) : Prop :=
  Exec.SimulatesOn (fun a => I a.logStore) AuditedEngine.engine m m'

namespace Follows

theorem onEngine (m : Exec PyError PolicyEngine α) : Follows I (AuditedEngine.onEngine m) m :=
  fun _ hlog => ⟨rfl, hlog⟩

variable (hI : LogInvariant I)

include hI

theorem record {category : Text} (hcategory : OfEngine category) (action details : Text) :
    Follows I (AuditedEngine.record env category action details) (pure ()) := by
  rintro ⟨e, log⟩ hlog
  have hrecord := EventLogStore.record_apply (env.clock 4) category action details
    (hI.bounded log hlog).1
  have hkept := hI.record (env.clock 4) category action details log hcategory hlog
  rw [hrecord] at hkept
  simp only [AuditedEngine.record, onLog, Exec.focus_apply, hrecord]
  exact ⟨rfl, hkept⟩

theorem addPermanentDomain (domainInput : Json) (companions : Bool) :
    Follows I (AuditedEngine.addPermanentDomain rt env domainInput companions)
      (PolicyEngine.addPermanentDomain rt env domainInput companions) := by
  refine .bind (onEngine _) fun _ => .bind (.ofExcept _) fun norm => .get_bind fun a => ?_
  refine .bind (onEngine _) fun _ => .bind (onEngine _) fun _ => .bind (onEngine _) fun _ => ?_
  exact .silent_bind (record hI (.inl rfl) _ _) (.pure _)

theorem removePermanentDomain (domainInput : Json) :
    Follows I (AuditedEngine.removePermanentDomain rt env domainInput)
      (PolicyEngine.removePermanentDomain rt env domainInput) := by
  refine .bind (onEngine _) fun _ => .bind (.ofExcept _) fun norm => .get_bind fun a => ?_
  refine .ite (fun _ => ?_) fun _ => .throw _
  refine .bind (onEngine _) fun _ => .bind (onEngine _) fun _ => .bind (onEngine _) fun _ => ?_
  exact .silent_bind (record hI (.inl rfl) _ _) (.pure _)

theorem blockPermanentService (serviceId : Json) :
    Follows I (AuditedEngine.blockPermanentService rt env serviceId)
      (PolicyEngine.blockPermanentService rt env serviceId) := by
  refine .bind (onEngine _) fun _ => .bind (.ofExcept _) fun found => ?_
  cases found with
  | none => exact .throw _
  | some svc =>
    refine .get_bind fun a => .ite (fun _ => ?_) fun _ => .pure _
    refine .bind (onEngine _) fun _ => .bind (onEngine _) fun _ => .bind (onEngine _) fun _ => ?_
    exact .silent_bind (record hI (.inl rfl) _ _) (.pure _)

theorem unblockPermanentService (serviceId : Json) :
    Follows I (AuditedEngine.unblockPermanentService rt env serviceId)
      (PolicyEngine.unblockPermanentService rt env serviceId) := by
  refine .bind (onEngine _) fun _ => .bind (.ofExcept _) fun found => ?_
  cases found with
  | none => exact .throw _
  | some svc =>
    refine .get_bind fun a => .ite (fun _ => ?_) fun _ => .throw _
    refine .bind (onEngine _) fun _ => .bind (onEngine _) fun _ => .bind (onEngine _) fun _ => ?_
    exact .silent_bind (record hI (.inl rfl) _ _) (.pure _)

theorem startFocusSession (durationStr untilStr domainsArg servicesArg : Json) (companions : Bool) :
    Follows I (AuditedEngine.startFocusSession rt env durationStr untilStr domainsArg servicesArg
        companions)
      (PolicyEngine.startFocusSession rt env durationStr untilStr domainsArg servicesArg
        companions) := by
  refine .bind (.ofExcept _) fun expiry => .get_bind fun a => .bind (.ofExcept _) fun scope => ?_
  refine .ite (fun _ => .throw _) fun _ => ?_
  refine .bind (onEngine _) fun _ => .bind (onEngine _) fun _ => .bind (onEngine _) fun _ => ?_
  exact .silent_bind (record hI (.inr rfl) _ _) (.get_bind fun a => .ofExcept _)

theorem tick (env : CallEnv) :
    Follows I (AuditedEngine.tick rt env) (PolicyEngine.tick rt env) := by
  refine .bind (onEngine _) fun r => .ite (fun _ => ?_) fun _ => .pure _
  refine .bind (onEngine _) fun _ => .bind (onEngine _) fun _ => .bind (onEngine _) fun _ => ?_
  exact .silent_bind (record hI (.inr rfl) _ _) (.pure _)

theorem operation (env : CallEnv) (op : Operation) :
    Follows I (AuditedEngine.run rt env op) (op.run rt env) := by
  cases op with
  | addPermanentDomain domainInput companions =>
    exact .bind (addPermanentDomain hI _ _) fun _ => .pure _
  | removePermanentDomain domainInput => exact .bind (removePermanentDomain hI _) fun _ => .pure _
  | blockPermanentService serviceId => exact .bind (blockPermanentService hI _) fun _ => .pure _
  | unblockPermanentService serviceId => exact .bind (unblockPermanentService hI _) fun _ => .pure _
  | startFocusSession durationStr untilStr domainsArg servicesArg companions =>
    exact .bind (startFocusSession hI _ _ _ _ _) fun _ => .pure _
  | stopFocusSession => exact onEngine _

theorem recoverSession (env : CallEnv) :
    Follows I (AuditedEngine.recoverSession rt env) (PolicyEngine.recoverSession rt env) := by
  refine .get_bind fun a => .ite (fun _ => ?_) fun _ => .pure _
  refine .bind (onEngine _) fun r => .ite (fun _ => ?_) fun _ => ?_
  · have hsave : Follows I (AuditedEngine.onEngine (PolicyEngine.saveState rt env) >>= fun _ =>
        AuditedEngine.record env "session" "reboot_recovered_expired"
          "Session expired during or before reboot.")
        (PolicyEngine.saveState rt env >>= fun _ => pure ()) :=
      .bind (onEngine _) fun _ => record hI (.inr rfl) _ _
    rw [Exec.bind_pure_unit] at hsave
    exact .bind (onEngine _) fun _ => hsave
  · exact fun a hlog => record hI (.inr rfl) _ _ a hlog

theorem boot (env : CallEnv) :
    Follows I (AuditedEngine.boot rt env) (PolicyEngine.boot rt env) := by
  refine .get_bind fun a => .bind (onEngine _) fun _ => .bind (onEngine _) fun _ => ?_
  exact .bind (recoverSession hI env) fun _ => onEngine _

end Follows

/-- The constructor raises as it does without a log, or builds the same engine. -/
theorem start_follows (hI : LogInvariant I) (env : CallEnv) (disk : Disk)
    {logStore : EventLogStore} (hlog : I logStore) :
    startEngine rt env disk = (start rt env disk logStore).map AuditedEngine.engine ∧
      ∀ a ∈ (start rt env disk logStore).toOption, I a.logStore := by
  rw [startEngine_eq_create, start, init_eq]
  unfold PolicyEngine.create
  dsimp only
  rcases load rt env { disk := disk } with ⟨x | data, m⟩
  · exact ⟨rfl, fun a ha => by cases ha⟩
  · dsimp only
    obtain ⟨heq, hkept⟩ := Follows.boot hI env
      ⟨⟨bareSinkhole rt, m, data.1.config, data.1.session⟩, logStore⟩ hlog
    rw [heq]
    rcases hboot : boot rt env ⟨⟨bareSinkhole rt, m, data.1.config, data.1.session⟩, logStore⟩ with
      ⟨x | ⟨⟨⟩⟩, a⟩
    · exact ⟨rfl, fun a ha => by cases ha⟩
    · rw [hboot] at hkept
      refine ⟨rfl, fun a' ha' => ?_⟩
      obtain rfl : a = a' := Option.some.inj ha'
      exact hkept

theorem start_of_step (h : Step rt a (.policy (.restart env)) a') :
    start rt env a.engine.stateManager.disk a.logStore = .ok a' := by
  unfold Step after at h
  dsimp only at h
  split at h
  · next t hstart => rw [hstart, Option.some.inj h]
  · cases h

/-- What an event does to the engine, whatever is logged: nothing where it is a callback. -/
def EngineStep (rt : Runtime) (e : PolicyEngine) : AuditEvent → PolicyEngine → Prop
  | .policy ev, e' => PolicyEngine.Step rt e ev e'
  | .blocked _ _ _, e' | .flow _ _ _ _ _ _, e' => e' = e

/-- What the engine does is what it does without a log, and keeps the invariants of its log. -/
theorem Step.follows {ev : PolicyEvent} (hI : LogInvariant I) (hlog : I a.logStore)
    (h : Step rt a (.policy ev) a') :
    PolicyEngine.Step rt a.engine ev a'.engine ∧ I a'.logStore := by
  cases ev with
  | call env op =>
    have hfollows : Follows I (run rt env op) (op.run rt env) := .operation hI env op
    obtain ⟨heq, hkept⟩ := hfollows a hlog
    obtain rfl := Option.some.inj h
    exact ⟨congrArg some (congrArg Prod.snd heq), hkept⟩
  | tick env =>
    have hfollows : Follows I (tick rt env) (PolicyEngine.tick rt env) := .tick hI env
    obtain ⟨heq, hkept⟩ := hfollows a hlog
    obtain rfl := Option.some.inj h
    exact ⟨congrArg some (congrArg Prod.snd heq), hkept⟩
  | restart env =>
    have hstart := start_of_step h
    obtain ⟨heq, hkept⟩ := start_follows hI env a.engine.stateManager.disk hlog
    rw [hstart] at heq hkept
    refine ⟨?_, hkept a' rfl⟩
    simp only [PolicyEngine.Step, PolicyEngine.after, heq]
    rfl

/-- Recording changes nothing of what the engine does. -/
theorem Step.engine {ev : AuditEvent} (hlog : a.logStore.Bounded) (h : Step rt a ev a') :
    EngineStep rt a.engine ev a'.engine ∧ a'.logStore.Bounded := by
  cases ev with
  | policy ev => exact h.follows logInvariant_bounded hlog
  | blocked now clientIp domain =>
    obtain rfl := Option.some.inj h
    exact ⟨rfl, hlog.call rt (.record now _ _ _)⟩
  | flow now clientIp domain qtype action reason =>
    obtain rfl := Option.some.inj h
    exact ⟨rfl, hlog.call rt (.recordFlow now clientIp domain qtype action reason _ none)⟩

theorem run_engine {es : List AuditEvent} (hlog : a.logStore.Bounded) (h : Run (Step rt) a es a') :
    Run (PolicyEngine.Step rt) a.engine (es.filterMap AuditEvent.policy?) a'.engine ∧
      a'.logStore.Bounded := by
  induction h with
  | nil a => exact ⟨.nil a.engine, hlog⟩
  | @cons a b a' ev es hstep _ ih =>
    obtain ⟨hengine, hb⟩ := hstep.engine hlog
    obtain ⟨hrest, hbounded⟩ := ih hb
    cases ev with
    | policy ev => exact ⟨.cons hengine hrest, hbounded⟩
    | blocked | flow =>
      exact ⟨(show b.engine = a.engine from hengine) ▸ hrest, hbounded⟩

end AuditedEngine

end FocusGuard

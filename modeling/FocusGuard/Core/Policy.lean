import FocusGuard.Core.Services
import FocusGuard.Core.Session
import FocusGuard.Dns.Sinkhole
import FocusGuard.Network.Bypass

/-!
# The policy engine

`focusguard/core/policy.py`: permanent rules, focus sessions, persistence and the sinkhole.
Each operation is a program over the engine's state that may raise; what it changed before
it raised stays changed. The event log is not modelled.
-/

namespace FocusGuard

open Calendar

structure PolicyEngine where
  sinkhole : DomainSinkhole
  stateManager : StateManager
  config : AppConfig
  session : SessionState

variable (rt : Runtime) (env : CallEnv)

namespace PolicyEngine

def onSession {α : Type} (m : Exec PyError SessionState α) : Exec PyError PolicyEngine α :=
  Exec.focus PolicyEngine.session (fun t e => { e with session := t }) m

def onSinkhole {α : Type} (m : Exec PyError DomainSinkhole α) : Exec PyError PolicyEngine α :=
  Exec.focus PolicyEngine.sinkhole (fun t e => { e with sinkhole := t }) m

def onStore {α : Type} (m : Exec PyError StateManager α) : Exec PyError PolicyEngine α :=
  Exec.focus PolicyEngine.stateManager (fun t e => { e with stateManager := t }) m

/-- The domains that the permanent configuration blocks. -/
def permanentlyBlocked (config : AppConfig) : List Text :=
  config.permanentDomains ++ getAllDomainsForServices rt config.permanentServices ++
    (if config.blockVpns then getAllVpnDomains else []) ++
    (if config.blockDoh then getAllDohDomains else [])

/-- The domains that a session adds while it is locked. -/
def sessionBlocked (session : SessionState) : List Text :=
  if session.isLocked then
    session.sessionDomains ++ getAllDomainsForServices rt session.sessionServices
  else []

/-- `_get_all_active_blocked_domains()`. -/
def getAllActiveBlockedDomains (config : AppConfig) (session : SessionState) : List Text :=
  Text.sorted (permanentlyBlocked rt config ++ sessionBlocked rt session)

/-- `_refresh_sinkhole()`. -/
def refreshSinkhole : Exec PyError PolicyEngine Unit := do
  let e ← Exec.get
  onSinkhole (DomainSinkhole.setBlockedDomains rt
    (getAllActiveBlockedDomains rt e.config e.session))

/-- `_save_state()`. -/
def saveState : Exec PyError PolicyEngine Unit := do
  let e ← Exec.get
  onStore (save rt env { config := e.config, session := e.session })

def setConfig (f : AppConfig → AppConfig) : Exec PyError PolicyEngine Unit :=
  Exec.modify fun e => { e with config := f e.config }

/-! ## Construction -/

/-- The reboot recovery of the constructor: a session that expired meanwhile is released. -/
def recoverSession : Exec PyError PolicyEngine Unit := do
  let e ← Exec.get
  if e.session.isLocked then
    let r ← onSession (checkExpiration rt (env.clock 0))
    if r.1 then
      onSession releaseExpired
      saveState rt env
    else pure ()
  else pure ()

/-- The constructor after the state has been loaded. -/
def boot : Exec PyError PolicyEngine Unit := do
  let e ← Exec.get
  onSinkhole (Exec.modify fun s =>
    { s with blockDoh := e.config.blockDoh, allowlistMode := e.config.allowlistMode })
  onSinkhole (DomainSinkhole.setAllowedDomains rt e.config.allowedDomains)
  recoverSession rt env
  refreshSinkhole rt

/-- `PolicyEngine(sinkhole, state_manager)`. When it raises, the directory it worked on
stays as it left it. -/
def create (sinkhole : DomainSinkhole) : Exec PyError StateManager PolicyEngine := fun m =>
  match load rt env m with
  | (.error e, m) => (.error e, m)
  | (.ok data, m) =>
    match boot rt env ⟨sinkhole, m, data.1.config, data.1.session⟩ with
    | (.error x, e) => (.error x, e.stateManager)
    | (.ok (), e) => (.ok e, e.stateManager)

/-! ## Permanent rules -/

/-- Append the domains that are missing, and say which ones these were. -/
def appendMissing (l : List Text) : List Text → List Text × List Text
  | [] => (l, [])
  | d :: rest =>
    if d ∈ l then appendMissing l rest
    else
      let r := appendMissing (l ++ [d]) rest
      (r.1, d :: r.2)

def addPermanentDomain (domainInput : Json) (includeCompanions : Bool) :
    Exec PyError PolicyEngine (List Text) := do
  onSession (assertNotLocked rt env.clock)
  let normalized ← Exec.ofExcept (normalizeDomain rt domainInput)
  let e ← Exec.get
  let r := appendMissing e.config.permanentDomains
    (normalized :: if includeCompanions then getCompanionDomains rt normalized else [])
  setConfig fun c => { c with permanentDomains := r.1 }
  refreshSinkhole rt
  saveState rt env
  pure (if r.2 = [] then [normalized] else r.2)

def removePermanentDomain (domainInput : Json) : Exec PyError PolicyEngine Text := do
  onSession (assertNotLocked rt env.clock)
  let normalized ← Exec.ofExcept (normalizeDomain rt domainInput)
  let e ← Exec.get
  if normalized ∈ e.config.permanentDomains then
    setConfig fun c => { c with permanentDomains := c.permanentDomains.erase normalized }
    refreshSinkhole rt
    saveState rt env
    pure normalized
  else
    Exec.throw (.valueError (quoted "Domain '" normalized "' is not in permanent blocklist."))

/-- `get_service(service_id)` for any value; only texts can be stripped. -/
def lookupService (serviceId : Json) : Except PyError (Option ServiceDefinition) :=
  match serviceId with
  | .str t => .ok (getService rt t)
  | _ => .error .attributeError

def blockPermanentService (serviceId : Json) :
    Exec PyError PolicyEngine (List (Text × Json)) := do
  onSession (assertNotLocked rt env.clock)
  let found ← Exec.ofExcept (lookupService rt serviceId)
  match found with
  | none =>
    Exec.throw (.valueError (quoted "Unknown service '" (serviceId.text?.getD [])
      "'. Run 'focusguard services' to view available services."))
  | some svc =>
    let e ← Exec.get
    if svc.id ∉ e.config.permanentServices then
      setConfig fun c => { c with permanentServices := c.permanentServices ++ [svc.id] }
      refreshSinkhole rt
      saveState rt env
      pure svc.toDict
    else pure svc.toDict

def unblockPermanentService (serviceId : Json) : Exec PyError PolicyEngine Text := do
  onSession (assertNotLocked rt env.clock)
  let found ← Exec.ofExcept (lookupService rt serviceId)
  match found with
  | none =>
    Exec.throw (.valueError (quoted "Unknown service '" (serviceId.text?.getD []) "'."))
  | some svc =>
    let e ← Exec.get
    if svc.id ∈ e.config.permanentServices then
      setConfig fun c => { c with permanentServices := c.permanentServices.erase svc.id }
      refreshSinkhole rt
      saveState rt env
      pure svc.name
    else
      Exec.throw (.valueError (quoted "Service '" svc.name
        "' is not currently in permanent blocklist."))

/-! ## Sessions -/

/-- The end of the session and its duration in seconds. -/
def sessionEnd (durationStr untilStr : Json) (now : Instant) : Except PyError (Instant × Int) :=
  if untilStr.truthy then
    match untilStr with
    | .str t =>
      match parseUntilToUtc rt t now (env.clock 1) (env.clock 2) with
      | .error e => .error e
      | .ok expiresAt => .ok (expiresAt, (expiresAt.micros - now.micros).tdiv 1000000)
    | _ => .error .attributeError
  else if durationStr.truthy then
    match durationStr with
    | .str t =>
      match parseDurationToSeconds rt t with
      | .error e => .error e
      | .ok seconds =>
        match addSeconds now seconds with
        | .error e => .error e
        | .ok expiresAt => .ok (expiresAt, seconds)
    | _ => .error .attributeError
  else
    .error (.valueError "Must specify either duration (e.g. '2h') or end time (e.g. '23:30').")

/-- The services a request names; unknown ones are skipped. -/
def customServices : List Json → Except PyError (List ServiceDefinition)
  | [] => .ok []
  | s :: rest =>
    match lookupService rt s with
    | .error e => .error e
    | .ok found =>
      match customServices rest with
      | .error e => .error e
      | .ok l => .ok (found.toList ++ l)

/-- The domains a request names, with companions; invalid ones are skipped. -/
def customDomains (includeCompanions : Bool) : List Json → Except PyError (List Text)
  | [] => .ok []
  | d :: rest =>
    match normalizeDomain rt d with
    | .error (.invalidDomain _) => customDomains includeCompanions rest
    | .error e => .error e
    | .ok norm =>
      match customDomains includeCompanions rest with
      | .error e => .error e
      | .ok l =>
        .ok (norm :: (if includeCompanions then getCompanionDomains rt norm else []) ++ l)

/-- The values a `for` loop visits, where the argument is given at all. -/
def loopOver (arg : Json) : Except PyError (List Json) :=
  if arg.truthy then
    match arg.elements? with
    | some l => .ok l
    | none => .error .typeError
  else .ok []

/-- The domains and services of a new session, each as a set. -/
def sessionScope (config : AppConfig) (domainsArg servicesArg : Json)
    (includeCompanions : Bool) : Except PyError (List Text × List Text) := do
  let services ← customServices rt (← loopOver servicesArg)
  let domains ← customDomains rt includeCompanions (← loopOver domainsArg)
  if ¬ domainsArg.truthy ∧ ¬ servicesArg.truthy then
    .ok (config.permanentDomains ++ getAllDomainsForServices rt config.permanentServices,
      config.permanentServices)
  else
    .ok (services.flatMap ServiceDefinition.allDomains ++ domains,
      services.map ServiceDefinition.id)

def startFocusSession (durationStr untilStr domainsArg servicesArg : Json)
    (includeCompanions : Bool) : Exec PyError PolicyEngine (List (Text × Json)) := do
  let now := env.clock 0
  let expiry ← Exec.ofExcept (sessionEnd rt env durationStr untilStr now)
  let e ← Exec.get
  let scope ← Exec.ofExcept (sessionScope rt e.config domainsArg servicesArg includeCompanions)
  if scope.1 = [] then
    Exec.throw (.valueError "No valid domains or services specified for focus session.")
  else
    onSession (startSession rt env expiry.1 expiry.2 (Text.sorted scope.1)
      (Text.sorted scope.2) now)
    refreshSinkhole rt
    saveState rt env
    let e ← Exec.get
    Exec.ofExcept (getSummary rt e.session (env.clock 3))

/-- `stop_focus_session()`. -/
def stopFocusSession : Exec PyError PolicyEngine Unit :=
  onSession (assertNotLocked rt env.clock)

/-- `tick()`: whether the session completed on this tick. -/
def tick : Exec PyError PolicyEngine Bool := do
  let r ← onSession (checkExpiration rt (env.clock 0))
  if r.1 then
    onSession releaseExpired
    refreshSinkhole rt
    saveState rt env
    pure true
  else pure false

/-! ## Queries -/

/-- The services in force: permanent ones, and the session's while it is locked. -/
def activeServices (e : PolicyEngine) : List Text :=
  (e.config.permanentServices ++
    if e.session.isLocked then e.session.sessionServices else []).dedup

def getServicesStatus (e : PolicyEngine) : Json :=
  .arr (serviceRegistry.map fun svc => .obj (svc.toDict ++ ([
    ("is_blocked", .bool (svc.id ∈ activeServices e)),
    ("is_session_scoped", .bool (e.session.isLocked ∧ svc.id ∈ e.session.sessionServices))] :
      List (Text × Json))))

/-- The truth value of a pair, which like every non-empty tuple is true. -/
def tupleTruth {α β : Type} (_ : α × β) : Bool := true

/-- `evaluate_domain(domain)`: the action and its reason. -/
def evaluateDomain (e : PolicyEngine) (domain : Text) : Text × Text :=
  let sinkholeStep : Text × Text :=
    let isBlocked := e.sinkhole.isBlocked rt domain
    if tupleTruth isBlocked then
      match matchServiceByDomain rt domain with
      | some svcName => ("BLOCKED", ("Service: " : Text) ++ svcName)
      | none => ("BLOCKED", "Policy Rule")
    else ("ALLOWED", "No active rule matched")
  match identifyBypassAttempt rt domain with
  | some (bType, provider) =>
    if (bType = ("DoH Bypass" : Text) ∧ e.config.blockDoh) ∨
        (bType = ("VPN Bypass" : Text) ∧ e.config.blockVpns) then
      ("BLOCKED", bType ++ (": " : Text) ++ provider)
    else sinkholeStep
  | none => sinkholeStep

/-- `get_status()`, with the report of the bypass manager. -/
def getStatus (bypassStatus : Json) (now : Instant) (e : PolicyEngine) :
    Except PyError (List (Text × Json)) :=
  match getSummary rt e.session now with
  | .error x => .error x
  | .ok sessionInfo => .ok [
      ("session", .obj sessionInfo),
      ("policy", .obj [
        ("permanent_domains", .ofTexts e.config.permanentDomains),
        ("permanent_count", .int e.config.permanentDomains.length),
        ("permanent_services", .ofTexts e.config.permanentServices),
        ("active_services", .ofTexts (activeServices e)),
        ("active_blocked_count",
          .int (getAllActiveBlockedDomains rt e.config e.session).length),
        ("allowlist_mode", .bool e.config.allowlistMode),
        ("block_doh", .bool e.config.blockDoh),
        ("block_vpns", .bool e.config.blockVpns)]),
      ("dns", .obj [
        ("port", .int e.config.dnsPort),
        ("upstreams", .arr (e.config.upstreams.map .arr))]),
      ("bypass", bypassStatus)]

end PolicyEngine

end FocusGuard

import FocusGuard.Core.Policy
import FocusGuard.Storage.RawState

/-!
# The engine on loaded state

The constructor, the heartbeat and the status report on records whose members may be any JSON
values, where every write succeeds. What the code does to a member it does to any value: it loops,
hashes, sorts, measures or parses it, and raises where Python would. A flag counts as its truth
value.
-/

namespace FocusGuard

open Calendar

structure RawEngine where
  sinkhole : DomainSinkhole
  config : RawConfig
  session : RawSession

variable (rt : Runtime)

/-- A `TypeError` where Python has no result. -/
def orTypeError {α : Type} : Option α → Except PyError α
  | some a => .ok a
  | none => .error .typeError

@[simp] theorem orTypeError_some {α : Type} (a : α) : orTypeError (some a) = .ok a := rfl

@[simp] theorem orTypeError_none {α : Type} : orTypeError (none : Option α) = .error .typeError := rfl

namespace RawSession

def isLocked (s : RawSession) : Bool := s.status.text? = some ("LOCKED" : Text)

/-- `datetime.fromisoformat(value)`, as far as it can be compared with a reading. -/
def aware (value : Json) : Except PyError Int :=
  match value with
  | .str t => awareMicros rt t
  | _ => .error .typeError

def getRemainingSeconds (s : RawSession) (now : Instant) : Except PyError Int :=
  if ¬ s.isLocked ∨ ¬ s.expiresAtUtc.truthy then .ok 0
  else
    match aware rt s.expiresAtUtc with
    | .error e => .error e
    | .ok expiresAt => .ok (max 0 (expiresAt - now.micros))

def rolledBack (s : RawSession) (now : Instant) : Except PyError Bool :=
  if ¬ s.createdAtUtc.truthy then .ok false
  else
    match aware rt s.createdAtUtc with
    | .error e => .error e
    | .ok createdAt => .ok (now.micros < createdAt)

/-- `self.state.expires_at_utc or ""`. -/
def expiresOrEmpty (s : RawSession) : Json :=
  if s.expiresAtUtc.truthy then s.expiresAtUtc else .str []

def checkExpiration (now : Instant) : Exec PyError RawSession (Bool × Text) := fun s =>
  if ¬ s.isLocked then (.ok (false, "Not locked"), s)
  else
    match s.rolledBack rt now with
    | .error e => (.error e, s)
    | .ok true => (.ok (false, "Clock rollback detected: remaining in locked mode."), s)
    | .ok false =>
      match aware rt s.expiresOrEmpty with
      | .error e => (.error e, s)
      | .ok expiresAt =>
        if expiresAt ≤ now.micros then
          (.ok (true, "Focus session reached expiration time and completed successfully."),
            { s with status := .str "EXPIRED" })
        else (.ok (false, "Session still active"), s)

def releaseExpired : Exec PyError RawSession Unit := Exec.modify fun _ => {}

def getSummary (s : RawSession) (now : Instant) : Except PyError (List (Text × Json)) := do
  let rem ← s.getRemainingSeconds rt now
  let domainCount ← orTypeError s.sessionDomains.len?
  let serviceCount ← orTypeError s.sessionServices.len?
  .ok [
    ("status", s.status),
    ("session_id", s.sessionId),
    ("created_at", s.createdAtUtc),
    ("expires_at", s.expiresAtUtc),
    ("duration_seconds", s.durationSeconds),
    ("remaining_seconds", .int (rem / 1000000)),
    ("remaining_formatted", .str (formatRemainingSeconds rem)),
    ("domains", s.sessionDomains),
    ("domain_count", .int domainCount),
    ("services", s.sessionServices),
    ("service_count", .int serviceCount)]

end RawSession

namespace RawEngine

def onSession {α : Type} (m : Exec PyError RawSession α) : Exec PyError RawEngine α :=
  Exec.focus RawEngine.session (fun t e => { e with session := t }) m

def onSinkhole {α : Type} (m : Exec PyError DomainSinkhole α) : Exec PyError RawEngine α :=
  Exec.focus RawEngine.sinkhole (fun t e => { e with sinkhole := t }) m

/-- `get_all_domains_for_services(x)`, where `x` is not false: only texts can be stripped. -/
def domainsOfServices (x : Json) : Except PyError (List Text) :=
  if x.truthy then
    match x.elements? with
    | none => .error .typeError
    | some l =>
      match l.mapM Json.text? with
      | none => .error .attributeError
      | some ids => .ok (getAllDomainsForServices rt ids)
  else .ok []

/-- The domains that the bypass lists add. -/
def bypassDomains (config : RawConfig) : List Text :=
  (if config.blockVpns.truthy then getAllVpnDomains else []) ++
    (if config.blockDoh.truthy then getAllDohDomains else [])

def permanentlyBlocked (config : RawConfig) : Except PyError (List Scalar) := do
  let domains ← orTypeError config.permanentDomains.set?
  let services ← domainsOfServices rt config.permanentServices
  .ok (domains ++ (services ++ bypassDomains config).map .str)

def sessionBlocked (session : RawSession) : Except PyError (List Scalar) :=
  if session.isLocked then do
    let domains ← orTypeError session.sessionDomains.set?
    let services ← domainsOfServices rt session.sessionServices
    .ok (domains ++ services.map .str)
  else .ok []

def getAllActiveBlockedDomains (config : RawConfig) (session : RawSession) :
    Except PyError (List Scalar) := do
  let permanent ← permanentlyBlocked rt config
  let ofSession ← sessionBlocked rt session
  orTypeError (Scalar.sorted? (permanent ++ ofSession))

/-- A value that is no text is not normalized, and `_add_rule` skips it. -/
def refreshSinkhole : Exec PyError RawEngine Unit := do
  let e ← Exec.get
  let active ← Exec.ofExcept (getAllActiveBlockedDomains rt e.config e.session)
  onSinkhole (DomainSinkhole.setBlockedDomains rt (active.filterMap Scalar.text?))

def recoverSession (now : Instant) : Exec PyError RawEngine Unit := do
  let e ← Exec.get
  if e.session.isLocked then
    let r ← onSession (RawSession.checkExpiration rt now)
    if r.1 then onSession RawSession.releaseExpired
    else pure ()
  else pure ()

def boot (now : Instant) : Exec PyError RawEngine Unit := do
  let e ← Exec.get
  onSinkhole (Exec.modify fun s =>
    { s with blockDoh := e.config.blockDoh.truthy, allowlistMode := e.config.allowlistMode.truthy })
  let allowed ← Exec.ofExcept (orTypeError e.config.allowedDomains.elements?)
  onSinkhole (DomainSinkhole.setAllowedDomains rt (allowed.filterMap Json.text?))
  recoverSession rt now
  refreshSinkhole rt

/-- A new `StateManager`, `DomainSinkhole` and `PolicyEngine` on a state file. -/
def start (now : Instant) (content : FileContent) : Except PyError RawEngine :=
  match DomainSinkhole.init rt true with
  | .error x => .error x
  | .ok sinkhole =>
    match boot rt now ⟨sinkhole, (loadRaw content).1, (loadRaw content).2⟩ with
    | (.error x, _) => .error x
    | (.ok (), e) => .ok e

def tick (now : Instant) : Exec PyError RawEngine Bool := do
  let r ← onSession (RawSession.checkExpiration rt now)
  if r.1 then
    onSession RawSession.releaseExpired
    refreshSinkhole rt
    pure true
  else pure false

def servicesOfSession (session : RawSession) : Except PyError (List Text) :=
  if session.isLocked then orTypeError session.sessionServices.names? else .ok []

/-- `get_status()`. The services are texts by then: `getAllActiveBlockedDomains` has looked them
up. -/
def getStatus (bypassStatus : Json) (now : Instant) (e : RawEngine) :
    Except PyError (List (Text × Json)) := do
  let active ← getAllActiveBlockedDomains rt e.config e.session
  let sessionInfo ← e.session.getSummary rt now
  let services ← orTypeError e.config.permanentServices.names?
  let ofSession ← servicesOfSession e.session
  let permanent ← orTypeError e.config.permanentDomains.elements?
  .ok [
    ("session", .obj sessionInfo),
    ("policy", .obj [
      ("permanent_domains", .arr permanent),
      ("permanent_count", .int permanent.length),
      ("permanent_services", .ofTexts services),
      ("active_services", .ofTexts (services ++ ofSession).dedup),
      ("active_blocked_count", .int active.length),
      ("allowlist_mode", e.config.allowlistMode),
      ("block_doh", e.config.blockDoh),
      ("block_vpns", e.config.blockVpns)]),
    ("dns", .obj [
      ("port", e.config.dnsPort),
      ("upstreams", e.config.upstreams)]),
    ("bypass", bypassStatus)]

end RawEngine

end FocusGuard

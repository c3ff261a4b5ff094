import FocusGuard.Core.Policy

/-!
# The IPC dispatcher

`IPCServer.handle_request` of `focusguard/service/ipc_server.py`. What the read-only
collaborators (device tracker, log store, diagnostics, packet monitor, `iptables` queries)
answer is part of the environment of the request; the calls that change the firewall are
recorded.
-/

namespace FocusGuard

open Calendar

/-- The calls on `NetworkGatewayManager` that change the firewall. -/
inductive GatewayCall where
  | enableTransparentRedirection
  | disableTransparentRedirection
  deriving DecidableEq

/-- The running daemon: the engine, and the gateway calls made so far, the latest last. -/
structure Daemon where
  engine : PolicyEngine
  gatewayCalls : List GatewayCall := []

/-- The actions of the protocol. -/
inductive Action where
  | ping | status | add | remove | list | start | stop | session | servicesList | serviceBlock
  | serviceUnblock | devicesList | bypassStatus | logs | stats | doctor | gatewayStatus
  | gatewayEnable | gatewayDisable | packetStatus | packetStats | packetInspect
  deriving DecidableEq

def Action.table : List (Text × Action) := [
  ("ping", .ping), ("status", .status), ("add", .add), ("remove", .remove), ("list", .list),
  ("start", .start), ("stop", .stop), ("session", .session), ("services_list", .servicesList),
  ("service_block", .serviceBlock), ("service_unblock", .serviceUnblock),
  ("devices_list", .devicesList), ("bypass_status", .bypassStatus), ("logs", .logs),
  ("stats", .stats), ("doctor", .doctor), ("gateway_status", .gatewayStatus),
  ("gateway_enable", .gatewayEnable), ("gateway_disable", .gatewayDisable),
  ("packet_status", .packetStatus), ("packet_stats", .packetStats),
  ("packet_inspect", .packetInspect)]

def Action.ofText (t : Text) : Option Action :=
  (Action.table.find? fun entry => entry.1 = t).map Prod.snd

/-- The environment of one request. -/
structure RequestEnv extends CallEnv where
  hasGateway : Bool
  gatewayStatus : Except PyError Json
  /-- `None` without a packet monitor. -/
  packetStatus : Option (Except PyError Json)
  bypassStatus : Json
  enableResult : Bool × Text
  disableResult : Bool × Text
  /-- The answer of a read-only collaborator to an action with these parameters. -/
  collaborator : Action → Json → Except PyError Json

variable (rt : Runtime) (env : RequestEnv)

/-- `params.get(key, default)`, which only a dictionary has. -/
def param (params : Json) (key : Text) (default : Json) : Except PyError Json :=
  match params with
  | .obj m => .ok ((Json.lookup m key).getD default)
  | _ => .error .attributeError

def okReply (result : Json) : Json := .obj [("ok", .bool true), ("result", result)]

def gatewayReply (r : Bool × Text) : Json := .obj [
  ("ok", .bool r.1), ("result", .str r.2), ("error", if r.1 then .null else .str r.2)]

def gatewayMissing : Json :=
  .obj [("ok", .bool false), ("error", .str "Gateway manager not initialized.")]

/-- The reply to a request that raised. -/
def errorReply (e : PyError) : Json :=
  match e with
  | .lockedSession _ _ =>
    .obj [("ok", .bool false), ("error", .str (e.message rt)), ("is_locked", .bool true)]
  | _ => .obj [("ok", .bool false), ("error", .str (e.message rt))]

namespace IPCServer

def onEngine {α : Type} (m : Exec PyError PolicyEngine α) : Exec PyError Daemon α :=
  Exec.focus Daemon.engine (fun t d => { d with engine := t }) m

def recordCall (call : GatewayCall) : Exec PyError Daemon Unit :=
  Exec.modify fun d => { d with gatewayCalls := d.gatewayCalls ++ [call] }

/-- What the gateway manager adds to a `status` reply, where there is one. -/
def gatewayMembers : Except PyError (List (Text × Json)) :=
  if env.hasGateway then env.gatewayStatus.map fun j => [("gateway", j)] else .ok []

/-- What the packet monitor adds. -/
def packetMembers : Except PyError (List (Text × Json)) :=
  match env.packetStatus with
  | none => .ok []
  | some r => r.map fun j => [("packet_monitor", j)]

/-- The members of a `status` reply. -/
def statusMembers (e : PolicyEngine) : Except PyError (List (Text × Json)) := do
  let status ← e.getStatus rt env.bypassStatus (env.clock 0)
  let gateway ← gatewayMembers env
  let packets ← packetMembers env
  .ok (status ++ gateway ++ packets)

/-- The reply to `list`. -/
def listMembers (e : PolicyEngine) : Except PyError (List (Text × Json)) :=
  match e.getStatus rt env.bypassStatus (env.clock 0) with
  | .error x => .error x
  | .ok _ => .ok [
      ("permanent_domains", .ofTexts e.config.permanentDomains),
      ("session_domains", .ofTexts e.session.sessionDomains),
      ("is_locked", .bool e.session.isLocked)]

/-- The branch of `handle_request` for each action. -/
def dispatch (params : Json) : Action → Exec PyError Daemon Json
  | .ping => pure (okReply (.str "pong"))
  | .status => do
    let d ← Exec.get
    let m ← Exec.ofExcept (statusMembers rt env d.engine)
    pure (okReply (.obj m))
  | .add => do
    let domain ← Exec.ofExcept (param params "domain" (.str []))
    let companions ← Exec.ofExcept (param params "include_companions" (.bool true))
    let added ← onEngine
      (PolicyEngine.addPermanentDomain rt env.toCallEnv domain companions.truthy)
    pure (okReply (.obj [("added", .ofTexts added)]))
  | .remove => do
    let domain ← Exec.ofExcept (param params "domain" (.str []))
    let removed ← onEngine (PolicyEngine.removePermanentDomain rt env.toCallEnv domain)
    pure (okReply (.obj [("removed", .str removed)]))
  | .list => do
    let d ← Exec.get
    let m ← Exec.ofExcept (listMembers rt env d.engine)
    pure (okReply (.obj m))
  | .start => do
    let duration ← Exec.ofExcept (param params "duration" .null)
    let until' ← Exec.ofExcept (param params "until" .null)
    let domains ← Exec.ofExcept (param params "domains" .null)
    let services ← Exec.ofExcept (param params "services" .null)
    let companions ← Exec.ofExcept (param params "include_companions" (.bool true))
    let summary ← onEngine (PolicyEngine.startFocusSession rt env.toCallEnv duration until'
      domains services companions.truthy)
    pure (okReply (.obj summary))
  | .stop => do
    onEngine (PolicyEngine.stopFocusSession rt env.toCallEnv)
    pure (okReply (.str "Session stopped."))
  | .session => do
    let d ← Exec.get
    let m ← Exec.ofExcept (getSummary rt d.engine.session (env.clock 0))
    pure (okReply (.obj m))
  | .servicesList => do
    let d ← Exec.get
    pure (okReply d.engine.getServicesStatus)
  | .serviceBlock => do
    let service ← Exec.ofExcept (param params "service" (.str []))
    let res ← onEngine (PolicyEngine.blockPermanentService rt env.toCallEnv service)
    pure (okReply (.obj res))
  | .serviceUnblock => do
    let service ← Exec.ofExcept (param params "service" (.str []))
    let res ← onEngine (PolicyEngine.unblockPermanentService rt env.toCallEnv service)
    pure (okReply (.str res))
  | .gatewayEnable =>
    if env.hasGateway then do
      recordCall .enableTransparentRedirection
      pure (gatewayReply env.enableResult)
    else pure gatewayMissing
  | .gatewayDisable => do
    onEngine (PolicyEngine.onSession (assertNotLocked rt env.clock))
    if env.hasGateway then
      recordCall .disableTransparentRedirection
      pure (gatewayReply env.disableResult)
    else pure gatewayMissing
  | action => do
    let r ← Exec.ofExcept (env.collaborator action params)
    pure (okReply r)

/-- `handle_request(request_dict)`: every exception of a branch becomes a reply; only a
request that is not a dictionary raises. -/
def handleRequest (request : Json) : Exec PyError Daemon Json := fun d =>
  match request with
  | .obj m =>
    let action := (Json.lookup m "action").getD (.str [])
    let params := (Json.lookup m "params").getD (.obj [])
    match action.text?.bind Action.ofText with
    | none =>
      (.ok (.obj [("ok", .bool false),
        ("error", .str (quoted "Unknown action '" (rt.str action) "'"))]), d)
    | some a =>
      match dispatch rt env params a d with
      | (.ok r, d) => (.ok r, d)
      | (.error e, d) => (.ok (errorReply rt e), d)
  | _ => (.error .attributeError, d)

end IPCServer

end FocusGuard

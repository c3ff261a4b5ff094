import FocusGuard.Service.LockSafety

/-!
# `focusguard gateway disable`

The branch of `cmd_gateway` in `focusguard/cli/main.py`, with `send_command` of
`focusguard/cli/client.py`. A root caller changes the firewall in the process of the command,
any other caller asks the daemon. Whether the session is locked is looked up under a key that
no status reply has.
-/

namespace FocusGuard

open PolicyEngine IPCServer

variable (rt : Runtime)

/-- How a command ends early. -/
inductive CliError where
  | daemonError (message : Json)
  | systemExit (code : Int)
  | attributeError

/-- The daemon, and the firewall calls made in the process of the command. -/
structure CommandState where
  daemon : Daemon
  localCalls : List GatewayCall := []

/-- `send_command(action)`: the result of the reply, or a `DaemonError`. -/
def sendCommand (env : RequestEnv) (action : Text) : Exec CliError CommandState Json := fun s =>
  match handleRequest rt env (.obj [("action", .str action), ("params", .obj [])]) s.daemon with
  | (.ok (.obj reply), d) =>
    if ((Json.lookup reply "ok").getD .null).truthy then
      (.ok ((Json.lookup reply "result").getD .null), { s with daemon := d })
    else
      (.error (.daemonError ((Json.lookup reply "error").getD (.str "Unknown error"))),
        { s with daemon := d })
  | (_, d) => (.error .attributeError, { s with daemon := d })

/-- `getattr(e, "is_locked", False)`: a `DaemonError` has no such attribute. -/
def hasLockedFlag (_ : CliError) : Bool := false

/-- `status.get("session_status") == "LOCKED"`. -/
def reportsLocked (status : Json) : Except CliError Bool :=
  match status with
  | .obj m =>
    .ok (match Json.lookup m "session_status" with
      | some (.str t) => t = ("LOCKED" : Text)
      | _ => false)
  | _ => .error .attributeError

/-- The check in front of the change: it exits when it sees a lock, and goes on when the
daemon answers with an error. -/
def refuseWhenLocked (env : RequestEnv) : Exec CliError CommandState Unit :=
  Exec.tryCatch
    (do
      let status ← sendCommand rt env "status"
      let locked ← Exec.ofExcept (reportsLocked status)
      if locked then Exec.throw (.systemExit 2) else pure ())
    fun e => match e with
      | .daemonError _ => if hasLockedFlag e then Exec.throw (.systemExit 2) else pure ()
      | _ => Exec.throw e

/-- `hasattr(os, "geteuid") and os.geteuid() == 0`. -/
def isRoot (euid : Option Nat) : Bool := euid = some 0

/-- `cmd_gateway(client, args)` for the action `disable`. The two requests of a command take
readings of their own; `localResult` is what the firewall change in this process returns. -/
def cmdGatewayDisable (statusEnv disableEnv : RequestEnv) (euid : Option Nat)
    (localResult : Bool × Text) : Exec CliError CommandState Unit := do
  refuseWhenLocked rt statusEnv
  if isRoot euid then
    Exec.modify fun s => { s with localCalls := s.localCalls ++ [.disableTransparentRedirection] }
    if localResult.1 then pure () else Exec.throw (.daemonError (.str localResult.2))
  else
    let _ ← sendCommand rt disableEnv "gateway_disable"
    pure ()

/-- Between the two states the redirection was disabled, by the command or by the daemon. -/
def DisableExecuted (s s' : CommandState) : Prop :=
  s.localCalls.count .disableTransparentRedirection <
      s'.localCalls.count .disableTransparentRedirection ∨
    s.daemon.gatewayCalls.count .disableTransparentRedirection <
      s'.daemon.gatewayCalls.count .disableTransparentRedirection

variable {rt} {env : RequestEnv} {s : CommandState} {u : Int}

/-! ## The status request -/

/-- The keys of a status reply. -/
def statusKeys : List Text := ["session", "policy", "dns", "bypass", "gateway", "packet_monitor"]

theorem getStatus_keys {bypassStatus : Json} {now : Calendar.Instant} {e : PolicyEngine}
    {members : List (Text × Json)} (h : e.getStatus rt bypassStatus now = .ok members) :
    ∀ m ∈ members, m.1 ∈ statusKeys := by
  unfold getStatus at h
  split at h
  · cases h
  · cases h
    simp [statusKeys]

theorem gatewayMembers_keys {members : List (Text × Json)} (h : gatewayMembers env = .ok members) :
    ∀ m ∈ members, m.1 ∈ statusKeys := by
  unfold gatewayMembers at h
  split at h
  · cases hg : env.gatewayStatus with
    | error x =>
      rw [hg] at h
      cases h
    | ok j =>
      rw [hg] at h
      cases h
      simp [statusKeys]
  · cases h
    simp

theorem packetMembers_keys {members : List (Text × Json)} (h : packetMembers env = .ok members) :
    ∀ m ∈ members, m.1 ∈ statusKeys := by
  unfold packetMembers at h
  split at h
  · cases h
    simp
  · next r _ =>
    cases r with
    | error x => cases h
    | ok j =>
      cases h
      simp [statusKeys]

theorem statusMembers_keys {e : PolicyEngine} {members : List (Text × Json)}
    (h : statusMembers rt env e = .ok members) : ∀ m ∈ members, m.1 ∈ statusKeys := by
  unfold statusMembers at h
  cases hs : e.getStatus rt env.bypassStatus (env.clock 0) with
  | error x => simp [hs, Bind.bind, Except.bind] at h
  | ok status =>
    cases hg : gatewayMembers env with
    | error x => simp [hs, hg, Bind.bind, Except.bind] at h
    | ok gateway =>
      cases hp : packetMembers env with
      | error x => simp [hs, hg, hp, Bind.bind, Except.bind] at h
      | ok packets =>
        simp only [hs, hg, hp, Bind.bind, Except.bind, Except.ok.injEq] at h
        subst h
        intro m hm
        rcases List.mem_append.mp hm with hm | hm
        · rcases List.mem_append.mp hm with hm | hm
          · exact getStatus_keys hs m hm
          · exact gatewayMembers_keys hg m hm
        · exact packetMembers_keys hp m hm

/-- No status reply has the key that the command looks for. -/
theorem reportsLocked_status {e : PolicyEngine} {members : List (Text × Json)}
    (h : statusMembers rt env e = .ok members) : reportsLocked (.obj members) = .ok false := by
  have hnone : Json.lookup members "session_status" = none := by
    refine Json.lookup_eq_none fun m hm heq => ?_
    have hkey := statusMembers_keys h m hm
    rw [heq] at hkey
    revert hkey
    decide
  simp only [reportsLocked, hnone]

/-- The check never refuses, whatever the state of the session is. -/
theorem refuseWhenLocked_passes (s : CommandState) :
    refuseWhenLocked rt env s = (.ok (), s) := by
  have hrequested : requested (.obj [("action", .str "status"), ("params", .obj [])]) =
      some (.status, .obj []) := rfl
  have hrun : dispatch rt env (.obj []) .status s.daemon =
      ((statusMembers rt env s.daemon.engine).map fun m => okReply (.obj m), s.daemon) := by
    refine (Exec.bind_of_ok (Exec.get_apply s.daemon)).trans ?_
    cases statusMembers rt env s.daemon.engine with
    | ok members => rfl
    | error x => rfl
  have hreply : handleRequest rt env _ s.daemon = _ :=
    handleRequest_of_requested hrequested s.daemon
  rw [hrun] at hreply
  unfold refuseWhenLocked Exec.tryCatch
  cases h : statusMembers rt env s.daemon.engine with
  | ok members =>
    rw [h] at hreply
    have hsend : sendCommand rt env "status" s = (.ok (.obj members), s) := by
      unfold sendCommand
      rw [hreply]
      rfl
    rw [Exec.bind_of_ok hsend, reportsLocked_status h]
    rfl
  | error x =>
    rw [h] at hreply
    have hsend : ∃ message, sendCommand rt env "status" s = (.error (.daemonError message), s) := by
      unfold sendCommand
      rw [hreply]
      cases x <;> exact ⟨_, rfl⟩
    obtain ⟨message, hsend⟩ := hsend
    rw [Exec.bind_of_error hsend]
    rfl

/-! ## The two paths -/

/-- A request leaves the command's own calls alone. -/
theorem sendCommand_state (action : Text) : (sendCommand rt env action s).2 = { s with daemon :=
    (handleRequest rt env (.obj [("action", .str action), ("params", .obj [])]) s.daemon).2 } := by
  unfold sendCommand
  match handleRequest rt env (.obj [("action", .str action), ("params", .obj [])]) s.daemon with
  | (.ok (.obj reply), d) =>
    dsimp only
    split
    · rfl
    · rfl
  | (.error x, d) => rfl
  | (.ok .null, d) | (.ok (.bool _), d) | (.ok (.int _), d) | (.ok (.float _), d)
    | (.ok (.str _), d) | (.ok (.arr _), d) => rfl

/-- The daemon refuses to disable the redirection before the expiry time. -/
theorem gatewayDisable_refused {d : Daemon} (hl : d.engine.session.LockedUntil rt u)
    (hnow : (env.clock 0).micros < u) (params : Json) :
    (dispatch rt env params .gatewayDisable d).2 = d := by
  have hguard : onEngine (onSession (assertNotLocked rt env.clock)) d = _ :=
    onEngine_eq (onSession_eq (assertNotLocked_before hl hnow))
  have hrun : dispatch rt env params .gatewayDisable d = _ := Exec.bind_of_error hguard
  rw [hrun]

/-- The root path runs the change; the other path is refused by the daemon. -/
theorem cmdGatewayDisable_state {disableEnv : RequestEnv}
    (hl : s.daemon.engine.session.LockedUntil rt u) (hnow : (disableEnv.clock 0).micros < u)
    (euid : Option Nat) (localResult : Bool × Text) :
    (cmdGatewayDisable rt env disableEnv euid localResult s).2 =
      if isRoot euid then
        { s with localCalls := s.localCalls ++ [.disableTransparentRedirection] }
      else s := by
  unfold cmdGatewayDisable
  rw [Exec.bind_of_ok (refuseWhenLocked_passes s)]
  by_cases hroot : isRoot euid = true
  · rw [if_pos hroot, if_pos hroot, Exec.bind_of_ok (Exec.modify_apply _ s)]
    by_cases hlocal : localResult.1 = true
    · rw [if_pos hlocal]
      rfl
    · rw [if_neg hlocal]
      rfl
  · rw [if_neg hroot, if_neg hroot]
    have hrequested : requested (.obj [("action", .str "gateway_disable"), ("params", .obj [])]) =
        some (.gatewayDisable, .obj []) := rfl
    have hstate : (sendCommand rt disableEnv "gateway_disable" s).2 = s := by
      rw [sendCommand_state, handleRequest_of_requested hrequested,
        gatewayDisable_refused hl hnow]
    rw [Exec.bind_apply]
    match hsend : sendCommand rt disableEnv "gateway_disable" s with
    | (.ok r, t) =>
      rw [hsend] at hstate
      exact hstate
    | (.error x, t) =>
      rw [hsend] at hstate
      exact hstate

/-- With a session that is locked until after the command, the redirection stays enabled
exactly when the caller is not root. -/
theorem not_disableExecuted_iff {disableEnv : RequestEnv}
    (hl : s.daemon.engine.session.LockedUntil rt u)
    (hdisable : (disableEnv.clock 0).micros < u) (euid : Option Nat) (localResult : Bool × Text) :
    ¬ DisableExecuted s (cmdGatewayDisable rt env disableEnv euid localResult s).2 ↔
      ¬ isRoot euid = true := by
  rw [cmdGatewayDisable_state hl hdisable, not_iff_not]
  by_cases hroot : isRoot euid = true
  · rw [if_pos hroot]
    simp [DisableExecuted, hroot]
  · rw [if_neg hroot]
    simp [DisableExecuted, hroot]

section Example

open Calendar

/-- A caller that is not root, at eleven, in the session of the morning. -/
theorem not_disableExecuted_as_user : ∃ s : CommandState,
    s.daemon.engine.session = morningSession ∧
    ¬ DisableExecuted s (cmdGatewayDisable asciiRuntime (requestAt eleven) (requestAt eleven)
      (some 1000) (true, []) s).2 := by
  obtain ⟨d, -, hsession, -⟩ := exists_morning_daemon asciiRuntime
  have hl : d.engine.session.LockedUntil asciiRuntime twelve.micros :=
    hsession ▸ morningSession_lockedUntil asciiRuntime
  have hnow : ((requestAt eleven).clock 0).micros < twelve.micros := by decide
  exact ⟨⟨d, []⟩, hsession,
    (not_disableExecuted_iff (s := ⟨d, []⟩) hl hnow _ _).mpr (by decide)⟩

/-- Root disables the redirection in the middle of the session. -/
theorem disableExecuted_as_root : ∃ s : CommandState, Daemon.Reached asciiRuntime s.daemon ∧
    s.daemon.engine.session = morningSession ∧
    DisableExecuted s (cmdGatewayDisable asciiRuntime (requestAt eleven) (requestAt eleven)
      (some 0) (true, []) s).2 := by
  obtain ⟨d, hd, hsession, -⟩ := exists_morning_daemon asciiRuntime
  have hl : d.engine.session.LockedUntil asciiRuntime twelve.micros :=
    hsession ▸ morningSession_lockedUntil asciiRuntime
  have hnow : ((requestAt eleven).clock 0).micros < twelve.micros := by decide
  refine ⟨⟨d, []⟩, hd, hsession, ?_⟩
  rw [cmdGatewayDisable_state (s := ⟨d, []⟩) hl hnow, if_pos (by decide)]
  exact .inl Nat.zero_lt_one

end Example

end FocusGuard

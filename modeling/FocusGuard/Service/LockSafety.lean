import FocusGuard.Service.DaemonInvariant

/-!
# A locked session stays locked

Until its expiry time a locked session is out of reach: no request, no heartbeat and no
restart changes the session, the permanent configuration or the sinkhole, and the firewall
redirection is not switched off. Clock readings may come in any order as long as they are
earlier than the expiry time.
-/

namespace FocusGuard

open PolicyEngine

variable {rt : Runtime}

/-- The daemon enforces the same policy as before, and the calls it has made since then do
not disable the redirection. -/
structure SamePolicy (d d' : Daemon) : Prop where
  config : d'.engine.config = d.engine.config
  session : d'.engine.session = d.engine.session
  sinkhole : d'.engine.sinkhole = d.engine.sinkhole
  calls : ∃ calls, d'.gatewayCalls = d.gatewayCalls ++ calls ∧
    .disableTransparentRedirection ∉ calls

namespace SamePolicy

variable {d₁ d₂ d₃ : Daemon}

theorem refl (d : Daemon) : SamePolicy d d := ⟨rfl, rfl, rfl, [], by simp⟩

theorem trans (h : SamePolicy d₁ d₂) (h' : SamePolicy d₂ d₃) : SamePolicy d₁ d₃ := by
  obtain ⟨l, hl, hn⟩ := h.calls
  obtain ⟨l', hl', hn'⟩ := h'.calls
  refine ⟨h'.config.trans h.config, h'.session.trans h.session, h'.sinkhole.trans h.sinkhole,
    l ++ l', ?_, ?_⟩
  · rw [hl', hl, List.append_assoc]
  · simp [hn, hn']

theorem of_engine {e : PolicyEngine} (hconfig : e.config = d₁.engine.config)
    (hsession : e.session = d₁.engine.session) (hsinkhole : e.sinkhole = d₁.engine.sinkhole) :
    SamePolicy d₁ ⟨e, d₁.gatewayCalls⟩ :=
  ⟨hconfig, hsession, hsinkhole, [], by simp⟩

end SamePolicy

variable {d d' : Daemon} {u : Int}

theorem startFocusSession_before {env : CallEnv} {e : PolicyEngine}
    (hl : e.session.LockedUntil rt u) (hnow : (env.clock 0).micros < u)
    (durationStr untilStr domainsArg servicesArg : Json) (companions : Bool) :
    (startFocusSession rt env durationStr untilStr domainsArg servicesArg companions e).2 = e := by
  unfold startFocusSession
  cases hend : sessionEnd rt env durationStr untilStr (env.clock 0) with
  | error x => rfl
  | ok expiry =>
    rw [Exec.bind_of_ok (Exec.ofExcept_apply _ e), Exec.bind_of_ok (Exec.get_apply e)]
    cases hscope : sessionScope rt e.config domainsArg servicesArg companions with
    | error x => rfl
    | ok scope =>
      rw [Exec.bind_of_ok (Exec.ofExcept_apply _ e)]
      by_cases hnil : scope.1 = []
      · rw [if_pos hnil]
        rfl
      · rw [if_neg hnil]
        obtain ⟨x, hx⟩ := startSession_before env hl hnow
        rw [Exec.bind_of_error (onSession_eq hx)]

theorem RequestEffect.samePolicy {env : RequestEnv} {guarded : Bool}
    (h : RequestEffect rt env guarded d d') (hl : d.engine.session.LockedUntil rt u)
    (hnow : (env.clock 0).micros < u) : SamePolicy d d' := by
  cases h with
  | same => exact .refl d
  | operation m _ hm =>
    rw [hm.before hl hnow]
    exact .refl d
  | start durationStr untilStr domainsArg servicesArg companions =>
    rw [startFocusSession_before hl hnow]
    exact .refl d
  | enable => exact ⟨rfl, rfl, rfl, [.enableTransparentRedirection], rfl, by decide⟩
  | disable _ hok =>
    -- the guard refuses, so the branch never gets to the gateway
    have hrefused : stopFocusSession rt env.toCallEnv d.engine = _ :=
      onSession_eq (assertNotLocked_before hl hnow)
    rw [hrefused] at hok
    cases hok

/-- One event with readings before the expiry time leaves the policy as it is. -/
theorem Daemon.Step.samePolicy {ev : Event} (hinv : Inv rt d.engine)
    (hl : d.engine.session.LockedUntil rt u) (hsaves : ev.SavesSucceed) (hbefore : ev.Before u)
    (h : Step rt d ev d') : SamePolicy d d' := by
  cases ev with
  | request env request =>
    rw [h.request]
    exact (IPCServer.handleRequest_effect hsaves request d).samePolicy hl (hbefore 0)
  | tick env =>
    have hclock : (env.clock 0).micros < u := hbefore 0
    have hsame : (PolicyEngine.tick rt env d.engine).2 = d.engine := by
      refine tick_of_not_expired fun message hx => ?_
      rcases checkExpiration_before hl hclock with ⟨x, h⟩ | ⟨m, h⟩
      · rw [h] at hx
        cases hx
      · rw [h] at hx
        cases hx
    rw [h.tick, hsame]
    exact .refl d
  | restart env =>
    have hclock : (env.clock 0).micros < u := hbefore 0
    obtain ⟨hstart, hcalls⟩ := h.restart
    have hne : d.engine.session.status ≠ .expired := by
      rw [SessionState.status_of_isLocked hl.locked]
      decide
    have hsync := hinv.synced hne
    rcases checkExpiration_before hl hclock with ⟨x, hx⟩ | ⟨message, hx⟩
    · rw [startEngine_error hsync.stored hsync.allowed hx] at hstart
      cases hstart
    · obtain ⟨m, hm⟩ := startEngine_active hsync.stored hsync.allowed hsync.safe hx
      rw [hm, hsync.inForce_eq m, Except.ok.injEq] at hstart
      obtain ⟨e, calls⟩ := d'
      subst hstart hcalls
      exact .of_engine rfl rfl rfl

/-- Runs keep the policy, and with it the lock that the next event needs. -/
theorem samePolicy_of_run {es : List Event} (hinv : Inv rt d.engine)
    (hl : d.engine.session.LockedUntil rt u) (hrun : Run (Daemon.Step rt) d es d')
    (hes : ∀ ev ∈ es, ev.SavesSucceed ∧ ev.Before u) : SamePolicy d d' := by
  have hstep : ∀ d₁ ev d₂, (ev.SavesSucceed ∧ ev.Before u) →
      (Inv rt d₁.engine ∧ SamePolicy d d₁) → Daemon.Step rt d₁ ev d₂ →
      Inv rt d₂.engine ∧ SamePolicy d d₂ := by
    rintro d₁ ev d₂ ⟨hsaves, hbefore⟩ ⟨hinv₁, hsame⟩ hst
    have hl₁ : d₁.engine.session.LockedUntil rt u := hsame.session.symm ▸ hl
    exact ⟨Daemon.Step.inv hsaves hinv₁ hst,
      hsame.trans (Daemon.Step.samePolicy hinv₁ hl₁ hsaves hbefore hst)⟩
  exact (hrun.invariant hstep hes ⟨hinv, .refl d⟩).2

/-- From any reached daemon whose session is locked until `u`, requests, ticks and restarts
whose clock readings are all earlier than `u` end no lock and unblock no name. -/
theorem lock_safety {es : List Event} (hd : Daemon.Reached rt d)
    (hl : d.engine.session.LockedUntil rt u) (hrun : Run (Daemon.Step rt) d es d')
    (hes : ∀ ev ∈ es, ev.SavesSucceed ∧ ev.Before u) :
    d'.engine.session.isLocked = true ∧
    d'.engine.session.expiresAtUtc = d.engine.session.expiresAtUtc ∧
    d'.engine.session.sessionDomains = d.engine.session.sessionDomains ∧
    d'.engine.session.sessionServices = d.engine.session.sessionServices ∧
    d'.engine.config.permanentDomains = d.engine.config.permanentDomains ∧
    d'.engine.config.permanentServices = d.engine.config.permanentServices ∧
    (∃ calls, d'.gatewayCalls = d.gatewayCalls ++ calls ∧
      .disableTransparentRedirection ∉ calls) ∧
    ∀ name, (d.engine.sinkhole.isBlocked rt name).1 = true →
      (d'.engine.sinkhole.isBlocked rt name).1 = true := by
  have h := samePolicy_of_run hd.inv hl hrun hes
  rw [h.session, h.config, h.sinkhole]
  exact ⟨hl.locked, rfl, rfl, rfl, rfl, rfl, h.calls, fun _ hb => hb⟩

/-! ## A run on stored state -/

section Example

open Calendar

/-- 2026-01-01, at ten, eleven and twelve o'clock. -/
def ten : Instant := ⟨1767261600000000, by decide⟩

def eleven : Instant := ⟨1767265200000000, by decide⟩

def twelve : Instant := ⟨1767268800000000, by decide⟩

/-- A session from ten to twelve. -/
def morningSession : SessionState where
  status := .locked
  createdAtUtc := some (isoformat ten)
  expiresAtUtc := some (isoformat twelve)
  durationSeconds := 7200
  sessionDomains := ["youtube.com"]

def envAt (now : Instant) : CallEnv where
  clock _ := now
  token := ⟨List.replicate 32 7, rfl⟩
  sessionId := []
  bootId := []
  saveOk := true

def requestAt (now : Instant) : RequestEnv where
  toCallEnv := envAt now
  hasGateway := true
  gatewayStatus := .ok .null
  packetStatus := none
  bypassStatus := .null
  enableResult := (true, [])
  disableResult := (true, [])
  collaborator _ _ := .ok .null

def request (action : Text) : Json := .obj [("action", .str action)]

theorem morningSession_lockedUntil (rt : Runtime) :
    morningSession.LockedUntil rt twelve.micros :=
  ⟨rfl, by simp [awareMicros, morningSession]⟩

theorem morningSession_created (rt : Runtime) {now : Instant} (h : ten.micros ≤ now.micros) :
    rolledBack rt morningSession now = .ok false := by
  have hne : isoformat ten ≠ [] := fun hnil => by
    have hread := rt.fromisoformat_isoformat ten
    rw [hnil, rt.fromisoformat_nil] at hread
    cases hread
  simp [rolledBack, morningSession, hne, awareMicros, h]

theorem morningSession_safe (rt : Runtime) : Safe rt {} morningSession := by
  refine ⟨by simp, fun _ d hd => ?_⟩
  obtain rfl := List.mem_singleton.mp hd
  exact Plain.ruleSafe (by decide)

/-- Some daemon has come up at ten with the session of the morning. -/
theorem exists_morning_daemon (rt : Runtime) : ∃ d, Daemon.Reached rt d ∧
    d.engine.session = morningSession ∧ d.engine.config = {} := by
  have hst : Disk.Stores ⟨some (.json (.obj (stateMembers ⟨{}, morningSession, none⟩ none))), none⟩
      {} morningSession := ⟨_, _, rfl, readState_stateMembers _ (by simp)⟩
  have hallowed : DomainSinkhole.allowedRules rt ({} : AppConfig).allowedDomains = _ :=
    allowedRules_eq_ok_iff.mpr ⟨by simp, rfl⟩
  obtain ⟨message, hx⟩ := checkExpiration_active (morningSession_lockedUntil rt)
    (morningSession_created rt le_rfl) (by decide)
  obtain ⟨m, hm⟩ : ∃ m, startEngine rt (envAt ten) _ = .ok (inForce rt {} morningSession _ m) :=
    startEngine_active hst hallowed (morningSession_safe rt) hx
  exact ⟨⟨inForce rt {} morningSession _ m, []⟩, .init ⟨_, _, hm, rfl⟩, rfl, rfl⟩

/-- `stop`, a heartbeat and `gateway_disable` at eleven. -/
theorem lock_safety_at_eleven : ∃ d d' : Daemon,
    d'.engine.session.expiresAtUtc = d.engine.session.expiresAtUtc ∧
    Run (Daemon.Step asciiRuntime) d [.request (requestAt eleven) (request "stop"),
      .tick (envAt eleven), .request (requestAt eleven) (request "gateway_disable")] d' := by
  obtain ⟨d, hd, hsession, -⟩ := exists_morning_daemon asciiRuntime
  have hl : d.engine.session.LockedUntil asciiRuntime twelve.micros :=
    hsession ▸ morningSession_lockedUntil asciiRuntime
  have hrun : ∃ d', Run (Daemon.Step asciiRuntime) d [.request (requestAt eleven) (request "stop"),
      .tick (envAt eleven), .request (requestAt eleven) (request "gateway_disable")] d' :=
    ⟨_, .cons rfl (.cons rfl (.single rfl))⟩
  obtain ⟨d', hrun⟩ := hrun
  refine ⟨d, d', (lock_safety hd hl hrun fun ev hev => ?_).2.1, hrun⟩
  simp only [List.mem_cons, List.not_mem_nil, or_false] at hev
  rcases hev with rfl | rfl | rfl
  · exact ⟨rfl, fun _ => show eleven.micros < twelve.micros by decide⟩
  · exact ⟨rfl, fun _ => show eleven.micros < twelve.micros by decide⟩
  · exact ⟨rfl, fun _ => show eleven.micros < twelve.micros by decide⟩

end Example

end FocusGuard

import FocusGuard.Service.LockSafety

/-!
# Restoring the permanent policy when a session expires

The heartbeat turns an expired session into an idle one, refreshes the sinkhole and saves.
A guarded request that arrives first only marks the session, after which the heartbeat finds
nothing to do. Runs without such a request restore the permanent policy.
-/

namespace FocusGuard

open PolicyEngine

variable (rt : Runtime)

/-- Nothing is left of a session: the status is idle, the sinkhole holds exactly the rules
of the permanent configuration, and the state file says the same. -/
structure Restored (e : PolicyEngine) : Prop where
  idle : e.session.status = .idle
  rules : DomainSinkhole.blockedRules rt e.config.blockDoh
    (Text.sorted (permanentlyBlocked rt e.config)) = .ok e.sinkhole.blockedTrees
  stored : ∃ session, e.stateManager.disk.Stores e.config session ∧ session.status = .idle

/-- The guard, called on this session, lets the call through and marks it as expired. -/
def GuardMarks (env : CallEnv) (s : SessionState) : Prop :=
  s.isLocked = true ∧ getRemainingSeconds rt s (env.clock 0) = .ok 0 ∧
    rolledBack rt s (env.clock 1) = .ok false ∧
    ∃ u, awareMicros rt (s.expiresAtUtc.getD []) = .ok u ∧ u ≤ (env.clock 1).micros

/-- A guarded request arrives after the expiry time and before the heartbeat. -/
def OvertakesTick (d : Daemon) : Event → Prop
  | .request env req => reachesGuard req = true ∧ GuardMarks rt env.toCallEnv d.engine.session
  | _ => False

/-- The step puts another session in force. -/
def StartsSession (d d' : Daemon) : Prop :=
  d'.engine.session.isLocked = true ∧ d'.engine.session ≠ d.engine.session

/-- A step that writes successfully and starts no session. -/
structure PlainStep (d : Daemon) (ev : Event) (d' : Daemon) : Prop where
  step : Daemon.Step rt d ev d'
  saves : ev.SavesSucceed
  noStart : ¬ StartsSession d d'

/-- A plain step that overtakes no heartbeat. -/
structure QuietStep (d : Daemon) (ev : Event) (d' : Daemon) : Prop
    extends PlainStep rt d ev d' where
  inOrder : ¬ OvertakesTick rt d ev

variable {rt} {d d' : Daemon} {s : SessionState} {u : Int}

/-- The session is gone and the engine is synced. -/
def Idle (rt : Runtime) (e : PolicyEngine) : Prop := e.session = {} ∧ Synced rt e

/-- The session is still there, or it is gone. -/
def Awaiting (rt : Runtime) (s : SessionState) (e : PolicyEngine) : Prop :=
  (e.session = s ∧ Synced rt e) ∨ Idle rt e

theorem Idle.restored {e : PolicyEngine} (h : Idle rt e) : Restored rt e := by
  obtain ⟨hsession, hsync⟩ := h
  have hactive : getAllActiveBlockedDomains rt e.config e.session =
      Text.sorted (permanentlyBlocked rt e.config) := by
    rw [hsession, getAllActiveBlockedDomains, sessionBlocked, if_neg (by decide), List.append_nil]
  refine ⟨by rw [hsession], ?_, e.session, hsync.stored, by rw [hsession]⟩
  rw [← hactive]
  exact blockedRules_active_iff.mpr ⟨hsync.safe, hsync.blocked⟩

theorem not_expired_of_locked (h : s.isLocked = true) : s.status ≠ .expired := by
  rw [SessionState.status_of_isLocked h]
  decide

/-! ## Steps -/

/-- A request that starts no session and marks none leaves the session and a synced engine. -/
theorem RequestEffect.quiet {env : RequestEnv} {guarded : Bool}
    (h : RequestEffect rt env guarded d d') (hs : env.saveOk = true) (hsync : Synced rt d.engine)
    (hstart : ¬ StartsSession d d')
    (hmark : ¬ (guarded = true ∧ GuardMarks rt env.toCallEnv d.engine.session)) :
    d'.engine.session = d.engine.session ∧ Synced rt d'.engine := by
  rcases h.engine with h | ⟨hg, _, m, hm, h⟩ | ⟨durationStr, untilStr, domainsArg, servicesArg,
    companions, h⟩
  · rw [h]
    exact ⟨rfl, hsync⟩
  · rcases hm.cases hsync.toCoherent with hsame | hedit | ⟨message, hx, hrem, -, -⟩
    · rw [h, hsame]
      exact ⟨rfl, hsync⟩
    · rw [h]
      exact hedit
    · refine absurd ⟨hg, ?_⟩ hmark
      exact ⟨(of_checkExpiration_true hx).1, hrem, checkExpiration_true hx⟩
  · rcases startFocusSession_cases hsync.toCoherent hs durationStr untilStr domainsArg servicesArg
      companions with hsame | ⟨hlock, hnew⟩
    · rw [h, hsame]
      exact ⟨rfl, hsync⟩
    · rw [← h] at hlock hnew
      refine ⟨?_, hnew⟩
      by_contra hne
      exact hstart ⟨hlock, hne⟩

/-- What a heartbeat or a restart makes of a synced engine. -/
theorem awaiting_of_tick {env : CallEnv} (hs : env.saveOk = true) (hsync : Synced rt d.engine) :
    Awaiting rt d.engine.session (tick rt env d.engine).2 := by
  by_cases hx : ∃ message, checkExpiration rt (env.clock 0) d.engine.session =
      (.ok (true, message), d.engine.session.expire)
  · obtain ⟨message, hx⟩ := hx
    obtain ⟨e', heq, hsession, -, hsync'⟩ := tick_of_expired hsync.toCoherent hs hx
    rw [heq]
    exact .inr ⟨hsession, hsync'⟩
  · rw [tick_of_not_expired (not_exists.mp hx)]
    exact .inl ⟨rfl, hsync⟩

theorem awaiting_of_restart {env : CallEnv} {e : PolicyEngine} (hsync : Synced rt d.engine)
    (h : startEngine rt env d.engine.stateManager.disk = .ok e) :
    Awaiting rt d.engine.session e := by
  have hnew := startEngine_synced h
  rcases checkExpiration_cases rt d.engine.session (env.clock 0) with
    ⟨x, hx⟩ | ⟨m, hx⟩ | ⟨-, m, hx⟩
  · rw [startEngine_error hsync.stored hsync.allowed hx] at h
    cases h
  · obtain ⟨t, ht⟩ := startEngine_active hsync.stored hsync.allowed hsync.safe hx
    rw [ht] at h
    cases h
    exact .inl ⟨rfl, hnew⟩
  · have hstart := startEngine_expired hsync.stored hsync.allowed hsync.safe.permanent hx
    split at hstart
    · obtain ⟨t, ht⟩ := hstart
      rw [ht] at h
      cases h
      exact .inr ⟨rfl, hnew⟩
    · rw [hstart] at h
      cases h

/-- A quiet step keeps the session or restores the permanent policy. -/
theorem QuietStep.awaiting {ev : Event} (h : QuietStep rt d ev d') (hsync : Synced rt d.engine) :
    Awaiting rt d.engine.session d'.engine := by
  cases ev with
  | request env req =>
    have heff : RequestEffect rt env _ d _ := IPCServer.handleRequest_effect h.saves req d
    rw [← h.step.request] at heff
    exact .inl (heff.quiet h.saves hsync h.noStart h.inOrder)
  | tick env =>
    rw [h.step.tick]
    exact awaiting_of_tick h.saves hsync
  | restart env => exact awaiting_of_restart hsync h.step.restart.1

theorem QuietStep.idle {ev : Event} (h : QuietStep rt d ev d') (hd : Idle rt d.engine) :
    Idle rt d'.engine := by
  rcases h.awaiting hd.2 with ⟨hsession, hsync⟩ | h
  · exact ⟨hsession.trans hd.1, hsync⟩
  · exact h

/-- A heartbeat at or after both times of the session leaves nothing of it. -/
theorem QuietStep.tick_restores {env : CallEnv} (h : QuietStep rt d (.tick env) d')
    (hl : s.LockedUntil rt u) (hcreated : rolledBack rt s (env.clock 0) = .ok false)
    (hnow : u ≤ (env.clock 0).micros) (hd : Awaiting rt s d.engine) : Idle rt d'.engine := by
  rcases hd with ⟨rfl, hsync⟩ | hidle
  · have hs : env.saveOk = true := h.saves
    obtain ⟨message, hx⟩ := checkExpiration_after hl hcreated hnow
    obtain ⟨e', heq, hsession, -, hsync'⟩ := tick_of_expired hsync.toCoherent hs hx
    rw [h.step.tick, heq]
    exact ⟨hsession, hsync'⟩
  · exact h.idle hidle

/-! ## Runs -/

/-- In a quiet run from a locked session, a heartbeat at or after both the creation and the
expiry time restores the permanent policy, and it stays restored. -/
theorem restored_after_tick {es : List Event} {env : CallEnv} (hd : Daemon.Reached rt d)
    (hl : d.engine.session.LockedUntil rt u) (hrun : Run (QuietStep rt) d es d')
    (htick : Event.tick env ∈ es)
    (hcreated : rolledBack rt d.engine.session (env.clock 0) = .ok false)
    (hnow : u ≤ (env.clock 0).micros) : Restored rt d'.engine := by
  have hsync : Synced rt d.engine := hd.inv.synced (not_expired_of_locked hl.locked)
  obtain ⟨pre, post, rfl⟩ := List.append_of_mem htick
  obtain ⟨d₁, hpre, hrest⟩ := hrun.split
  have hwait : Awaiting rt d.engine.session d₁.engine := by
    refine hpre.preserves (I := fun c => Awaiting rt d.engine.session c.engine) ?_
      (.inl ⟨rfl, hsync⟩)
    rintro c ev c' (⟨hsession, hc⟩ | hidle) hst
    · exact hsession ▸ hst.awaiting hc
    · exact .inr (hst.idle hidle)
  cases hrest with
  | cons hst hpost =>
    have hidle := hst.tick_restores hl hcreated hnow hwait
    exact (hpost.preserves (I := fun c => Idle rt c.engine)
      (fun c ev c' hc hst => hst.idle hc) hidle).restored

section Example

/-- A heartbeat at twelve ends the session of the morning. -/
theorem restored_at_twelve : ∃ d d' : Daemon, d.engine.session = morningSession ∧
    Run (QuietStep asciiRuntime) d [.tick (envAt twelve)] d' ∧ Restored asciiRuntime d'.engine := by
  obtain ⟨d, hd, hsession, -⟩ := exists_morning_daemon asciiRuntime
  have hl : d.engine.session.LockedUntil asciiRuntime twelve.micros :=
    hsession ▸ morningSession_lockedUntil asciiRuntime
  have hcreated : rolledBack asciiRuntime d.engine.session twelve = .ok false :=
    hsession ▸ morningSession_created asciiRuntime (by decide)
  obtain ⟨message, hx⟩ := checkExpiration_after hl hcreated le_rfl
  obtain ⟨e, htick, hidle, -, -⟩ : ∃ e, tick asciiRuntime (envAt twelve) d.engine = _ ∧ _ ∧ _ ∧ _ :=
    tick_of_expired hd.inv.toCoherent rfl hx
  have hstep : QuietStep asciiRuntime d (.tick (envAt twelve)) ⟨e, d.gatewayCalls⟩ := by
    refine ⟨⟨?_, rfl, ?_⟩, id⟩
    · rw [Daemon.Step, Daemon.step, htick]
    · rintro ⟨hlock, -⟩
      rw [hidle] at hlock
      cases hlock
  exact ⟨d, ⟨e, d.gatewayCalls⟩, hsession, .single hstep, restored_after_tick hd hl
    (.single hstep) List.mem_cons_self hcreated le_rfl⟩

/-- `stop` at twelve overtakes the heartbeat: the session stays expired, and its rules stay
in the sinkhole. -/
theorem stop_prevents_restore : ∃ d d' : Daemon, Daemon.Reached asciiRuntime d ∧
    d.engine.session = morningSession ∧
    Run (PlainStep asciiRuntime) d [.request (requestAt twelve) (request "stop"),
      .tick (envAt twelve)] d' ∧
    d'.engine.session.status = .expired ∧ d'.engine.sinkhole = d.engine.sinkhole ∧
    ¬ Restored asciiRuntime d'.engine := by
  obtain ⟨d, hd, hsession, -⟩ := exists_morning_daemon asciiRuntime
  have hl : d.engine.session.LockedUntil asciiRuntime twelve.micros :=
    hsession ▸ morningSession_lockedUntil asciiRuntime
  have hcreated : rolledBack asciiRuntime d.engine.session twelve = .ok false :=
    hsession ▸ morningSession_created asciiRuntime (by decide)
  let d' : Daemon := { d with engine := { d.engine with session := d.engine.session.expire } }
  have hstop : stopFocusSession asciiRuntime (envAt twelve) d.engine = (.ok (), d'.engine) :=
    onSession_eq (assertNotLocked_after hl le_rfl hcreated le_rfl)
  have hfirst : (IPCServer.handleRequest asciiRuntime (requestAt twelve) (request "stop") d).2 =
      d' := by
    have hrequested : requested (request "stop") = some (.stop, .obj []) := rfl
    rw [IPCServer.handleRequest_of_requested hrequested]
    refine (IPCServer.onEngine_reply _ _ d).trans ?_
    rw [show (requestAt twelve).toCallEnv = envAt twelve from rfl, hstop]
  have hsecond : (tick asciiRuntime (envAt twelve) d'.engine).2 = d'.engine :=
    tick_of_not_expired fun message hx => by cases (of_checkExpiration_true hx).1
  refine ⟨d, d', hd, hsession, .cons (t := d') ⟨?_, rfl, ?_⟩ (.single ⟨?_, rfl, ?_⟩), rfl, rfl, ?_⟩
  · rw [Daemon.Step, Daemon.step, hfirst]
  · rintro ⟨hlock, -⟩
    cases hlock
  · rw [Daemon.Step, Daemon.step, hsecond]
  · rintro ⟨hlock, -⟩
    cases hlock
  · intro h
    cases h.idle

end Example

end FocusGuard

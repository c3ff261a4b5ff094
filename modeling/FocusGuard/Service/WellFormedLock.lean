import FocusGuard.Service.TamperedState

/-!
# Locked sessions are well formed

A locked session has an identifier, timestamps in order and something to block. A start makes it
so, and from there the session goes through requests, files and restarts unchanged until it is
replaced or released. On such a session neither the expiry check nor the remaining time raises.

## Main results

* `Fresh.lockInv`: the invariant of every daemon that is reached from a fresh directory.
* `locked_wellFormed`: what it says about the session in force.
-/

namespace FocusGuard

open Calendar PolicyEngine

/-- An identifier, two aware timestamps in order, and something to block. -/
structure WellFormedLock (rt : Runtime) (s : SessionState) : Prop where
  sessionId : s.sessionId.isSome = true
  stamps : ∃ created expires c x, s.createdAtUtc = some created ∧ s.expiresAtUtc = some expires ∧
    rt.fromisoformat created = some (.aware c) ∧ rt.fromisoformat expires = some (.aware x) ∧ c < x
  domains : s.sessionDomains ≠ []

/-- Where the session is locked, it is well formed. -/
def SoundSession (rt : Runtime) (s : SessionState) : Prop :=
  s.status = .locked → WellFormedLock rt s

/-- A reading is at or after the end of the session. -/
def Elapsed (rt : Runtime) (s : SessionState) (now : Instant) : Prop :=
  ∃ x, awareMicros rt (s.expiresAtUtc.getD []) = .ok x ∧ x ≤ now.micros

/-- Steady readings and successful writes. -/
def Event.Regular (rt : Runtime) (ev : Event) : Prop := ev.SavesSucceed ∧ ev.env.Steady rt

/-- A daemon that has come up where no state file was. -/
def Daemon.Fresh (rt : Runtime) (d : Daemon) : Prop :=
  ∃ env disk, disk.stateFile = none ∧ startEngine rt env disk = .ok d.engine ∧ d.gatewayCalls = []

/-- The engine and its state file hold no ill-formed lock. -/
structure LockInv (rt : Runtime) (e : PolicyEngine) : Prop where
  inv : Inv rt e
  session : SoundSession rt e.session
  stored : ∀ config session, e.stateManager.disk.Stores config session → SoundSession rt session

variable {rt : Runtime} {env : CallEnv} {e : PolicyEngine} {s : SessionState} {d d' : Daemon}

/-! ## A well-formed lock -/

theorem awareMicros_of_fromisoformat {t : Text} {u : Int}
    (h : rt.fromisoformat t = some (.aware u)) : awareMicros rt t = .ok u := by
  rw [awareMicros, h]

theorem ne_nil_of_fromisoformat {t : Text} {stamp : Stamp} (h : rt.fromisoformat t = some stamp) :
    t ≠ [] := by
  rintro rfl
  rw [rt.fromisoformat_nil] at h
  cases h

/-- The lock runs from one instant to a later one. -/
theorem WellFormedLock.window (h : WellFormedLock rt s) : ∃ c x, c < x ∧
    (∀ now, rolledBack rt s now = .ok (decide (now.micros < c))) ∧
    awareMicros rt (s.expiresAtUtc.getD []) = .ok x := by
  obtain ⟨created, expires, c, x, hc, hx, hcreated, hexpires, hlt⟩ := h.stamps
  refine ⟨c, x, hlt, fun now => ?_, ?_⟩
  · rw [rolledBack, hc, Option.getD_some, if_neg (ne_nil_of_fromisoformat hcreated),
      awareMicros_of_fromisoformat hcreated]
  · rw [hx, Option.getD_some, awareMicros_of_fromisoformat hexpires]

theorem SoundSession.checkExpiration_ok (h : SoundSession rt s) (now : Instant) :
    ∃ r, (checkExpiration rt now s).1 = .ok r := by
  by_cases hl : s.isLocked = true
  · obtain ⟨c, x, -, hback, hx⟩ := (h (SessionState.status_of_isLocked hl)).window
    unfold checkExpiration
    rw [if_neg (not_not.mpr hl), hback now]
    cases decide (now.micros < c) with
    | true => exact ⟨_, rfl⟩
    | false =>
      simp only [hx]
      split
      · exact ⟨_, rfl⟩
      · exact ⟨_, rfl⟩
  · rw [checkExpiration_of_not_locked hl]
    exact ⟨_, rfl⟩

theorem SoundSession.getRemainingSeconds_ok (h : SoundSession rt s) (now : Instant) :
    ∃ rem, getRemainingSeconds rt s now = .ok rem := by
  unfold getRemainingSeconds
  by_cases hl : s.isLocked = true
  · obtain ⟨c, x, -, -, hx⟩ := (h (SessionState.status_of_isLocked hl)).window
    rw [hx]
    split
    · exact ⟨_, rfl⟩
    · exact ⟨_, rfl⟩
  · rw [if_pos (.inl hl)]
    exact ⟨0, rfl⟩

/-- No reading is both before the start and after the end. -/
theorem WellFormedLock.not_both (h : WellFormedLock rt s) (now : Instant) :
    ¬ (rolledBack rt s now = .ok true ∧ Elapsed rt s now) := by
  obtain ⟨c, x, hlt, hback, hx⟩ := h.window
  rintro ⟨hrolled, y, hy, hle⟩
  rw [hback now, Except.ok.injEq, decide_eq_true_eq] at hrolled
  rw [hx, Except.ok.injEq] at hy
  omega

/-- The session that a start puts in force is well formed. -/
theorem newSession_wellFormed {expiry : Instant × Int} {scope : List Text × List Text}
    (hend : (env.clock 0).micros < expiry.1.micros) (hscope : scope.1 ≠ []) :
    WellFormedLock rt (newSession env expiry scope) := by
  refine ⟨rfl, ⟨_, _, _, _, rfl, rfl, rt.fromisoformat_isoformat _, rt.fromisoformat_isoformat _,
    hend⟩, ?_⟩
  obtain ⟨domain, hm⟩ := List.exists_mem_of_ne_nil _ hscope
  exact List.ne_nil_of_mem (Text.mem_sorted.mpr hm)

/-! ## The invariant -/

theorem soundSession_idle : SoundSession rt {} := fun h => by cases h

theorem soundSession_expire (s : SessionState) : SoundSession rt s.expire := fun h => by cases h

/-- A state file stores one policy. -/
theorem Disk.Stores.unique {disk : Disk} {config config' : AppConfig}
    {session session' : SessionState} (h : disk.Stores config session)
    (h' : disk.Stores config' session') : config = config' ∧ session = session' := by
  obtain ⟨value, signature, hfile, hread⟩ := h
  obtain ⟨value', signature', hfile', hread'⟩ := h'
  rw [hfile] at hfile'
  cases hfile'
  rw [hread] at hread'
  cases hread'
  exact ⟨rfl, rfl⟩

theorem PolicyEngine.Synced.lockInv (h : Synced rt e) (hs : SoundSession rt e.session) :
    LockInv rt e :=
  ⟨h.inv, hs, fun _ _ hst => (h.stored.unique hst).2 ▸ hs⟩

theorem LockInv.guarded {α : Type} {m : Exec PyError PolicyEngine α} (h : LockInv rt e)
    (hm : Guarded rt env m) : LockInv rt (m e).2 := by
  rcases hm.cases h.inv.toCoherent with hsame | ⟨hsession, hsync⟩ | ⟨message, -, -, hsession,
    hsame | hsync⟩
  · rwa [hsame]
  · exact hsync.lockInv (hsession ▸ h.session)
  · refine ⟨h.inv.guarded hm, hsession ▸ soundSession_expire _, ?_⟩
    rw [hsame]
    exact h.stored
  · exact hsync.lockInv (hsession ▸ soundSession_expire _)

theorem LockInv.tick (h : LockInv rt e) (hs : env.saveOk = true) :
    LockInv rt (PolicyEngine.tick rt env e).2 := by
  by_cases hx : ∃ message, checkExpiration rt (env.clock 0) e.session =
      (.ok (true, message), e.session.expire)
  · obtain ⟨message, hm⟩ := hx
    obtain ⟨e', heq, hsession, -, hsync⟩ := tick_of_expired h.inv.toCoherent hs hm
    rw [heq]
    exact hsync.lockInv (hsession ▸ soundSession_idle)
  · rw [tick_of_not_expired (not_exists.mp hx)]
    exact h

theorem LockInv.start (h : LockInv rt e) (hs : env.saveOk = true) (hsteady : env.Steady rt)
    (durationStr untilStr domainsArg servicesArg : Json) (companions : Bool) :
    LockInv rt (startFocusSession rt env durationStr untilStr domainsArg servicesArg
      companions e).2 := by
  rcases startFocusSession_run h.inv.toCoherent durationStr untilStr domainsArg servicesArg
    companions with ⟨y, hy⟩ | ⟨expiry, scope, hend, -, hne, -, hsafe, hrun⟩
  · rwa [hy]
  · rw [if_pos hs] at hrun
    obtain ⟨summary, m, hst, hrun⟩ := hrun
    have hfuture : (env.clock 0).micros < expiry.1.micros := sessionEnd_future hsteady hend
    rw [hrun]
    exact (started_synced h.inv.toCoherent hsafe hst).lockInv fun _ =>
      newSession_wellFormed hfuture hne

/-! ## Restarts -/

/-- What is loaded is what the file says, or the defaults. -/
theorem load_cases {m m' : StateManager} {r : PersistentData × Bool}
    (h : load rt env m = (.ok r, m')) :
    (r.1.config = {} ∧ r.1.session = {}) ∨ m.disk.Stores r.1.config r.1.session := by
  cases hfile : m.disk.stateFile with
  | none =>
    left
    unfold load at h
    rw [Exec.bind_of_ok (Exec.get_apply m)] at h
    simp only [hfile] at h
    obtain ⟨u, t, -, hr⟩ := Exec.bind_eq_ok.mp h
    cases hr
    exact ⟨rfl, rfl⟩
  | some content =>
    cases content with
    | unparsable =>
      left
      unfold load at h
      rw [Exec.bind_of_ok (Exec.get_apply m)] at h
      simp only [hfile] at h
      rw [loadFallback_default h]
      exact ⟨rfl, rfl⟩
    | json value =>
      have hdata := load_fileData hfile h
      unfold fileData at hdata
      split at hdata
      · obtain ⟨hconfig, hsession⟩ := Prod.mk.inj (Option.some.inj hdata)
        exact .inl ⟨hconfig.symm, hsession.symm⟩
      · cases hdata
      · next data hread =>
        obtain ⟨hconfig, hsession⟩ := Prod.mk.inj (Option.some.inj hdata)
        right
        rw [← hconfig, ← hsession]
        exact ⟨value, data.hmacSignature, hfile, hread⟩

/-- A restarted engine takes its policy from the state file or from the defaults, and its session
with it unless that has elapsed. -/
theorem startEngine_policy {disk : Disk} (h : startEngine rt env disk = .ok e) :
    ∃ session, ((e.config = {} ∧ session = {}) ∨ disk.Stores e.config session) ∧
      (e.session = {} ∨ e.session = session) := by
  unfold startEngine at h
  simp only [init_eq, create] at h
  rcases hl : load rt env { disk := disk } with ⟨x | data, m⟩
  · rw [hl] at h
    cases h
  rw [hl] at h
  dsimp only at h
  rcases hb : boot rt env ⟨bareSinkhole rt, m, data.1.config, data.1.session⟩ with ⟨x | u, t⟩
  · rw [hb] at h
    cases h
  rw [hb] at h
  cases h
  obtain ⟨hconfig, hsession, -⟩ := boot_settled hb
  refine ⟨data.1.session, hconfig ▸ load_cases hl, ?_⟩
  unfold settled at hsession
  split at hsession
  · exact .inl hsession
  · exact .inr hsession

theorem lockInv_startEngine {disk : Disk} (h : startEngine rt env disk = .ok e)
    (hstored : ∀ config session, disk.Stores config session → SoundSession rt session) :
    LockInv rt e := by
  refine (startEngine_synced h).lockInv ?_
  obtain ⟨session, hsource, hsession⟩ := startEngine_policy h
  have hsound : SoundSession rt session := by
    rcases hsource with ⟨-, rfl⟩ | hst
    · exact soundSession_idle
    · exact hstored e.config session hst
  rcases hsession with hidle | rfl
  · rw [hidle]
    exact soundSession_idle
  · exact hsound

/-! ## Reached daemons -/

namespace Daemon

theorem Step.lockInv {ev : Event} (hr : ev.Regular rt) (hd : LockInv rt d.engine)
    (h : Step rt d ev d') : LockInv rt d'.engine := by
  cases ev with
  | request env request =>
    rw [h.request]
    rcases (IPCServer.handleRequest_effect hr.1 request d).engine with hsame |
      ⟨-, _, m, hm, heq⟩ | ⟨durationStr, untilStr, domainsArg, servicesArg, companions, heq⟩
    · rw [hsame]
      exact hd
    · rw [heq]
      exact hd.guarded hm
    · rw [heq]
      exact hd.start hr.1 hr.2 _ _ _ _ _
  | tick env =>
    rw [h.tick]
    exact hd.tick hr.1
  | restart env => exact lockInv_startEngine h.restart.1 hd.stored

/-- The invariant of every daemon that is reached from a fresh directory. -/
theorem Fresh.lockInv (h : Reachable (Fresh rt) (Step rt) (Event.Regular rt) d) :
    LockInv rt d.engine := by
  refine Reachable.invariant (I := fun d => LockInv rt d.engine) ?_ ?_ h
  · rintro d ⟨env, disk, hfile, he, -⟩
    refine lockInv_startEngine he fun config session hst => ?_
    obtain ⟨value, signature, hvalue, -⟩ := hst
    rw [hfile] at hvalue
    cases hvalue
  · exact fun d ev d' hr hd hst => Step.lockInv hr hd hst

end Daemon

/-- In every daemon that is reached from a fresh directory a locked session is well formed, here
and in the state file. The expiry check and the remaining time do not raise, a reading is never
both before the start and after the end, and a start that is accepted ends after its reading. -/
theorem locked_wellFormed
    (hd : Reachable (Daemon.Fresh rt) (Daemon.Step rt) (Event.Regular rt) d) :
    (d.engine.session.status = .locked → WellFormedLock rt d.engine.session) ∧
    (∀ config session, d.engine.stateManager.disk.Stores config session →
      session.status = .locked → WellFormedLock rt session) ∧
    (∀ now, (∃ r, (checkExpiration rt now d.engine.session).1 = .ok r) ∧
      ∃ rem, getRemainingSeconds rt d.engine.session now = .ok rem) ∧
    (d.engine.session.status = .locked → ∀ now,
      ¬ (rolledBack rt d.engine.session now = .ok true ∧ Elapsed rt d.engine.session now)) ∧
    ∀ (env : CallEnv) (durationStr untilStr domainsArg servicesArg : Json) (companions : Bool)
      (summary : List (Text × Json)) (e' : PolicyEngine), env.Steady rt →
      startFocusSession rt env durationStr untilStr domainsArg servicesArg companions d.engine =
        (.ok summary, e') →
      e'.session.status = .locked ∧ ∃ x, e'.session.LockedUntil rt x ∧ (env.clock 0).micros < x := by
  have hinv := Daemon.Fresh.lockInv hd
  refine ⟨hinv.session, hinv.stored, fun now => ⟨hinv.session.checkExpiration_ok now,
    hinv.session.getRemainingSeconds_ok now⟩, fun hl now => (hinv.session hl).not_both now, ?_⟩
  intro env durationStr untilStr domainsArg servicesArg companions summary e' hsteady hstart
  rcases startFocusSession_run hinv.inv.toCoherent durationStr untilStr domainsArg servicesArg
    companions with ⟨y, hy⟩ | ⟨expiry, scope, hend, -, hne, -, hsafe, hrun⟩
  · rw [hy] at hstart
    cases hstart
  · have hfuture : (env.clock 0).micros < expiry.1.micros := sessionEnd_future hsteady hend
    split at hrun
    · obtain ⟨_, m, -, hrun⟩ := hrun
      rw [hrun] at hstart
      cases hstart
      exact ⟨rfl, _, newSession_lockedUntil rt env expiry scope, hfuture⟩
    · obtain ⟨m, -, hrun⟩ := hrun
      rw [hrun] at hstart
      cases hstart

/-! ## A session of two hours -/

section Example

/-- On an empty directory an idle engine with the defaults comes up. -/
theorem startEngine_empty (rt : Runtime) (env : CallEnv) (hs : env.saveOk = true) :
    ∃ e, startEngine rt env {} = .ok e ∧ e.session = {} ∧ e.config = {} := by
  obtain ⟨m, hm, -⟩ := save_ok rt {} { disk := {} } hs
  have hload : load rt env { disk := {} } = (.ok ({}, true), m) := by
    unfold load
    rw [Exec.bind_of_ok (Exec.get_apply _)]
    exact Exec.bind_of_ok (a := ()) hm
  obtain ⟨allowed, hallowed⟩ : ∃ allowed,
      DomainSinkhole.allowedRules rt ({} : AppConfig).allowedDomains = .ok allowed :=
    ⟨_, allowedRules_eq_ok_iff.mpr ⟨by simp, rfl⟩⟩
  have hidle : ¬ ({} : SessionState).isLocked = true := by decide
  have hboot : boot rt env ⟨bareSinkhole rt, m, {}, {}⟩ = _ := boot_configured hallowed
  have hrec : recoverSession rt env (configured ⟨bareSinkhole rt, m, {}, {}⟩ allowed) = _ :=
    recoverSession_active (checkExpiration_of_not_locked hidle)
  have hc : Coherent rt (configured ⟨bareSinkhole rt, m, {}, {}⟩ allowed) :=
    ⟨rfl, rfl, hallowed, by simp [configured], fun hl => by cases hl⟩
  refine ⟨refreshed rt (configured ⟨bareSinkhole rt, m, {}, {}⟩ allowed), ?_, rfl, rfl⟩
  exact startEngine_of_boot hload
    (hboot.trans ((Exec.bind_of_ok hrec).trans (refreshSinkhole_eq hc)))

/-- A request for two hours without YouTube. -/
def startRequest : Json := .obj [("action", .str "start"),
  ("params", .obj [("duration", .str "2h"), ("domains", .arr [.str "youtube.com"])])]

theorem envAt_steady (rt : Runtime) (now : Instant) : (envAt now).Steady rt :=
  ⟨fun _ _ _ => le_rfl, fun _ _ => rfl⟩

theorem exists_locked_daemon : ∃ d,
    Reachable (Daemon.Fresh asciiRuntime) (Daemon.Step asciiRuntime) (Event.Regular asciiRuntime) d ∧
      d.engine.session.status = .locked := by
  obtain ⟨e, he, hsession, hconfig⟩ := startEngine_empty asciiRuntime (envAt ten) rfl
  have hfresh : Daemon.Fresh asciiRuntime ⟨e, []⟩ := ⟨envAt ten, {}, rfl, he, rfl⟩
  have hstep : Daemon.Step asciiRuntime ⟨e, []⟩ (.request (requestAt ten) startRequest)
      (IPCServer.handleRequest asciiRuntime (requestAt ten) startRequest ⟨e, []⟩).2 := rfl
  refine ⟨_, Reachable.run (.init hfresh) (.single hstep) ?_, ?_⟩
  · intro ev hev
    obtain rfl := List.mem_singleton.mp hev
    exact ⟨rfl, envAt_steady _ _⟩
  have hrequested : requested startRequest = some (.start,
      .obj [("duration", .str "2h"), ("domains", .arr [.str "youtube.com"])]) := rfl
  have hengine : (IPCServer.handleRequest asciiRuntime (requestAt ten) startRequest
      ⟨e, []⟩).2.engine = (startFocusSession asciiRuntime (envAt ten) (.str "2h") .null
        (.arr [.str "youtube.com"]) .null true e).2 := by
    rw [IPCServer.handleRequest_of_requested hrequested]
    exact congrArg Daemon.engine (IPCServer.onEngine_reply _ _ _)
  have hend : sessionEnd asciiRuntime (envAt ten) (.str "2h") .null ((envAt ten).clock 0) =
      .ok (twelve, 7200) := rfl
  have hscope : sessionScope asciiRuntime e.config (.arr [.str "youtube.com"]) .null true =
      .ok ("youtube.com" :: getCompanionDomains asciiRuntime "youtube.com", []) := by
    rw [hconfig]
    rfl
  have hrem : getRemainingSeconds asciiRuntime e.session ((envAt ten).clock 0) = .ok 0 := by
    rw [hsession]
    rfl
  obtain ⟨-, ⟨summary, m, -, hrun⟩, -⟩ := startFocusSession_accepted
    (startEngine_synced he).toCoherent (.str "2h") .null (.arr [.str "youtube.com"]) .null true
    hend hscope (by simp) hrem
  rw [hengine]
  exact congrArg (fun r => r.2.session.status) hrun

/-- The session of that request is well formed. -/
theorem locked_wellFormed_two_hours : ∃ d : Daemon, d.engine.session.status = .locked ∧
    WellFormedLock asciiRuntime d.engine.session := by
  obtain ⟨d, hd, hl⟩ := exists_locked_daemon
  exact ⟨d, hl, (locked_wellFormed hd).1 hl⟩

end Example

end FocusGuard

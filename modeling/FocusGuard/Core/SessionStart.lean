import FocusGuard.Core.PolicyInvariant

/-!
# Starting a session

Both ways to name the end of a session lead to an instant after the request was read: a duration
is positive, and a clock time that has passed today is taken for tomorrow. A start that gets past
its checks replaces the session, refreshes the sinkhole and saves, and only the save can still
raise.

## Main results

* `sessionEnd_future`: an accepted end is after the reading that the session is created at.
* `startFocusSession_run`: what a start does to a coherent engine.
* `startFocusSession_cases`: it changes nothing or leaves a synced engine.
-/

namespace FocusGuard

open Calendar PolicyEngine

/-- Within one call the readings do not go back and the local offset does not change. -/
def CallEnv.Steady (rt : Runtime) (env : CallEnv) : Prop :=
  (∀ i j, i ≤ j → (env.clock i).micros ≤ (env.clock j).micros) ∧
    ∀ i j, rt.localOffset (env.clock i).micros = rt.localOffset (env.clock j).micros

/-- The same call where the state file can be written, or where it cannot. -/
def CallEnv.withDisk (env : CallEnv) (saveOk : Bool) : CallEnv := { env with saveOk := saveOk }

/-- The session that a start puts in force. -/
def newSession (env : CallEnv) (expiry : Instant × Int) (scope : List Text × List Text) :
    SessionState where
  status := .locked
  sessionId := some env.sessionId
  createdAtUtc := some (isoformat (env.clock 0))
  expiresAtUtc := some (isoformat expiry.1)
  durationSeconds := expiry.2
  sessionDomains := Text.sorted scope.1
  sessionServices := Text.sorted scope.2
  bootId := some env.bootId

variable {rt : Runtime} {env : CallEnv} {now x : Instant}

/-! ## The end of a session -/

theorem ofMicros_eq_some {u : Int} {t : Instant} (h : ofMicros u = some t) : t.micros = u := by
  unfold ofMicros at h
  split at h
  · cases h
    rfl
  · cases h

theorem toInstant_eq_ok {u : Int} {t : Instant} (h : toInstant u = .ok t) : t.micros = u := by
  unfold toInstant at h
  split at h
  · next hu =>
    cases h
    exact ofMicros_eq_some hu
  · cases h

/-- A duration is never zero. -/
theorem parseDurationToSeconds_pos {t : Text} {n : Nat} (h : parseDurationToSeconds rt t = .ok n) :
    0 < n := by
  simp only [parseDurationToSeconds] at h
  split at h
  · cases h
  split at h
  · split at h
    · cases h
    · split at h
      · cases h
      · cases h
        omega
  · split at h
    · split at h
      · cases h
      · split at h
        · cases h
        · cases h
          omega
    · cases h

/-- A time of day is the next one on the local clock. -/
theorem parseUntilClock_future {untilStr clean : Text} {localNow zoneNow : Instant}
    (hoffset : rt.localOffset localNow.micros = rt.localOffset zoneNow.micros)
    (h : parseUntilClock rt untilStr clean localNow zoneNow = .ok x) :
    localNow.micros < x.micros := by
  simp only [parseUntilClock] at h
  split at h
  · split at h
    · cases h
    · next parts hparts =>
      have hday : (localNow.micros + rt.localOffset zoneNow.micros) % microsPerDay < microsPerDay :=
        Int.emod_lt_of_pos _ (by decide)
      have hsplit :=
        Int.emod_add_mul_ediv (localNow.micros + rt.localOffset zoneNow.micros) microsPerDay
      rw [hoffset] at h
      generalize rt.localOffset zoneNow.micros = offset at h hday hsplit
      split_ifs at h with hvalid hle
      all_goals
        have hx := toInstant_eq_ok h
        grind
  · cases h

theorem parseUntilToUtc_future {untilStr : Text} {localNow zoneNow : Instant}
    (hnow : now.micros ≤ localNow.micros)
    (hoffset : rt.localOffset localNow.micros = rt.localOffset zoneNow.micros)
    (h : parseUntilToUtc rt untilStr now localNow zoneNow = .ok x) : now.micros < x.micros := by
  unfold parseUntilToUtc at h
  split at h
  · cases h
  · next dt hiso =>
    cases h
    unfold parseUntilIso at hiso
    grind
  · exact hnow.trans_lt (parseUntilClock_future hoffset h)

/-- An accepted end is after the reading that the session is created at. -/
theorem sessionEnd_future {durationStr untilStr : Json} {d : Int} (hsteady : env.Steady rt)
    (h : sessionEnd rt env durationStr untilStr (env.clock 0) = .ok (x, d)) :
    (env.clock 0).micros < x.micros := by
  unfold sessionEnd at h
  split at h
  · split at h
    · next t =>
      split at h
      · cases h
      · next hu =>
        cases h
        exact parseUntilToUtc_future (hsteady.1 0 1 (by decide)) (hsteady.2 1 2) hu
    · cases h
  · split at h
    · split at h
      · next t =>
        split at h
        · cases h
        · next seconds hd =>
          have hpos := parseDurationToSeconds_pos hd
          split at h
          · cases h
          · next ha =>
            cases h
            unfold addSeconds at ha
            split at ha
            · next hu =>
              cases ha
              have := ofMicros_eq_some hu
              omega
            · cases ha
      · cases h
    · cases h

/-! ## The session that is put in force -/

section Start

variable {expiry : Instant × Int} {scope : List Text × List Text}

theorem newSession_lockedUntil (rt : Runtime) (env : CallEnv) (expiry : Instant × Int)
    (scope : List Text × List Text) :
    (newSession env expiry scope).LockedUntil rt expiry.1.micros :=
  ⟨rfl, by simp [awareMicros, newSession]⟩

theorem getSummary_of_lockedUntil {s : SessionState} {u : Int} (h : s.LockedUntil rt u)
    (now : Instant) : ∃ summary, getSummary rt s now = .ok summary := by
  rw [getSummary, getRemainingSeconds_of_locked h]
  exact ⟨_, rfl⟩

/-- Where no time remains the new session replaces the old one. -/
theorem startSession_of_elapsed (rt : Runtime) (env : CallEnv) (expiry : Instant × Int)
    (scope : List Text × List Text) {s : SessionState}
    (h : getRemainingSeconds rt s (env.clock 0) = .ok 0) :
    startSession rt env expiry.1 expiry.2 (Text.sorted scope.1) (Text.sorted scope.2)
      (env.clock 0) s = (.ok (), newSession env expiry scope) := by
  unfold startSession
  rw [Exec.bind_of_ok (Exec.get_apply s), h, Exec.bind_of_ok (Exec.ofExcept_apply _ s),
    if_neg (by simp)]
  rfl

/-- Otherwise it raises. -/
theorem startSession_refused (env : CallEnv) (expiry : Instant × Int)
    (scope : List Text × List Text) {s : SessionState}
    (h : getRemainingSeconds rt s (env.clock 0) ≠ .ok 0) :
    ∃ y, startSession rt env expiry.1 expiry.2 (Text.sorted scope.1) (Text.sorted scope.2)
      (env.clock 0) s = (.error y, s) := by
  unfold startSession
  rw [Exec.bind_of_ok (Exec.get_apply s)]
  cases hr : getRemainingSeconds rt s (env.clock 0) with
  | error y => exact ⟨y, rfl⟩
  | ok rem =>
    have hl : s.isLocked = true := by
      by_contra hl
      rw [getRemainingSeconds, if_pos (.inl hl)] at h
      exact h rfl
    have hpos : 0 < rem := by
      have := getRemainingSeconds_nonneg hr
      grind
    rw [Exec.bind_of_ok (Exec.ofExcept_apply _ s), if_pos ⟨hl, hpos⟩]
    exact ⟨_, rfl⟩

namespace PolicyEngine

variable {e : PolicyEngine}

/-- The engine after a start: the new session with its rules in force. -/
def started (rt : Runtime) (e : PolicyEngine) (t : SessionState) (m : StateManager) :
    PolicyEngine :=
  { refreshed rt { e with session := t } with stateManager := m }

theorem started_synced {t : SessionState} {m : StateManager} (he : Coherent rt e)
    (hsafe : Safe rt e.config t) (hst : m.disk.Stores e.config t) : Synced rt (started rt e t m) :=
  ⟨⟨he.blockDoh, he.allowlistMode, he.allowed, hsafe⟩, rfl, hst⟩

section Run

variable (he : Coherent rt e) (durationStr untilStr domainsArg servicesArg : Json)
  (companions : Bool)

include he

/-- Up to the save the disk plays no part. -/
theorem startFocusSession_saves (ok : Bool)
    (hend : sessionEnd rt env durationStr untilStr (env.clock 0) = .ok expiry)
    (hscope : sessionScope rt e.config domainsArg servicesArg companions = .ok scope)
    (hne : scope.1 ≠ []) (hrem : getRemainingSeconds rt e.session (env.clock 0) = .ok 0)
    (hsafe : Safe rt e.config (newSession env expiry scope)) :
    startFocusSession rt (env.withDisk ok) durationStr untilStr domainsArg servicesArg companions
      e = (saveState rt (env.withDisk ok) >>= fun _ => Exec.get >>= fun e =>
        Exec.ofExcept (getSummary rt e.session (env.clock 3)))
          (refreshed rt { e with session := newSession env expiry scope }) := by
  have hc : Coherent rt { e with session := newSession env expiry scope } :=
    ⟨he.blockDoh, he.allowlistMode, he.allowed, hsafe⟩
  have hstart : startSession rt (env.withDisk ok) expiry.1 expiry.2 (Text.sorted scope.1)
      (Text.sorted scope.2) ((env.withDisk ok).clock 0) e.session =
        (.ok (), newSession env expiry scope) := startSession_of_elapsed rt env expiry scope hrem
  unfold startFocusSession
  refine (Exec.bind_of_ok ((Exec.ofExcept_apply _ e).trans (congrArg (·, e) hend))).trans ?_
  rw [Exec.bind_of_ok (Exec.get_apply e),
    Exec.bind_of_ok ((Exec.ofExcept_apply _ e).trans (congrArg (·, e) hscope)), if_neg hne,
    Exec.bind_of_ok (onSession_eq hstart), Exec.bind_of_ok (refreshSinkhole_eq hc)]
  rfl

/-- A start that is accepted puts the new session and its rules in force, and raises only where
the state cannot be saved. -/
theorem startFocusSession_accepted
    (hend : sessionEnd rt env durationStr untilStr (env.clock 0) = .ok expiry)
    (hscope : sessionScope rt e.config domainsArg servicesArg companions = .ok scope)
    (hne : scope.1 ≠ []) (hrem : getRemainingSeconds rt e.session (env.clock 0) = .ok 0) :
    Safe rt e.config (newSession env expiry scope) ∧
      (∃ summary m, m.disk.Stores e.config (newSession env expiry scope) ∧
        startFocusSession rt (env.withDisk true) durationStr untilStr domainsArg servicesArg
          companions e = (.ok summary, started rt e (newSession env expiry scope) m)) ∧
      ∃ m, m.disk.stateFile = e.stateManager.disk.stateFile ∧
        startFocusSession rt (env.withDisk false) durationStr untilStr domainsArg servicesArg
          companions e = (.error .osError, started rt e (newSession env expiry scope) m) := by
  have hsafe : Safe rt e.config (newSession env expiry scope) := by
    refine ⟨he.safe.permanent, fun _ d hd => ?_⟩
    exact sessionScope_ruleSafe he.safe.permanent hscope d (Text.mem_sorted.mp hd)
  have hrun := fun ok => startFocusSession_saves he durationStr untilStr domainsArg servicesArg
    companions ok hend hscope hne hrem hsafe
  refine ⟨hsafe, ?_, ?_⟩
  · obtain ⟨m, hm, hst⟩ := save_ok rt
      { config := e.config, session := newSession env expiry scope } e.stateManager
      (show (env.withDisk true).saveOk = true from rfl)
    have hsave : saveState rt (env.withDisk true)
        (refreshed rt { e with session := newSession env expiry scope }) =
          (.ok (), started rt e (newSession env expiry scope) m) := saveState_eq hm
    obtain ⟨summary, hsum⟩ := getSummary_of_lockedUntil
      (newSession_lockedUntil rt env expiry scope) (env.clock 3)
    refine ⟨summary, m, hst, (hrun true).trans ?_⟩
    rw [Exec.bind_of_ok hsave]
    refine (Exec.bind_of_ok (Exec.get_apply _)).trans ?_
    exact congrArg (·, started rt e (newSession env expiry scope) m) hsum
  · obtain ⟨m, hm, hfile⟩ := save_error rt
      { config := e.config, session := newSession env expiry scope } e.stateManager
      (show ¬ (env.withDisk false).saveOk = true from Bool.false_ne_true)
    have hsave : saveState rt (env.withDisk false)
        (refreshed rt { e with session := newSession env expiry scope }) =
          (.error .osError, started rt e (newSession env expiry scope) m) := saveState_eq hm
    exact ⟨m, hfile, (hrun false).trans (Exec.bind_of_error hsave)⟩

omit he in
/-- A start whose end or scope is not accepted, or that meets a session with time left, raises and
changes nothing. -/
theorem startFocusSession_rejected (h : ∀ expiry scope,
    sessionEnd rt env durationStr untilStr (env.clock 0) = .ok expiry →
    sessionScope rt e.config domainsArg servicesArg companions = .ok scope → scope.1 ≠ [] →
    getRemainingSeconds rt e.session (env.clock 0) ≠ .ok 0) :
    ∃ y, ∀ ok, startFocusSession rt (env.withDisk ok) durationStr untilStr domainsArg servicesArg
      companions e = (.error y, e) := by
  have hsame : ∀ ok, sessionEnd rt (env.withDisk ok) durationStr untilStr
      ((env.withDisk ok).clock 0) = sessionEnd rt env durationStr untilStr (env.clock 0) :=
    fun ok => rfl
  unfold startFocusSession
  simp only [hsame]
  cases hend : sessionEnd rt env durationStr untilStr (env.clock 0) with
  | error y => exact ⟨y, fun _ => rfl⟩
  | ok expiry =>
    cases hscope : sessionScope rt e.config domainsArg servicesArg companions with
    | error y =>
      refine ⟨y, fun _ => ?_⟩
      rw [Exec.bind_of_ok (Exec.ofExcept_apply _ e), Exec.bind_of_ok (Exec.get_apply e), hscope]
      rfl
    | ok scope =>
      by_cases hne : scope.1 = []
      · refine ⟨.valueError "No valid domains or services specified for focus session.",
          fun _ => ?_⟩
        rw [Exec.bind_of_ok (Exec.ofExcept_apply _ e), Exec.bind_of_ok (Exec.get_apply e), hscope,
          Exec.bind_of_ok (Exec.ofExcept_apply _ e), if_pos hne]
        rfl
      · obtain ⟨y, hy⟩ := startSession_refused env expiry scope (h expiry scope hend hscope hne)
        refine ⟨y, fun ok => ?_⟩
        have hstart : startSession rt (env.withDisk ok) expiry.1 expiry.2 (Text.sorted scope.1)
            (Text.sorted scope.2) ((env.withDisk ok).clock 0) e.session = (.error y, e.session) := hy
        rw [Exec.bind_of_ok (Exec.ofExcept_apply _ e), Exec.bind_of_ok (Exec.get_apply e), hscope,
          Exec.bind_of_ok (Exec.ofExcept_apply _ e), if_neg hne,
          Exec.bind_of_error (onSession_eq hstart)]

/-- What a start does: it raises and changes nothing, or it is accepted. -/
theorem startFocusSession_run :
    (∃ y, startFocusSession rt env durationStr untilStr domainsArg servicesArg companions e =
      (.error y, e)) ∨
    ∃ expiry scope, sessionEnd rt env durationStr untilStr (env.clock 0) = .ok expiry ∧
      sessionScope rt e.config domainsArg servicesArg companions = .ok scope ∧ scope.1 ≠ [] ∧
      getRemainingSeconds rt e.session (env.clock 0) = .ok 0 ∧
      Safe rt e.config (newSession env expiry scope) ∧
      if env.saveOk = true then
        ∃ summary m, m.disk.Stores e.config (newSession env expiry scope) ∧
          startFocusSession rt env durationStr untilStr domainsArg servicesArg companions e =
            (.ok summary, started rt e (newSession env expiry scope) m)
      else
        ∃ m, m.disk.stateFile = e.stateManager.disk.stateFile ∧
          startFocusSession rt env durationStr untilStr domainsArg servicesArg companions e =
            (.error .osError, started rt e (newSession env expiry scope) m) := by
  by_cases h : ∀ expiry scope,
      sessionEnd rt env durationStr untilStr (env.clock 0) = .ok expiry →
      sessionScope rt e.config domainsArg servicesArg companions = .ok scope → scope.1 ≠ [] →
      getRemainingSeconds rt e.session (env.clock 0) ≠ .ok 0
  · obtain ⟨y, hy⟩ :=
      startFocusSession_rejected durationStr untilStr domainsArg servicesArg companions h
    exact .inl ⟨y, hy env.saveOk⟩
  · push Not at h
    obtain ⟨expiry, scope, hend, hscope, hne, hrem⟩ := h
    obtain ⟨hsafe, hwritten, hunwritten⟩ :=
      startFocusSession_accepted he _ _ _ _ _ hend hscope hne hrem
    refine .inr ⟨expiry, scope, hend, hscope, hne, hrem, hsafe, ?_⟩
    cases hs : env.saveOk with
    | true =>
      rw [show env.withDisk true = env by rw [← hs]; rfl] at hwritten
      simpa using hwritten
    | false =>
      rw [show env.withDisk false = env by rw [← hs]; rfl] at hunwritten
      simpa using hunwritten

end Run

/-- A start changes nothing, or leaves a synced engine in a new locked session. -/
theorem startFocusSession_cases (he : Coherent rt e) (hs : env.saveOk = true)
    (durationStr untilStr domainsArg servicesArg : Json) (companions : Bool) :
    (startFocusSession rt env durationStr untilStr domainsArg servicesArg companions e).2 = e ∨
    ((startFocusSession rt env durationStr untilStr domainsArg servicesArg companions
        e).2.session.isLocked = true ∧
      Synced rt (startFocusSession rt env durationStr untilStr domainsArg servicesArg
        companions e).2) := by
  rcases startFocusSession_run he durationStr untilStr domainsArg servicesArg companions with
    ⟨y, hy⟩ | ⟨expiry, scope, -, -, -, -, hsafe, hrun⟩
  · rw [hy]
    exact .inl rfl
  · rw [if_pos hs] at hrun
    obtain ⟨summary, m, hst, hrun⟩ := hrun
    rw [hrun]
    exact .inr ⟨rfl, started_synced he hsafe hst⟩

end PolicyEngine

end Start

end FocusGuard

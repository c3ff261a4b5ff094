import FocusGuard.Service.LockSafety

/-!
# A restart does what a heartbeat does

The constructor and the heartbeat recover a session in two separately written ways. On the
files of a running engine both come to the same policy, and where one raises so does the
other.
-/

namespace FocusGuard

open PolicyEngine

variable {rt : Runtime}

/-- What an engine enforces: its configuration, session, and blocked and allowed rules. -/
def PolicyEngine.policy (e : PolicyEngine) :
    AppConfig × SessionState × Finset Key × Finset Key :=
  (e.config, e.session, e.sinkhole.blockedTrees, e.sinkhole.allowedTrees)

/-- The policy after a run that may have raised. -/
def policyAfter {α : Type} (r : Except PyError α × PolicyEngine) :
    Except PyError (AppConfig × SessionState × Finset Key × Finset Key) :=
  r.1.map fun _ => r.2.policy

theorem startEngine_eq_tick {e : PolicyEngine} (he : Synced rt e) (env : CallEnv) :
    (startEngine rt env e.stateManager.disk).map policy = policyAfter (tick rt env e) := by
  rcases checkExpiration_cases rt e.session (env.clock 0) with ⟨x, hx⟩ | ⟨m, hx⟩ | ⟨-, m, hx⟩
  · rw [startEngine_error he.stored he.allowed hx, tick_of_error hx]
    rfl
  · obtain ⟨t, ht⟩ := startEngine_active he.stored he.allowed he.safe hx
    rw [ht, he.inForce_eq, tick_of_active hx]
    rfl
  · have hstart := startEngine_expired he.stored he.allowed he.safe.permanent hx
    by_cases hs : env.saveOk = true
    · rw [if_pos hs] at hstart
      obtain ⟨t, ht⟩ := hstart
      obtain ⟨e', htick, hsession, hconfig, hsync⟩ := tick_of_expired he.toCoherent hs hx
      have hallowed : e'.sinkhole.allowedTrees = e.sinkhole.allowedTrees := by
        have h := hsync.allowed
        rw [hconfig, he.allowed, Except.ok.injEq] at h
        exact h.symm
      have hpolicy : (inForce rt e.config {} e.sinkhole.allowedTrees t).policy = e'.policy := by
        simp only [policy, hsync.blocked, hconfig, hsession, hallowed]
        rfl
      rw [ht, htick]
      exact congrArg Except.ok hpolicy
    · rw [if_neg hs] at hstart
      have htick := tick_of_expired_unsaved he.toCoherent hs hx
      rw [hstart, policyAfter, htick]
      rfl

/-- For every reached engine whose session is idle or locked, starting anew from the files
on disk gives the policy that a heartbeat at the same reading gives. -/
theorem restart_eq_tick {d : Daemon} (hd : Daemon.Reached rt d)
    (hs : d.engine.session.status = .idle ∨ d.engine.session.status = .locked) (env : CallEnv) :
    (startEngine rt env d.engine.stateManager.disk).map policy =
      policyAfter (tick rt env d.engine) := by
  have hne : d.engine.session.status ≠ .expired := by
    rcases hs with h | h
    · rw [h]
      decide
    · rw [h]
      decide
  exact startEngine_eq_tick (hd.inv.synced hne) env

/-- At twelve the session of the morning is gone either way. -/
theorem restart_eq_tick_at_twelve : ∃ d : Daemon, d.engine.session = morningSession ∧
    (startEngine asciiRuntime (envAt twelve) d.engine.stateManager.disk).map policy =
      policyAfter (tick asciiRuntime (envAt twelve) d.engine) := by
  obtain ⟨d, hd, hsession, -⟩ := exists_morning_daemon asciiRuntime
  refine ⟨d, hsession, restart_eq_tick hd (.inr ?_) (envAt twelve)⟩
  rw [hsession]
  rfl

end FocusGuard

import FocusGuard.Service.LockSafety

/-!
# State files whose signature does not verify

`load` reports whether the signature verifies, and the constructor drops the report. What
comes up is therefore what the file says, and two files bring up the same policy exactly
when they say the same.
-/

namespace FocusGuard

open Calendar PolicyEngine

variable {rt : Runtime} {env : CallEnv} {e e₁ e₂ : PolicyEngine}

/-- What a parsed state file says, whatever its signature: the defaults when reading it
raises, `none` when a member has another type than its record declares. -/
def fileData (value : Json) : Option (AppConfig × SessionState) :=
  match readState value with
  | none => some ({}, {})
  | some none => none
  | some (some data) => some (data.config, data.session)

/-- The session after the expiry check of the constructor. -/
def settled (rt : Runtime) (now : Instant) (s : SessionState) : SessionState :=
  match (checkExpiration rt now s).1 with
  | .ok (true, _) => {}
  | _ => s

/-- Two files say the same at a reading: the same configuration, the same session status once
an expired session is left out, and session domains that amount to the same rules. -/
def Agree (rt : Runtime) (now : Instant) (value₁ value₂ : Json) : Prop :=
  ∃ config session₁ session₂,
    fileData value₁ = some (config, session₁) ∧ fileData value₂ = some (config, session₂) ∧
    (settled rt now session₁).status = (settled rt now session₂).status ∧
    activeRules rt config (settled rt now session₁) =
      activeRules rt config (settled rt now session₂)

theorem boot_settled {e' : PolicyEngine} (h : boot rt env e = (.ok (), e')) :
    e'.config = e.config ∧ e'.session = settled rt (env.clock 0) e.session ∧
      e'.sinkhole.blockedTrees =
        activeRules rt e.config (settled rt (env.clock 0) e.session) := by
  obtain ⟨allowed, e₁, -, hrec, hrefresh⟩ := of_boot_ok h
  rcases checkExpiration_cases rt e.session (env.clock 0) with ⟨x, hx⟩ | ⟨m, hx⟩ | ⟨-, m, hx⟩
  · rw [recoverSession_error (e := configured e allowed) hx] at hrec
    cases hrec
  · rw [recoverSession_active (e := configured e allowed) hx] at hrec
    cases hrec
    obtain ⟨-, rfl⟩ := refreshSinkhole_ok rfl hrefresh
    rw [settled, hx]
    exact ⟨rfl, rfl, rfl⟩
  · rw [recoverSession_expired (e := configured e allowed) hx] at hrec
    obtain ⟨t, -, rfl⟩ := saveState_ok hrec
    obtain ⟨-, rfl⟩ := refreshSinkhole_ok rfl hrefresh
    rw [settled, hx]
    exact ⟨rfl, rfl, rfl⟩

theorem load_fileData {value : Json} {m m' : StateManager} {r : PersistentData × Bool}
    (hfile : m.disk.stateFile = some (.json value)) (h : load rt env m = (.ok r, m')) :
    fileData value = some (r.1.config, r.1.session) := by
  unfold load at h
  rw [Exec.bind_of_ok (Exec.get_apply m)] at h
  simp only [hfile] at h
  unfold fileData
  match hread : readState value with
  | none =>
    simp only [hread] at h
    rw [loadFallback_default h]
  | some none =>
    simp only [hread] at h
    cases h
  | some (some data) =>
    simp only [hread] at h
    obtain ⟨expected, key, secretFile, -, hmac⟩ := calculateHmac_ok rt env value.members m
    rw [Exec.bind_of_ok hmac] at h
    cases h
    rfl

section Example

end Example

end FocusGuard

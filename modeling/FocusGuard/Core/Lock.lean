import FocusGuard.Core.Session

/-!
# What the guards do to a session

Every guard leaves the session as it is, except that the expiry check may mark a locked one
as expired. Before the expiry time the guards refuse.
-/

namespace FocusGuard

open Calendar

variable {rt : Runtime}

namespace SessionState

/-- The session once it is marked as expired. -/
def expire (s : SessionState) : SessionState := { s with status := .expired }

/-- The session is locked until `u`. -/
structure LockedUntil (rt : Runtime) (s : SessionState) (u : Int) : Prop where
  locked : s.isLocked = true
  expires : awareMicros rt (s.expiresAtUtc.getD []) = .ok u

theorem status_of_isLocked {s : SessionState} (h : s.isLocked = true) : s.status = .locked := by
  simpa [isLocked] using h

@[simp] theorem isLocked_expire (s : SessionState) : s.expire.isLocked = false := rfl

end SessionState

open SessionState

variable {s : SessionState} {now : Instant} {clock : Nat → Instant} {u : Int}

/-! ## The expiry check -/

theorem checkExpiration_of_not_locked (h : ¬ s.isLocked = true) :
    checkExpiration rt now s = (.ok (false, "Not locked"), s) := by
  rw [checkExpiration, if_pos h]

theorem checkExpiration_cases (rt : Runtime) (s : SessionState) (now : Instant) :
    (∃ e, checkExpiration rt now s = (.error e, s)) ∨
    (∃ message, checkExpiration rt now s = (.ok (false, message), s)) ∨
    (s.isLocked = true ∧ ∃ message, checkExpiration rt now s = (.ok (true, message), s.expire)) := by
  by_cases hl : s.isLocked = true
  · unfold checkExpiration
    rw [if_neg (not_not.mpr hl)]
    split
    · exact .inl ⟨_, rfl⟩
    · exact .inr (.inl ⟨_, rfl⟩)
    · split
      · exact .inl ⟨_, rfl⟩
      · split
        · exact .inr (.inr ⟨hl, _, rfl⟩)
        · exact .inr (.inl ⟨_, rfl⟩)
  · exact .inr (.inl ⟨_, checkExpiration_of_not_locked hl⟩)

/-- Before the expiry time nothing expires. -/
theorem checkExpiration_before (h : s.LockedUntil rt u) (hnow : now.micros < u) :
    (∃ e, checkExpiration rt now s = (.error e, s)) ∨
    (∃ message, checkExpiration rt now s = (.ok (false, message), s)) := by
  unfold checkExpiration
  rw [if_neg (not_not.mpr h.locked)]
  split
  · exact .inl ⟨_, rfl⟩
  · exact .inr ⟨_, rfl⟩
  · simp only [h.expires, if_neg (not_le.mpr hnow)]
    exact .inr ⟨_, rfl⟩

/-- Between the creation and the expiry time the session is still active. -/
theorem checkExpiration_active (h : s.LockedUntil rt u) (hcreated : rolledBack rt s now = .ok false)
    (hnow : now.micros < u) : ∃ message, checkExpiration rt now s = (.ok (false, message), s) := by
  unfold checkExpiration
  rw [if_neg (not_not.mpr h.locked)]
  simp only [hcreated, h.expires, if_neg (not_le.mpr hnow)]
  exact ⟨_, rfl⟩

/-- From the expiry time on, and not before the creation time, the session expires. -/
theorem checkExpiration_after (h : s.LockedUntil rt u) (hcreated : rolledBack rt s now = .ok false)
    (hnow : u ≤ now.micros) :
    ∃ message, checkExpiration rt now s = (.ok (true, message), s.expire) := by
  unfold checkExpiration
  rw [if_neg (not_not.mpr h.locked)]
  simp only [hcreated, h.expires, if_pos hnow]
  exact ⟨_, rfl⟩

theorem of_checkExpiration_true {message : Text} {t : SessionState}
    (h : checkExpiration rt now s = (.ok (true, message), t)) :
    s.isLocked = true ∧ t = s.expire := by
  rcases checkExpiration_cases rt s now with ⟨e, he⟩ | ⟨m, hm⟩ | ⟨hl, m, hm⟩
  · rw [he] at h
    cases h
  · rw [hm] at h
    cases h
  · rw [hm] at h
    cases h
    exact ⟨hl, rfl⟩

/-- What a successful expiry check has found. -/
theorem checkExpiration_true {message : Text} {t : SessionState}
    (h : checkExpiration rt now s = (.ok (true, message), t)) :
    rolledBack rt s now = .ok false ∧
      ∃ u, awareMicros rt (s.expiresAtUtc.getD []) = .ok u ∧ u ≤ now.micros := by
  have hl := (of_checkExpiration_true h).1
  unfold checkExpiration at h
  rw [if_neg (not_not.mpr hl)] at h
  split at h
  · cases h
  · cases h
  · next hback =>
    split at h
    · cases h
    · next u hu =>
      by_cases hle : u ≤ now.micros
      · exact ⟨hback, u, hu, hle⟩
      · rw [if_neg hle] at h
        cases h

/-! ## The remaining time -/

theorem getRemainingSeconds_nonneg {rem : Int} (h : getRemainingSeconds rt s now = .ok rem) :
    0 ≤ rem := by
  unfold getRemainingSeconds at h
  split at h
  · cases h
    exact le_rfl
  · split at h
    · cases h
    · cases h
      exact le_max_left _ _

/-- An expiry time is never the empty text. -/
theorem SessionState.LockedUntil.expires_ne_nil (h : s.LockedUntil rt u) :
    s.expiresAtUtc.getD [] ≠ [] := by
  intro hnil
  have := h.expires
  rw [hnil, awareMicros, rt.fromisoformat_nil] at this
  cases this

theorem getRemainingSeconds_of_locked (h : s.LockedUntil rt u) (now : Instant) :
    getRemainingSeconds rt s now = .ok (max 0 (u - now.micros)) := by
  rw [getRemainingSeconds, if_neg (by simp [h.locked, h.expires_ne_nil]), h.expires]

/-! ## The guard -/

theorem assertNotLocked_of_not_locked (h : ¬ s.isLocked = true) :
    assertNotLocked rt clock s = (.ok (), s) := by
  unfold assertNotLocked
  rw [Exec.bind_of_ok (Exec.get_apply s), if_neg h]
  rfl

theorem assertNotLocked_of_remaining {rem : Int} (hl : s.isLocked = true)
    (hr : getRemainingSeconds rt s (clock 0) = .ok rem) (hrem : 0 < rem) :
    assertNotLocked rt clock s = (.error (lockedError s rem), s) := by
  unfold assertNotLocked
  rw [Exec.bind_of_ok (Exec.get_apply s), if_pos hl,
    Exec.bind_of_ok (by rw [hr, Exec.ofExcept_apply]), if_pos hrem]
  rfl

theorem assertNotLocked_of_elapsed {rem : Int} (hl : s.isLocked = true)
    (hr : getRemainingSeconds rt s (clock 0) = .ok rem) (hrem : ¬ 0 < rem) :
    assertNotLocked rt clock s =
      ((checkExpiration rt (clock 1) s).1.map fun _ => (), (checkExpiration rt (clock 1) s).2) := by
  unfold assertNotLocked
  rw [Exec.bind_of_ok (Exec.get_apply s), if_pos hl,
    Exec.bind_of_ok (by rw [hr, Exec.ofExcept_apply]), if_neg hrem, Exec.bind_apply]
  match checkExpiration rt (clock 1) s with
  | (.ok r, t) => rfl
  | (.error e, t) => rfl

/-- The guard refuses, lets the call through, or lets it through and marks the session. -/
theorem assertNotLocked_cases (rt : Runtime) (s : SessionState) (clock : Nat → Instant) :
    (∃ e, assertNotLocked rt clock s = (.error e, s)) ∨
    assertNotLocked rt clock s = (.ok (), s) ∨
    (s.isLocked = true ∧ getRemainingSeconds rt s (clock 0) = .ok 0 ∧
      (∃ message, checkExpiration rt (clock 1) s = (.ok (true, message), s.expire)) ∧
      assertNotLocked rt clock s = (.ok (), s.expire)) := by
  by_cases hl : s.isLocked = true
  · match hr : getRemainingSeconds rt s (clock 0) with
    | .error e =>
      refine .inl ⟨e, ?_⟩
      unfold assertNotLocked
      rw [Exec.bind_of_ok (Exec.get_apply s), if_pos hl,
        Exec.bind_of_error (by rw [hr, Exec.ofExcept_apply])]
    | .ok rem =>
      by_cases hrem : 0 < rem
      · exact .inl ⟨_, assertNotLocked_of_remaining hl hr hrem⟩
      · have hzero : rem = 0 := by
          have := getRemainingSeconds_nonneg hr
          omega
        have hg : assertNotLocked rt clock s = _ := assertNotLocked_of_elapsed hl hr hrem
        rcases checkExpiration_cases rt s (clock 1) with ⟨e, he⟩ | ⟨m, hm⟩ | ⟨-, m, hm⟩
        · refine .inl ⟨e, hg.trans ?_⟩
          rw [he]
          rfl
        · refine .inr (.inl (hg.trans ?_))
          rw [hm]
          rfl
        · refine .inr (.inr ⟨hl, by rw [hzero], ⟨m, hm⟩, hg.trans ?_⟩)
          rw [hm]
          rfl
  · exact .inr (.inl (assertNotLocked_of_not_locked hl))

/-- Before the expiry time the guard refuses and changes nothing. -/
theorem assertNotLocked_before (h : s.LockedUntil rt u) (hnow : (clock 0).micros < u) :
    assertNotLocked rt clock s = (.error (lockedError s (u - (clock 0).micros)), s) := by
  have hmax : max 0 (u - (clock 0).micros) = u - (clock 0).micros := max_eq_right (by omega)
  refine assertNotLocked_of_remaining h.locked ?_ (by omega)
  rw [getRemainingSeconds_of_locked h, hmax]

/-- Once the time is over the guard lets the call through and marks the session. -/
theorem assertNotLocked_after (h : s.LockedUntil rt u) (hfirst : u ≤ (clock 0).micros)
    (hcreated : rolledBack rt s (clock 1) = .ok false) (hsecond : u ≤ (clock 1).micros) :
    assertNotLocked rt clock s = (.ok (), s.expire) := by
  obtain ⟨message, hx⟩ := checkExpiration_after h hcreated hsecond
  have hmax : max 0 (u - (clock 0).micros) = 0 := max_eq_left (by omega)
  have hrem : getRemainingSeconds rt s (clock 0) = .ok 0 := by
    rw [getRemainingSeconds_of_locked h, hmax]
  rw [assertNotLocked_of_elapsed h.locked hrem (lt_irrefl 0), hx]
  rfl

/-! ## Starting a session -/

section Start

variable {env : CallEnv} {expiresAt : Instant} {duration : Int} {domains services : List Text}

theorem startSession_before (env : CallEnv) (h : s.LockedUntil rt u) (hnow : now.micros < u) :
    ∃ e, startSession rt env expiresAt duration domains services now s = (.error e, s) := by
  have hmax : max 0 (u - now.micros) = u - now.micros := max_eq_right (by omega)
  unfold startSession
  rw [Exec.bind_of_ok (Exec.get_apply s), getRemainingSeconds_of_locked h, hmax,
    Exec.bind_of_ok (Exec.ofExcept_apply _ s), if_pos ⟨h.locked, by omega⟩]
  exact ⟨_, rfl⟩

end Start

end FocusGuard

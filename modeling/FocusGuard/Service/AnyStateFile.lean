import FocusGuard.Core.RawInvariant
import FocusGuard.Service.LockSafety
import FocusGuard.Service.TypedState

/-!
# Starting on any state file

A state file that cannot be read is replaced by the defaults, and the engine comes up. A file that
can be read is taken as it is, and what is wrong with a member shows where it is first used: when
the allowlist is installed, when the expiry is checked, when the rules are refreshed or when the
status is reported.

## Main results

* `startsOn_iff`: the files on which the engine comes up and stays up.
* `usable_of_unread`: files that cannot be read are among them.
* `lock_without_expiry_raises`: a locked session without an expiry keeps it from coming up.
-/

namespace FocusGuard

open Calendar RawEngine

/-- The engine after heartbeats at these readings. -/
def RawEngine.afterTicks (rt : Runtime) (e : RawEngine) (nows : List Instant) : RawEngine :=
  nows.foldl (fun e now => (tick rt now e).2) e

/-- The engine comes up, and after any heartbeats neither a further one nor a report raises. -/
def StartsOn (rt : Runtime) (now : Instant) (content : FileContent) : Prop :=
  ∃ e, start rt now content = .ok e ∧ ∀ nows later bypassStatus,
    (∃ b, (tick rt later (e.afterTicks rt nows)).1 = .ok b) ∧
    ∃ status, getStatus rt bypassStatus later (e.afterTicks rt nows) = .ok status

/-- The members that are used can be used. A session that has elapsed at the reading is released
before its lists are looked at. -/
structure Usable (rt : Runtime) (now : Instant) (config : RawConfig) (session : RawSession) :
    Prop where
  allowed : ∃ l, config.allowedDomains.elements? = some l ∧ ∀ t, .str t ∈ l → RuleSafe rt t
  stamps : session.isLocked = true → session.Stamped rt
  sized : ¬ session.Elapsed rt now →
    (∃ n, session.sessionDomains.len? = some n) ∧ ∃ n, session.sessionServices.len? = some n
  elapsed : session.Elapsed rt now → ∃ ids values, serviceIds? config {} = some ids ∧
    blockedValues? config {} = some values ∧ Sortable rt config ids values
  inForce : ¬ session.Elapsed rt now → ∃ ids values, serviceIds? config session = some ids ∧
    blockedValues? config session = some values ∧ Sortable rt config ids values

variable {rt : Runtime} {now : Instant} {e e' : RawEngine} {config : RawConfig}
  {session : RawSession}

/-- Its timestamps have been compared with that reading. -/
theorem RawSession.Elapsed.stamped (h : session.Elapsed rt now) : session.Stamped rt := by
  obtain ⟨-, hback, x, hx, -⟩ := h
  refine ⟨fun hc => ?_, .inl ⟨x, hx⟩⟩
  unfold rolledBack at hback
  rw [if_neg (not_not.mpr hc)] at hback
  split at hback
  · cases hback
  · next c hc' => exact ⟨c, hc'⟩

/-- In place of a file that cannot be read come members that can be used. -/
theorem usable_of_unread {content : FileContent} (h : loadRaw content = ({}, {})) :
    Usable rt now (loadRaw content).1 (loadRaw content).2 := by
  have hidle : ¬ ({} : RawSession).Elapsed rt now := fun he => by cases he.1
  have hsort : Sortable rt {} [] [] := ⟨nofun, .inl nofun, fun _ => nofun⟩
  rw [h]
  exact ⟨⟨[], rfl, nofun⟩, fun hl => (by cases hl), fun _ => ⟨⟨0, rfl⟩, 0, rfl⟩,
    fun he => absurd he hidle, fun _ => ⟨[], [], rfl, rfl, hsort⟩⟩

/-! ## The constructor -/

namespace RawEngine

theorem recoverSession_ok (h : recoverSession rt now e = (.ok (), e')) :
    e'.config = e.config ∧ (e.session.Elapsed rt now → e'.session = {}) ∧
      (¬ e.session.Elapsed rt now → e'.session = e.session) := by
  unfold recoverSession at h
  rw [Exec.bind_of_ok (Exec.get_apply e)] at h
  split at h
  · obtain ⟨r, e₁, hfocus, h⟩ := Exec.bind_eq_ok.mp h
    obtain ⟨t, hcheck, rfl⟩ := Exec.focus_eq_ok.mp hfocus
    rcases RawSession.checkExpiration_ok hcheck with ⟨hr, hel⟩ | ⟨hr, rfl, hel⟩
    · rw [if_pos hr] at h
      cases h
      exact ⟨rfl, fun _ => rfl, fun hn => absurd hel hn⟩
    · rw [if_neg (by simp [hr])] at h
      cases h
      exact ⟨rfl, fun he => absurd he hel, fun _ => rfl⟩
  · next hl =>
    cases h
    exact ⟨rfl, fun he => absurd he.1 hl, fun _ => rfl⟩

theorem recoverSession_of_stamped (h : e.session.isLocked = true → e.session.Stamped rt)
    (now : Instant) : ∃ e', recoverSession rt now e = (.ok (), e') := by
  unfold recoverSession
  rw [Exec.bind_of_ok (Exec.get_apply e)]
  split
  · obtain ⟨r, t, hcheck⟩ := RawSession.Stamped.checkExpiration_ok h now
    rw [Exec.bind_of_ok (onSession_eq hcheck)]
    split
    · exact ⟨_, rfl⟩
    · exact ⟨_, rfl⟩
  · exact ⟨e, rfl⟩

/-- With a safe allowlist the constructor gets to the recovery of the session. -/
theorem boot_eq {l : List Json} (hl : e.config.allowedDomains.elements? = some l)
    (hsafe : ∀ t, .str t ∈ l → RuleSafe rt t) (now : Instant) : ∃ s, boot rt now e =
      (recoverSession rt now >>= fun _ => refreshSinkhole rt) { e with sinkhole := s } := by
  obtain ⟨s, hset⟩ : ∃ s, DomainSinkhole.setAllowedDomains rt (l.filterMap Json.text?)
      { e.sinkhole with
        blockDoh := e.config.blockDoh.truthy
        allowlistMode := e.config.allowlistMode.truthy } = (.ok (), s) :=
    ⟨_, setAllowedDomains_eq_ok_iff.mpr ⟨fun t ht => hsafe t (Json.mem_filterMap_text?.mp ht), rfl⟩⟩
  refine ⟨s, ?_⟩
  unfold boot
  rw [Exec.bind_of_ok (Exec.get_apply e), hl, orTypeError_some,
    Exec.bind_of_ok (onSinkhole_eq (Exec.modify_apply _ e.sinkhole)),
    Exec.bind_of_ok (Exec.ofExcept_apply _ _)]
  exact Exec.bind_of_ok (onSinkhole_eq hset)

theorem boot_allowed (h : boot rt now e = (.ok (), e')) :
    ∃ l, e.config.allowedDomains.elements? = some l ∧ ∀ t, .str t ∈ l → RuleSafe rt t := by
  unfold boot at h
  rw [Exec.bind_of_ok (Exec.get_apply e)] at h
  obtain ⟨u, e₁, -, hrest⟩ := Exec.bind_eq_ok.mp h
  obtain ⟨l, e₂, hread, hinstall⟩ := Exec.bind_eq_ok.mp hrest
  obtain ⟨hl, rfl⟩ := Exec.ofExcept_eq_ok.mp hread
  obtain ⟨u, e₃, hfocus, -⟩ := Exec.bind_eq_ok.mp hinstall
  obtain ⟨s, hset, -⟩ := Exec.focus_eq_ok.mp hfocus
  have hsafe := (setAllowedDomains_eq_ok_iff.mp hset).1
  exact ⟨l, of_orTypeError hl, fun t ht => hsafe t (Json.mem_filterMap_text?.mpr ht)⟩

/-- What the constructor has looked at, and what it leaves. -/
theorem boot_ok (h : boot rt now e = (.ok (), e')) : Refreshable rt e'.config e'.session ∧
    e'.config = e.config ∧ (e.session.Elapsed rt now → e'.session = {}) ∧
      (¬ e.session.Elapsed rt now → e'.session = e.session) := by
  obtain ⟨l, hl, hsafe⟩ := boot_allowed h
  obtain ⟨s, hboot⟩ := boot_eq hl hsafe now
  rw [hboot] at h
  obtain ⟨u, e₁, hrec, h⟩ := Exec.bind_eq_ok.mp h
  obtain ⟨hrefresh, hconfig, hsession⟩ := refreshable_of_ok h
  obtain ⟨hconfig₁, hel, hnot⟩ := recoverSession_ok hrec
  rw [hconfig, hsession]
  exact ⟨hrefresh, hconfig₁, hel, hnot⟩

theorem start_eq_ok_iff {content : FileContent} : start rt now content = .ok e ↔
    boot rt now ⟨bareSinkhole rt, (loadRaw content).1, (loadRaw content).2⟩ = (.ok (), e) := by
  unfold start
  rw [init_eq]
  dsimp only
  generalize boot rt now ⟨bareSinkhole rt, (loadRaw content).1, (loadRaw content).2⟩ = r
  rcases r with ⟨x | u, e₁⟩
  · simp
  · simp

/-- What the recovery of the session raises, the constructor raises. -/
theorem start_of_recoverSession_error {content : FileContent} {l : List Json} {x : PyError}
    (hl : (loadRaw content).1.allowedDomains.elements? = some l)
    (hsafe : ∀ t, .str t ∈ l → RuleSafe rt t)
    (h : ∀ s, (recoverSession rt now ⟨s, (loadRaw content).1, (loadRaw content).2⟩).1 = .error x) :
    start rt now content = .error x := by
  obtain ⟨s, hboot⟩ : ∃ s, boot rt now
      ⟨bareSinkhole rt, (loadRaw content).1, (loadRaw content).2⟩ = _ := boot_eq hl hsafe now
  unfold start
  rw [init_eq]
  dsimp only
  rw [hboot, Exec.bind_of_error (Prod.ext (h s) rfl)]

/-! ## Heartbeats -/

theorem Running.afterTicks (h : Running rt e.config e.session) (nows : List Instant) :
    Running rt (e.afterTicks rt nows).config (e.afterTicks rt nows).session := by
  induction nows generalizing e with
  | nil => exact h
  | cons now nows ih =>
    obtain ⟨b, e', htick, hrun⟩ := h.tick now
    have hnext : e.afterTicks rt (now :: nows) = e'.afterTicks rt nows := by
      rw [RawEngine.afterTicks, List.foldl_cons, htick]
      rfl
    rw [hnext]
    exact ih hrun

/-- An engine on which neither a heartbeat nor a report raises is a running one. -/
theorem running_of_ok (hrefresh : Refreshable rt e.config e.session)
    (htick : ∀ later, ∃ b, (tick rt later e).1 = .ok b)
    (hstatus : ∀ later, ∃ status, getStatus rt .null later e = .ok status) :
    Running rt e.config e.session := by
  obtain ⟨status, h⟩ := hstatus ⟨0, by decide⟩
  obtain ⟨-, hsized, hnamed⟩ := of_getStatus_ok h
  refine ⟨fun hl => RawSession.stamped_of_ok hl (fun later => ?_) fun later => ?_, hsized, hnamed,
    hrefresh⟩
  · obtain ⟨b, hb⟩ := htick later
    unfold tick at hb
    obtain ⟨r, e₁, hfocus, -⟩ := Exec.bind_eq_ok.mp (Prod.ext hb rfl)
    obtain ⟨t, hcheck, -⟩ := Exec.focus_eq_ok.mp hfocus
    exact ⟨r, t, hcheck⟩
  · obtain ⟨status, h⟩ := hstatus later
    exact (of_getStatus_ok h).1

end RawEngine

/-- What the recovery leaves of members that can be used keeps the engine running. -/
theorem Usable.running {s : DomainSinkhole} (h : Usable rt now config session)
    (hrec : recoverSession rt now ⟨s, config, session⟩ = (.ok (), e)) :
    Running rt e.config e.session := by
  obtain ⟨hconfig, hel, hnot⟩ := recoverSession_ok hrec
  rw [hconfig]
  by_cases he : session.Elapsed rt now
  · rw [hel he]
    obtain ⟨ids, values, hids, hvalues, hsort⟩ := h.elapsed he
    exact ⟨fun hl => (by cases hl), ⟨⟨0, rfl⟩, 0, rfl⟩, ⟨ids, hids⟩,
      (refreshable_iff hids).mpr ⟨values, hvalues, hsort⟩⟩
  · rw [hnot he]
    obtain ⟨ids, values, hids, hvalues, hsort⟩ := h.inForce he
    exact ⟨h.stamps, h.sized he, ⟨ids, hids⟩,
      (refreshable_iff hids).mpr ⟨values, hvalues, hsort⟩⟩

/-- Conversely an engine that has come up, and runs, has found such members. -/
theorem Usable.of_boot {s : DomainSinkhole}
    (hboot : boot rt now ⟨s, config, session⟩ = (.ok (), e))
    (hrun : Running rt e.config e.session) : Usable rt now config session := by
  obtain ⟨hrefresh, hconfig, hel, hnot⟩ := boot_ok hboot
  obtain ⟨ids, hids⟩ := hrun.named
  obtain ⟨values, hvalues, hsort⟩ := (refreshable_iff hids).mp hrefresh
  rw [hconfig] at hids hvalues hsort
  refine ⟨boot_allowed hboot, fun hl => ?_, fun hn => ?_, fun he => ?_, fun hn => ?_⟩
  · by_cases he : session.Elapsed rt now
    · exact he.stamped
    · have hstamps := hrun.stamps
      rw [hnot he] at hstamps
      exact hstamps hl
  · have hsized := hrun.sized
    rwa [hnot hn] at hsized
  · rw [hel he] at hids hvalues
    exact ⟨ids, values, hids, hvalues, hsort⟩
  · rw [hnot hn] at hids hvalues
    exact ⟨ids, values, hids, hvalues, hsort⟩

/-- The engine comes up and stays up exactly when the members that are used can be used. -/
theorem startsOn_iff {content : FileContent} : StartsOn rt now content ↔
    Usable rt now (loadRaw content).1 (loadRaw content).2 := by
  constructor
  · rintro ⟨e, hstart, hafter⟩
    have hboot := start_eq_ok_iff.mp hstart
    exact .of_boot hboot (running_of_ok (boot_ok hboot).1
      (fun later => (hafter [] later .null).1) fun later => (hafter [] later .null).2)
  · intro h
    generalize hdata : loadRaw content = data at h
    obtain ⟨config, session⟩ := data
    obtain ⟨l, hl, hsafe⟩ := h.allowed
    obtain ⟨s, hboot⟩ : ∃ s, boot rt now ⟨bareSinkhole rt, config, session⟩ =
        (recoverSession rt now >>= fun _ => refreshSinkhole rt) ⟨s, config, session⟩ :=
      boot_eq hl hsafe now
    obtain ⟨e₁, hrec⟩ : ∃ e₁, recoverSession rt now ⟨s, config, session⟩ = (.ok (), e₁) :=
      recoverSession_of_stamped h.stamps now
    have hrun : Running rt e₁.config e₁.session := h.running hrec
    obtain ⟨s', hrefresh⟩ := hrun.refreshable.refreshSinkhole_ok
    refine ⟨{ e₁ with sinkhole := s' }, ?_, fun nows later bypassStatus => ?_⟩
    · rw [start_eq_ok_iff, hdata, hboot, Exec.bind_of_ok hrec]
      exact hrefresh
    · have hafter := Running.afterTicks (e := { e₁ with sinkhole := s' }) hrun nows
      obtain ⟨b, e', htick, -⟩ := hafter.tick later
      exact ⟨⟨b, congrArg Prod.fst htick⟩, hafter.getStatus bypassStatus later⟩

/-! ## A lock without an expiry -/

/-- `{"session": {"status": "LOCKED"}}`. -/
def lockWithoutExpiry : FileContent :=
  .json (.obj [("session", .obj [("status", .str "LOCKED")])])

/-- The file is read, but its missing expiry is parsed as an empty text, and the constructor
raises. -/
theorem lock_without_expiry_raises :
    start asciiRuntime ten lockWithoutExpiry =
      .error (.valueError ("Invalid isoformat string: ''" : Text)) ∧
    ¬ StartsOn asciiRuntime ten lockWithoutExpiry := by
  have hsession : (loadRaw lockWithoutExpiry).2 = { status := .str "LOCKED" } := rfl
  have hstart : start asciiRuntime ten lockWithoutExpiry =
      .error (.valueError ("Invalid isoformat string: ''" : Text)) := by
    refine start_of_recoverSession_error (l := []) rfl nofun fun s => ?_
    rw [hsession]
    rfl
  refine ⟨hstart, ?_⟩
  rintro ⟨e, he, -⟩
  rw [hstart] at he
  cases he

end FocusGuard

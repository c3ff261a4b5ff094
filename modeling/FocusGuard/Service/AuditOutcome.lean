import FocusGuard.Service.AuditEntries

/-!
# What an event does to the policy and to the log

One lemma for each operation of the engine, for the heartbeat and for the restart: the policy stays
as it is and nothing is recorded, or one row is recorded that says what became of the policy.

## Main definitions

* `PolicyEngine.focusPolicy`: the policy of an engine, as far as the log tells it.
* `OnRecord`: the state file agrees with memory, up to the mark of an expired session.
* `AuditOutcome`: what an event of the engine does.

## Main results

* `accounts_run`, `accounts_tick`, `accounts_start`: the outcome of a call, a heartbeat, a restart.
-/

namespace FocusGuard

open Calendar PolicyEngine

/-- A program leaves what it leaves with its result. -/
theorem seq_unit_snd {ε σ β : Type} (m : Exec ε σ β) (s : σ) :
    ((m >>= fun _ => (pure () : Exec ε σ Unit)) s).2 = (m s).2 := by
  rw [Exec.bind_apply]
  rcases m s with ⟨x | b, t⟩
  · rfl
  · rfl

/-! ## What is on record -/

variable {rt : Runtime} {env : CallEnv} {a a' : AuditedEngine} {e e₀ : PolicyEngine} {α : Type}
  {normalized : Text}

/-- The policy of the engine, as far as the log tells it. A session that is marked as expired is
still on record. -/
def PolicyEngine.focusPolicy (e : PolicyEngine) : FocusPolicy where
  domains := e.config.permanentDomains
  services := e.config.permanentServices
  lockedUntil := if e.session.status = .idle then none else e.session.expiresAtUtc

/-- A session that is not idle has an end. -/
def SessionState.Dated (s : SessionState) : Prop := s.status ≠ .idle → s.expiresAtUtc.isSome

/-- The state file holds the configuration, and the session up to its mark. -/
structure OnRecord (rt : Runtime) (e : PolicyEngine) : Prop where
  coherent : Coherent rt e
  stored : ∃ s, e.stateManager.disk.Stores e.config s ∧
    (s = e.session ∨ (s.isLocked = true ∧ e.session = s.expire))
  dated : e.session.Dated

/-- The session, if it is locked, has ended by `u`. -/
def Over (rt : Runtime) (s : SessionState) (u : Int) : Prop := ∀ v, s.LockedUntil rt v → v ≤ u

theorem OnRecord.of_synced (h : Synced rt e) (hdated : e.session.Dated) : OnRecord rt e :=
  ⟨h.toCoherent, ⟨e.session, h.stored, .inl rfl⟩, hdated⟩

theorem SessionState.Dated.expire {s : SessionState} (h : s.Dated) (hl : s.isLocked = true) :
    s.expire.Dated := by
  intro _
  refine h ?_
  rw [SessionState.status_of_isLocked hl]
  decide

theorem SessionState.Dated.locked {s : SessionState} (h : s.Dated) (hl : s.isLocked = true) :
    ∃ x, s.expiresAtUtc = some x := by
  refine Option.isSome_iff_exists.mp (h ?_)
  rw [SessionState.status_of_isLocked hl]
  decide

/-- Marking a session as expired does not show in the policy. -/
theorem focusPolicy_expire (hl : e.session.isLocked = true) :
    PolicyEngine.focusPolicy { e with session := e.session.expire } = e.focusPolicy := by
  have hne : e.session.status ≠ .idle := by
    rw [SessionState.status_of_isLocked hl]
    decide
  simp [PolicyEngine.focusPolicy, SessionState.expire, hne]

/-! ## The guard -/

/-- The guard let the call through: a locked session is over, and may have been marked. -/
structure Cleared (rt : Runtime) (env : CallEnv) (e e₀ : PolicyEngine) : Prop where
  ended : Over rt e.session (env.clock 0).micros
  engine : e₀ = e ∨ (e.session.isLocked = true ∧ e₀ = { e with session := e.session.expire })

theorem over_of_remaining {s : SessionState} {now : Instant}
    (h : getRemainingSeconds rt s now = .ok 0) : Over rt s now.micros := by
  intro v hv
  rw [getRemainingSeconds_of_locked hv, Except.ok.injEq] at h
  omega

theorem over_of_expired {s t : SessionState} {now : Instant} {message : Text}
    (h : checkExpiration rt now s = (.ok (true, message), t)) : Over rt s now.micros := by
  obtain ⟨-, u, hu, hle⟩ := checkExpiration_true h
  intro v hv
  obtain rfl : v = u := Except.ok.inj (hv.expires.symm.trans hu)
  exact hle

theorem over_of_guard {s t : SessionState} {clock : Nat → Instant}
    (h : assertNotLocked rt clock s = (.ok (), t)) : Over rt s (clock 0).micros := by
  intro v hv
  by_contra hlt
  rw [assertNotLocked_before hv (by omega)] at h
  cases h

theorem onEngine_eq {m : Exec PyError PolicyEngine α} {r : Except PyError α} {e' : PolicyEngine}
    (h : m a.engine = (r, e')) : AuditedEngine.onEngine m a = (r, { a with engine := e' }) := by
  rw [AuditedEngine.onEngine, Exec.focus_apply, h]

theorem Cleared.coherent (h : Cleared rt env e e₀) (he : Coherent rt e) : Coherent rt e₀ := by
  rcases h.engine with rfl | ⟨-, rfl⟩
  · exact he
  · exact ⟨he.blockDoh, he.allowlistMode, he.allowed, he.safe.permanent, fun hl => by cases hl⟩

theorem Cleared.focusPolicy (h : Cleared rt env e e₀) : e₀.focusPolicy = e.focusPolicy := by
  rcases h.engine with rfl | ⟨hl, rfl⟩
  · rfl
  · exact focusPolicy_expire hl

theorem Cleared.onRecord (h : Cleared rt env e e₀) (he : OnRecord rt e) : OnRecord rt e₀ := by
  refine ⟨h.coherent he.coherent, ?_, ?_⟩
  · rcases h.engine with rfl | ⟨hl, rfl⟩
    · exact he.stored
    · obtain ⟨s, hst, rfl | ⟨-, hs⟩⟩ := he.stored
      · exact ⟨_, hst, .inr ⟨hl, rfl⟩⟩
      · rw [hs] at hl
        cases hl
  · rcases h.engine with rfl | ⟨hl, rfl⟩
    · exact he.dated
    · exact he.dated.expire hl

/-! ## What one event does -/

/-- The log is as it was but for one row, which stands for the entry. -/
def Enters (env : CallEnv) (a a' : AuditedEngine) (entry : AuditEntry) : Prop :=
  ∃ category action details,
    a'.logStore = (EventLogStore.record (env.clock 4) category action details a.logStore).2 ∧
      readEntry ⟨isoformat (env.clock 4), category, action, details⟩ = some entry

/-- What an event of the engine does to the policy and to the log. -/
inductive AuditOutcome (rt : Runtime) (env : CallEnv) (a a' : AuditedEngine) : Prop where
  | silent : a'.logStore = a.logStore → a'.engine.focusPolicy = a.engine.focusPolicy →
      (a'.engine.session = a.engine.session ∨ Over rt a.engine.session (env.clock 0).micros) →
      AuditOutcome rt env a a'
  | resumes (x : Text) : Enters env a a' (.resumed x) →
      a'.engine.focusPolicy = AuditEntry.apply (.resumed x) a.engine.focusPolicy →
      (a.engine.session.isLocked = true → a'.engine.session = a.engine.session) →
      AuditOutcome rt env a a'
  | enters (entry : AuditEntry) : Enters env a a' entry →
      a'.engine.focusPolicy = entry.apply a.engine.focusPolicy →
      Over rt a.engine.session (env.clock 0).micros →
      (∀ x, entry = .locked x → ∃ u, awareMicros rt x = .ok u ∧
        a'.engine.session.LockedUntil rt u) →
      AuditOutcome rt env a a'

/-- The outcome, and what holds of the engine afterwards. -/
def Accounts (rt : Runtime) (env : CallEnv) (a a' : AuditedEngine) : Prop :=
  AuditOutcome rt env a a' ∧ OnRecord rt a'.engine

/-- A save and a record, where the state can be written. -/
theorem saved_run (rt : Runtime) (hs : env.saveOk = true) (category action details : Text)
    (a : AuditedEngine) (hlog : a.logStore.Bounded) (k : Exec PyError AuditedEngine α) :
    ∃ m, m.disk.Stores a.engine.config a.engine.session ∧
      (AuditedEngine.onEngine (saveState rt env) >>= fun _ =>
        AuditedEngine.record env category action details >>= fun _ => k) a =
          k ⟨{ a.engine with stateManager := m },
            (EventLogStore.record (env.clock 4) category action details a.logStore).2⟩ := by
  obtain ⟨m, hm, hst⟩ := save_ok rt { config := a.engine.config, session := a.engine.session }
    a.engine.stateManager hs
  refine ⟨m, hst, (Exec.bind_of_ok (onEngine_eq (saveState_eq hm))).trans ?_⟩
  refine Exec.bind_of_ok (a := ()) ?_
  rw [AuditedEngine.record, AuditedEngine.onLog, Exec.focus_apply,
    EventLogStore.record_apply _ _ _ _ hlog.1]

/-! ## Calls -/

theorem Validated.notMem (h : Validated normalized) : ',' ∉ normalized := by
  intro hc
  have hchar := h.mem hc
  revert hchar
  decide

/-- No domain that is added has a comma. -/
theorem notMem_added {input : Json} (hn : normalizeDomain rt input = .ok normalized)
    (l : List Text) (companions : Bool) : ',' ∉ normalized ∧ ∀ d ∈ (appendMissing l
      (normalized :: if companions then getCompanionDomains rt normalized else [])).2, ',' ∉ d := by
  have hdomains := fun l => appendMissing_domains (l := l) hn companions
  constructor
  · rcases hdomains [] normalized (mem_appendMissing_new List.mem_cons_self) with h | h
    · cases h
    · exact h.notMem
  · intro d hd
    obtain ⟨happ, -, hnew⟩ := appendMissing_spec l
      (normalized :: if companions then getCompanionDomains rt normalized else [])
    rcases hdomains l d (happ ▸ List.mem_append_right _ hd) with h | h
    · exact absurd h (hnew d hd).1
    · exact h.notMem

theorem appendMissing_fresh {l new : List Text} (hnodup : new.Nodup) (hnew : ∀ d ∈ new, d ∉ l) :
    (appendMissing l new).1 = l ++ new := by
  induction new generalizing l with
  | nil => simp [appendMissing]
  | cons d new ih =>
    obtain ⟨hd, hnodup⟩ := List.nodup_cons.mp hnodup
    rw [appendMissing, if_neg (hnew d List.mem_cons_self)]
    dsimp only
    rw [ih hnodup, List.append_assoc, List.singleton_append]
    intro x hx hmem
    rcases List.mem_append.mp hmem with hmem | hmem
    · exact hnew x (List.mem_cons_of_mem d hx) hmem
    · exact hd (List.mem_singleton.mp hmem ▸ hx)

/-- What is recorded as added says what was appended, also where nothing was. -/
theorem appendMissing_recorded (l : List Text) (normalized : Text) (companions : List Text) :
    (appendMissing l (if (appendMissing l (normalized :: companions)).2 = [] then [normalized]
      else (appendMissing l (normalized :: companions)).2)).1 =
        (appendMissing l (normalized :: companions)).1 := by
  obtain ⟨happ, hnodup, hnew⟩ := appendMissing_spec l (normalized :: companions)
  split
  · next hnil =>
    rw [hnil, List.append_nil] at happ
    have hmem : normalized ∈ l := happ ▸ mem_appendMissing_new List.mem_cons_self
    rw [happ, appendMissing, if_pos hmem, appendMissing]
  · rw [happ, appendMissing_fresh hnodup fun d hd => (hnew d hd).1]

section Calls

variable (ha : OnRecord rt a.engine)

include ha

theorem Accounts.refl : Accounts rt env a a := ⟨.silent rfl rfl (.inl rfl), ha⟩

/-- Behind the guard nothing has been entered. -/
theorem Cleared.accounts (h : Cleared rt env a.engine e₀) :
    Accounts rt env a { a with engine := e₀ } :=
  ⟨.silent rfl h.focusPolicy (.inr h.ended), h.onRecord ha⟩

/-- A guarded call raises at its guard, or goes on behind it. -/
theorem accounts_guarded {f : Exec PyError AuditedEngine α}
    (hf : ∀ e₀, Cleared rt env a.engine e₀ → Accounts rt env a (f { a with engine := e₀ }).2) :
    Accounts rt env a ((AuditedEngine.onEngine (onSession (assertNotLocked rt env.clock)) >>=
      fun _ => f) a).2 := by
  have hrun : ∀ r s, assertNotLocked rt env.clock a.engine.session = (r, s) →
      AuditedEngine.onEngine (onSession (assertNotLocked rt env.clock)) a =
        (r, { a with engine := { a.engine with session := s } }) :=
    fun r s h => onEngine_eq (onSession_eq h)
  rcases assertNotLocked_cases rt a.engine.session env.clock with
    ⟨x, hx⟩ | hok | ⟨hl, -, -, hok⟩
  · rw [Exec.bind_of_error (hrun _ _ hx)]
    exact .refl ha
  · rw [Exec.bind_of_ok (hrun _ _ hok)]
    exact hf a.engine ⟨over_of_guard hok, .inl rfl⟩
  · rw [Exec.bind_of_ok (hrun _ _ hok)]
    exact hf _ ⟨over_of_guard hok, .inr ⟨hl, rfl⟩⟩

/-- An edit, a refresh, a save and a record. -/
theorem accounts_edit (hs : env.saveOk = true) (hlog : a.logStore.Bounded)
    (h : Cleared rt env a.engine e₀) (entry : AuditEntry) (hnew : ¬ entry.IsLocked)
    {edit : AppConfig → AppConfig} (hc : Coherent rt { e₀ with config := edit e₀.config })
    {category action details : Text}
    (hread : readEntry ⟨isoformat (env.clock 4), category, action, details⟩ = some entry)
    (hpolicy : PolicyEngine.focusPolicy { e₀ with config := edit e₀.config } =
      entry.apply e₀.focusPolicy) (x : α) :
    Accounts rt env a ((AuditedEngine.onEngine (setConfig edit) >>= fun _ =>
        AuditedEngine.onEngine (refreshSinkhole rt) >>= fun _ =>
        AuditedEngine.onEngine (saveState rt env) >>= fun _ =>
        AuditedEngine.record env category action details >>= fun _ =>
        (pure x : Exec PyError AuditedEngine α)) { a with engine := e₀ }).2 := by
  obtain ⟨m, hst, hsaved⟩ := saved_run rt hs category action details
    ⟨refreshed rt { e₀ with config := edit e₀.config }, a.logStore⟩ hlog (pure x)
  have hset : AuditedEngine.onEngine (setConfig edit) { a with engine := e₀ } =
      (.ok (), ⟨{ e₀ with config := edit e₀.config }, a.logStore⟩) :=
    onEngine_eq (Exec.modify_apply _ _)
  rw [Exec.bind_of_ok hset, Exec.bind_of_ok (onEngine_eq (refreshSinkhole_eq hc)), hsaved]
  refine ⟨?_, hc.published m, ⟨_, hst, .inl rfl⟩, (h.onRecord ha).dated⟩
  refine .enters entry ⟨category, action, details, rfl, hread⟩ ?_ h.ended
    fun x hx => absurd (hx ▸ trivial) hnew
  exact hpolicy.trans (congrArg entry.apply h.focusPolicy)

variable (hs : env.saveOk = true) (hlog : a.logStore.Bounded)

include hs hlog

theorem accounts_addPermanentDomain (domainInput : Json) (companions : Bool) :
    Accounts rt env a (AuditedEngine.addPermanentDomain rt env domainInput companions a).2 := by
  refine accounts_guarded ha fun e₀ h => ?_
  have hc := h.coherent ha.coherent
  cases hn : normalizeDomain rt domainInput with
  | error x => exact h.accounts ha
  | ok normalized =>
    have hdomains := appendMissing_domains (l := e₀.config.permanentDomains) hn companions
    obtain ⟨hnormalized, hadded⟩ := notMem_added hn e₀.config.permanentDomains companions
    refine accounts_edit ha hs hlog h (.added _) id ?_ (readEntry_added hnormalized hadded) ?_ _
    · exact ⟨hc.blockDoh, hc.allowlistMode, hc.allowed,
        ruleSafe_of_domains hc.safe.permanent hdomains, hc.safe.ofSession⟩
    · simp only [PolicyEngine.focusPolicy, AuditEntry.apply, appendMissing_recorded]

theorem accounts_removePermanentDomain (domainInput : Json) :
    Accounts rt env a (AuditedEngine.removePermanentDomain rt env domainInput a).2 := by
  refine accounts_guarded ha fun e₀ h => ?_
  have hc := h.coherent ha.coherent
  cases hn : normalizeDomain rt domainInput with
  | error x => exact h.accounts ha
  | ok normalized =>
    rw [Exec.bind_of_ok (Exec.ofExcept_apply _ _), Exec.bind_of_ok (Exec.get_apply _)]
    split
    · refine accounts_edit ha hs hlog h (.removed normalized) id ?_ readEntry_removed rfl _
      exact ⟨hc.blockDoh, hc.allowlistMode, hc.allowed,
        fun p hp => hc.safe.permanent p (List.mem_of_mem_erase hp), hc.safe.ofSession⟩
    · exact h.accounts ha

theorem accounts_blockPermanentService (serviceId : Json) :
    Accounts rt env a (AuditedEngine.blockPermanentService rt env serviceId a).2 := by
  refine accounts_guarded ha fun e₀ h => ?_
  have hc := h.coherent ha.coherent
  cases hfound : lookupService rt serviceId with
  | error x => exact h.accounts ha
  | ok found =>
    rw [Exec.bind_of_ok (Exec.ofExcept_apply _ _)]
    cases found with
    | none => exact h.accounts ha
    | some svc =>
      dsimp only
      rw [Exec.bind_of_ok (Exec.get_apply _)]
      split
      · refine accounts_edit ha hs hlog h (.blocked svc.name) id ?_ readEntry_blocked ?_ _
        · exact ⟨hc.blockDoh, hc.allowlistMode, hc.allowed, hc.safe.permanent, hc.safe.ofSession⟩
        · simp [PolicyEngine.focusPolicy, AuditEntry.apply,
            serviceNamed_name svc (lookupService_mem hfound)]
      · exact h.accounts ha

theorem accounts_unblockPermanentService (serviceId : Json) :
    Accounts rt env a (AuditedEngine.unblockPermanentService rt env serviceId a).2 := by
  refine accounts_guarded ha fun e₀ h => ?_
  have hc := h.coherent ha.coherent
  cases hfound : lookupService rt serviceId with
  | error x => exact h.accounts ha
  | ok found =>
    rw [Exec.bind_of_ok (Exec.ofExcept_apply _ _)]
    cases found with
    | none => exact h.accounts ha
    | some svc =>
      dsimp only
      rw [Exec.bind_of_ok (Exec.get_apply _)]
      split
      · refine accounts_edit ha hs hlog h (.unblocked svc.name) id ?_ readEntry_unblocked ?_ _
        · exact ⟨hc.blockDoh, hc.allowlistMode, hc.allowed, hc.safe.permanent, hc.safe.ofSession⟩
        · simp [PolicyEngine.focusPolicy, AuditEntry.apply,
            serviceNamed_name svc (lookupService_mem hfound)]
      · exact h.accounts ha

omit hs hlog in
theorem accounts_stopFocusSession :
    Accounts rt env a (AuditedEngine.stopFocusSession rt env a).2 := by
  have hguarded := accounts_guarded (f := (pure () : Exec PyError AuditedEngine Unit)) ha
    fun e₀ (h : Cleared rt env a.engine e₀) => h.accounts ha
  rwa [Exec.bind_pure_unit] at hguarded

theorem accounts_startFocusSession (durationStr untilStr domainsArg servicesArg : Json)
    (companions : Bool) : Accounts rt env a (AuditedEngine.startFocusSession rt env durationStr
      untilStr domainsArg servicesArg companions a).2 := by
  unfold AuditedEngine.startFocusSession
  cases hend : sessionEnd rt env durationStr untilStr (env.clock 0) with
  | error x => exact .refl ha
  | ok expiry =>
    rw [Exec.bind_of_ok (Exec.ofExcept_apply _ _), Exec.bind_of_ok (Exec.get_apply _)]
    cases hscope : sessionScope rt a.engine.config domainsArg servicesArg companions with
    | error x => exact .refl ha
    | ok scope =>
      rw [Exec.bind_of_ok (Exec.ofExcept_apply _ _)]
      split
      · exact .refl ha
      · next hne =>
        by_cases hrem : getRemainingSeconds rt a.engine.session (env.clock 0) = .ok 0
        · obtain ⟨hsafe, -⟩ := startFocusSession_accepted ha.coherent durationStr untilStr
            domainsArg servicesArg companions hend hscope hne hrem
          have hc : Coherent rt { a.engine with session := newSession env expiry scope } :=
            ⟨ha.coherent.blockDoh, ha.coherent.allowlistMode, ha.coherent.allowed, hsafe⟩
          have hstart := onEngine_eq (a := a) (onSession_eq
            (startSession_of_elapsed rt env expiry scope hrem))
          obtain ⟨m, hst, hsaved⟩ := saved_run rt hs "session" "start_locked_session"
            (AuditedEngine.lockedDetails (isoformat expiry.1) (Text.sorted scope.1).length
              (Text.sorted scope.2).length)
            ⟨refreshed rt { a.engine with session := newSession env expiry scope }, a.logStore⟩ hlog
            (Exec.get >>= fun a => Exec.ofExcept (getSummary rt a.engine.session (env.clock 3)))
          rw [Exec.bind_of_ok hstart, Exec.bind_of_ok (onEngine_eq (refreshSinkhole_eq hc)), hsaved]
          refine ⟨?_, hc.published m, ⟨_, hst, .inl rfl⟩, fun _ => rfl⟩
          refine .enters (.locked (isoformat expiry.1)) ⟨_, _, _, rfl, readEntry_locked _ _⟩ rfl
            (over_of_remaining hrem) ?_
          rintro x ⟨⟩
          exact ⟨expiry.1.micros, by simp [awareMicros], newSession_lockedUntil rt env expiry scope⟩
        · obtain ⟨y, hy⟩ := startSession_refused env expiry scope hrem
          rw [Exec.bind_of_error (onEngine_eq (onSession_eq hy))]
          exact .refl ha

theorem accounts_tick : Accounts rt env a (AuditedEngine.tick rt env a).2 := by
  unfold AuditedEngine.tick
  rcases checkExpiration_cases rt a.engine.session (env.clock 0) with
    ⟨x, hx⟩ | ⟨message, hx⟩ | ⟨-, message, hx⟩
  · rw [Exec.bind_of_error (onEngine_eq (onSession_eq hx))]
    exact .refl ha
  · rw [Exec.bind_of_ok (onEngine_eq (onSession_eq hx))]
    exact .refl ha
  · rw [Exec.bind_of_ok (onEngine_eq (onSession_eq hx)), if_pos rfl]
    have hrelease : AuditedEngine.onEngine (onSession releaseExpired)
        { a with engine := { a.engine with session := a.engine.session.expire } } =
          (.ok (), { a with engine := { a.engine with session := {} } }) :=
      onEngine_eq (onSession_eq (Exec.modify_apply _ _))
    have hc := ha.coherent.idle
    obtain ⟨m, hst, hsaved⟩ := saved_run rt hs "session" "expired_auto_restored" message
      ⟨refreshed rt { a.engine with session := {} }, a.logStore⟩ hlog (pure true)
    rw [Exec.bind_of_ok hrelease, Exec.bind_of_ok (onEngine_eq (refreshSinkhole_eq hc)), hsaved]
    refine ⟨?_, hc.published m, ⟨_, hst, .inl rfl⟩, fun hidle => absurd rfl hidle⟩
    exact .enters .restored ⟨_, _, _, rfl, readEntry_restored (.inl rfl)⟩ rfl (over_of_expired hx)
      (by simp)

/-- What a call does to the policy and to the log. -/
theorem accounts_run (op : Operation) : Accounts rt env a (AuditedEngine.run rt env op a).2 := by
  cases op with
  | addPermanentDomain domainInput companions =>
    rw [AuditedEngine.run, seq_unit_snd]
    exact accounts_addPermanentDomain ha hs hlog domainInput companions
  | removePermanentDomain domainInput =>
    rw [AuditedEngine.run, seq_unit_snd]
    exact accounts_removePermanentDomain ha hs hlog domainInput
  | blockPermanentService serviceId =>
    rw [AuditedEngine.run, seq_unit_snd]
    exact accounts_blockPermanentService ha hs hlog serviceId
  | unblockPermanentService serviceId =>
    rw [AuditedEngine.run, seq_unit_snd]
    exact accounts_unblockPermanentService ha hs hlog serviceId
  | startFocusSession durationStr untilStr domainsArg servicesArg companions =>
    rw [AuditedEngine.run, seq_unit_snd]
    exact accounts_startFocusSession ha hs hlog durationStr untilStr domainsArg servicesArg
      companions
  | stopFocusSession => exact accounts_stopFocusSession ha

end Calls

/-! ## Restarts -/

/-- What a program on the sinkhole does not touch. -/
def Untouched (a a' : AuditedEngine) : Prop :=
  a'.logStore = a.logStore ∧ a'.engine.config = a.engine.config ∧
    a'.engine.session = a.engine.session

theorem untouched_onSinkhole {m : Exec PyError DomainSinkhole α} {x : α}
    (h : AuditedEngine.onEngine (onSinkhole m) a = (.ok x, a')) : Untouched a a' := by
  obtain ⟨e, he, rfl⟩ := Exec.focus_eq_ok.mp h
  obtain ⟨s, -, rfl⟩ := Exec.focus_eq_ok.mp he
  exact ⟨rfl, rfl, rfl⟩

/-- What a constructor that came up has recovered, and what it left of it. -/
theorem recovered_of_boot (h : AuditedEngine.boot rt env a = (.ok (), a')) : ∃ b b',
    Untouched a b ∧ AuditedEngine.recoverSession rt env b = (.ok (), b') ∧ Untouched b' a' := by
  unfold AuditedEngine.boot at h
  rw [Exec.bind_of_ok (Exec.get_apply a)] at h
  obtain ⟨_, b₁, hflags, h⟩ := Exec.bind_eq_ok.mp h
  obtain ⟨_, b₂, hallowed, h⟩ := Exec.bind_eq_ok.mp h
  obtain ⟨⟨⟩, b₃, hrecover, hrefresh⟩ := Exec.bind_eq_ok.mp h
  obtain ⟨hlog, hconfig, hsession⟩ := untouched_onSinkhole hflags
  obtain ⟨hlog', hconfig', hsession'⟩ := untouched_onSinkhole hallowed
  exact ⟨b₂, b₃, ⟨hlog'.trans hlog, hconfig'.trans hconfig, hsession'.trans hsession⟩, hrecover,
    untouched_onSinkhole hrefresh⟩

/-- What a constructor that came up has found on the disk. -/
theorem boot_of_start {disk : Disk} {logStore : EventLogStore} {config : AppConfig}
    {s : SessionState} (hst : disk.Stores config s)
    (h : AuditedEngine.start rt env disk logStore = .ok a') : ∃ b, b.logStore = logStore ∧
      b.engine.config = config ∧ b.engine.session = s ∧
      AuditedEngine.boot rt env b = (.ok (), a') := by
  obtain ⟨data, verified, m, hload, rfl, rfl, -⟩ :=
    load_of_stores rt env (m := { disk := disk }) hst
  unfold AuditedEngine.start at h
  rw [init_eq] at h
  dsimp only at h
  rw [hload] at h
  dsimp only at h
  split at h
  · cases h
  · next a₁ hboot =>
    obtain rfl := Except.ok.inj h
    exact ⟨_, rfl, rfl, rfl, hboot⟩

theorem record_run (category action details : Text) (hlog : a.logStore.Bounded) :
    AuditedEngine.record env category action details a = (.ok (), { a with logStore :=
      (EventLogStore.record (env.clock 4) category action details a.logStore).2 }) := by
  rw [AuditedEngine.record, AuditedEngine.onLog, Exec.focus_apply,
    EventLogStore.record_apply _ _ _ _ hlog.1]

/-- The recovery of a session that is not locked, that is locked, or that is over. -/
theorem recoverSession_cases (hs : env.saveOk = true) (hlog : a.logStore.Bounded)
    (h : AuditedEngine.recoverSession rt env a = (.ok (), a')) :
    (¬ a.engine.session.isLocked = true ∧ a' = a) ∨
    (a.engine.session.isLocked = true ∧ a' = { a with logStore :=
      (EventLogStore.record (env.clock 4) "session" "reboot_resumed_locked"
        (AuditedEngine.resumedDetails a.engine.session.expiresAtUtc) a.logStore).2 }) ∨
    (a.engine.session.isLocked = true ∧ Over rt a.engine.session (env.clock 0).micros ∧
      a'.engine.config = a.engine.config ∧ a'.engine.session = {} ∧ a'.logStore =
        (EventLogStore.record (env.clock 4) "session" "reboot_recovered_expired"
          "Session expired during or before reboot." a.logStore).2) := by
  unfold AuditedEngine.recoverSession at h
  rw [Exec.bind_of_ok (Exec.get_apply a)] at h
  by_cases hl : a.engine.session.isLocked = true
  · rw [if_pos hl] at h
    rcases checkExpiration_cases rt a.engine.session (env.clock 0) with
      ⟨x, hx⟩ | ⟨message, hx⟩ | ⟨-, message, hx⟩
    · rw [Exec.bind_of_error (onEngine_eq (onSession_eq hx))] at h
      cases h
    · rw [Exec.bind_of_ok (onEngine_eq (onSession_eq hx)), if_neg (by simp),
        Exec.bind_of_ok (Exec.get_apply _), record_run _ _ _ hlog] at h
      exact .inr (.inl ⟨hl, (congrArg Prod.snd h).symm⟩)
    · have hrelease : AuditedEngine.onEngine (onSession releaseExpired)
          { a with engine := { a.engine with session := a.engine.session.expire } } =
            (.ok (), { a with engine := { a.engine with session := {} } }) :=
        onEngine_eq (onSession_eq (Exec.modify_apply _ _))
      obtain ⟨m, -, hsaved⟩ := saved_run rt hs "session" "reboot_recovered_expired"
        "Session expired during or before reboot."
        { a with engine := { a.engine with session := {} } } hlog (pure ())
      rw [Exec.bind_pure_unit] at hsaved
      rw [Exec.bind_of_ok (onEngine_eq (onSession_eq hx)), if_pos rfl, Exec.bind_of_ok hrelease,
        hsaved] at h
      obtain rfl := congrArg Prod.snd h
      exact .inr (.inr ⟨hl, over_of_expired hx, rfl, rfl, rfl⟩)
  · rw [if_neg hl] at h
    exact .inl ⟨hl, (congrArg Prod.snd h).symm⟩

/-- What a restart that comes up does to the policy and to the log. -/
theorem accounts_start (ha : OnRecord rt a.engine) (hs : env.saveOk = true)
    (hlog : a.logStore.Bounded)
    (h : AuditedEngine.start rt env a.engine.stateManager.disk a.logStore = .ok a') :
    Accounts rt env a a' := by
  have hsynced : Synced rt a'.engine := by
    obtain ⟨heq, -⟩ := AuditedEngine.start_follows logInvariant_bounded env
      a.engine.stateManager.disk hlog
    rw [h] at heq
    exact startEngine_synced heq
  obtain ⟨s, hst, hmark⟩ := ha.stored
  obtain ⟨b, hblog, hbconfig, hbsession, hboot⟩ := boot_of_start hst h
  obtain ⟨c, c', ⟨hclog, hcconfig, hcsession⟩, hrecover, hlog', hconfig', hsession'⟩ :=
    recovered_of_boot hboot
  rw [hblog] at hclog
  rw [hbconfig] at hcconfig
  rw [hbsession] at hcsession
  have hsame : a.engine.session.isLocked = true → s = a.engine.session := by
    intro hl
    rcases hmark with h | ⟨-, h⟩
    · exact h
    · rw [h] at hl
      cases hl
  have hdated : s.Dated := by
    rcases hmark with rfl | ⟨-, hs⟩
    · exact ha.dated
    · intro _
      have hne : s.expire.status ≠ .idle := by simp [SessionState.expire]
      have hsome := ha.dated (hs ▸ hne)
      rwa [hs] at hsome
  rcases recoverSession_cases hs (hclog ▸ hlog) hrecover with ⟨hl, rfl⟩ | ⟨hl, rfl⟩ |
    ⟨hl, hover, hcconfig', hcsession', hclog'⟩
  · have hs' : s = a.engine.session := hmark.resolve_right fun h => hl (hcsession ▸ h.1)
    have hsession : a'.engine.session = a.engine.session := hsession'.trans (hcsession.trans hs')
    have hconfig : a'.engine.config = a.engine.config := hconfig'.trans hcconfig
    refine ⟨.silent (hlog'.trans hclog) ?_ (.inl hsession),
      .of_synced hsynced (hsession ▸ ha.dated)⟩
    rw [PolicyEngine.focusPolicy, hconfig, hsession, PolicyEngine.focusPolicy]
  · have hsession : a'.engine.session = s := hsession'.trans hcsession
    have hconfig : a'.engine.config = a.engine.config := hconfig'.trans hcconfig
    rw [hcsession] at hl hlog'
    obtain ⟨x, hx⟩ := hdated.locked hl
    rw [hx, hclog] at hlog'
    refine ⟨.resumes x ⟨_, _, _, hlog', readEntry_resumed⟩ ?_ fun h => hsession.trans (hsame h),
      .of_synced hsynced (hsession ▸ hdated)⟩
    have hne : s.status ≠ .idle := by
      rw [SessionState.status_of_isLocked hl]
      decide
    rw [PolicyEngine.focusPolicy, hconfig, hsession, if_neg hne, hx]
    rfl
  · have hsession : a'.engine.session = {} := hsession'.trans hcsession'
    have hconfig : a'.engine.config = a.engine.config := hconfig'.trans (hcconfig'.trans hcconfig)
    rw [hclog] at hclog'
    refine ⟨.enters .restored ⟨_, _, _, hlog'.trans hclog', readEntry_restored (.inr rfl)⟩ ?_
      (fun v hv => hover v ?_) (by simp), .of_synced hsynced fun h => absurd (hsession ▸ rfl) h⟩
    · rw [PolicyEngine.focusPolicy, hconfig, hsession]
      rfl
    · rw [hcsession, hsame hv.locked]
      exact hv

end FocusGuard

import FocusGuard.Core.Lock
import FocusGuard.Core.Policy
import FocusGuard.Dns.Catalogues
import FocusGuard.Storage.RoundTrip

/-!
# The invariant of the policy engine

An engine is *coherent* when the flags and the allowlist of the sinkhole are those of the
configuration and no stored domain can make a refresh raise. It is *synced* when, in
addition, the sinkhole holds exactly the rules of the configuration and the session, and the
state file stores both. The running engine is synced unless a guard has marked its session
as expired.

## Main results

* `Inv.tick`, `Inv.guarded`: the heartbeat and the guarded operations keep the invariant.
-/

namespace FocusGuard

namespace PolicyEngine

variable (rt : Runtime)

/-- The rules that a configuration and a session call for. -/
def activeRules (config : AppConfig) (session : SessionState) : Finset Key :=
  rulesOf rt ((if config.blockDoh then dohBootstrapDomains else []) ++
    getAllActiveBlockedDomains rt config session)

/-- No domain that a refresh may meet raises. -/
structure Safe (config : AppConfig) (session : SessionState) : Prop where
  permanent : ∀ d ∈ config.permanentDomains, RuleSafe rt d
  ofSession : session.isLocked = true → ∀ d ∈ session.sessionDomains, RuleSafe rt d

structure Coherent (e : PolicyEngine) : Prop where
  blockDoh : e.sinkhole.blockDoh = e.config.blockDoh
  allowlistMode : e.sinkhole.allowlistMode = e.config.allowlistMode
  allowed : DomainSinkhole.allowedRules rt e.config.allowedDomains = .ok e.sinkhole.allowedTrees
  safe : Safe rt e.config e.session

structure Synced (e : PolicyEngine) : Prop extends Coherent rt e where
  blocked : e.sinkhole.blockedTrees = activeRules rt e.config e.session
  stored : e.stateManager.disk.Stores e.config e.session

/-- The invariant of the running engine. -/
structure Inv (e : PolicyEngine) : Prop extends Coherent rt e where
  synced : e.session.status ≠ .expired → Synced rt e

variable {rt : Runtime} {env : CallEnv} {e : PolicyEngine} {config : AppConfig}
  {session : SessionState} {α : Type}

theorem Synced.inv (h : Synced rt e) : Inv rt e := ⟨h.toCoherent, fun _ => h⟩

/-! ## The domains in force -/

theorem mem_getAllActiveBlockedDomains {d : Text} :
    d ∈ getAllActiveBlockedDomains rt config session ↔
      d ∈ permanentlyBlocked rt config ∨ d ∈ sessionBlocked rt session := by
  simp [getAllActiveBlockedDomains]

/-- Only a permanent domain that was stored may be other than plain. -/
theorem permanentlyBlocked_cases {d : Text} (hd : d ∈ permanentlyBlocked rt config) :
    d ∈ config.permanentDomains ∨ Plain d := by
  simp only [permanentlyBlocked, List.mem_append] at hd
  rcases hd with ((hd | hd) | hd) | hd
  · exact .inl hd
  · exact .inr (getAllDomainsForServices_plain hd)
  · split at hd
    · exact .inr (getAllVpnDomains_plain d hd)
    · cases hd
  · split at hd
    · exact .inr (getAllDohDomains_plain d hd)
    · cases hd

/-- A refresh raises on no domain exactly when the two stored lists are safe. -/
theorem safe_iff : Safe rt config session ↔
    ∀ d ∈ getAllActiveBlockedDomains rt config session, RuleSafe rt d := by
  constructor
  · intro h d hd
    rcases mem_getAllActiveBlockedDomains.mp hd with hd | hd
    · rcases permanentlyBlocked_cases hd with hd | hd
      · exact h.permanent d hd
      · exact hd.ruleSafe
    · unfold sessionBlocked at hd
      split at hd
      · next hl =>
        rcases List.mem_append.mp hd with hd | hd
        · exact h.ofSession hl d hd
        · exact (getAllDomainsForServices_plain hd).ruleSafe
      · cases hd
  · intro h
    refine ⟨fun d hd => h d ?_, fun hl d hd => h d ?_⟩
    · refine mem_getAllActiveBlockedDomains.mpr (.inl ?_)
      simp [permanentlyBlocked, hd]
    · refine mem_getAllActiveBlockedDomains.mpr (.inr ?_)
      simp [sessionBlocked, hl, hd]

/-- What a refresh computes is what the rule set should be. -/
theorem blockedRules_active_iff {trees : Finset Key} :
    DomainSinkhole.blockedRules rt config.blockDoh
        (getAllActiveBlockedDomains rt config session) = .ok trees ↔
      Safe rt config session ∧ trees = activeRules rt config session := by
  rw [blockedRules_eq_ok_iff, ← safe_iff, activeRules]

/-! ## Running on a component -/

theorem onSession_eq {m : Exec PyError SessionState α} {r : Except PyError α}
    {t : SessionState} (h : m e.session = (r, t)) :
    onSession m e = (r, { e with session := t }) := by
  simp [onSession, h]

theorem onSinkhole_eq {m : Exec PyError DomainSinkhole α} {r : Except PyError α}
    {t : DomainSinkhole} (h : m e.sinkhole = (r, t)) :
    onSinkhole m e = (r, { e with sinkhole := t }) := by
  simp [onSinkhole, h]

/-- The engine after a refresh. -/
def refreshed (rt : Runtime) (e : PolicyEngine) : PolicyEngine :=
  { e with sinkhole := { e.sinkhole with blockedTrees := activeRules rt e.config e.session } }

theorem refreshSinkhole_eq (h : Coherent rt e) :
    refreshSinkhole rt e = (.ok (), refreshed rt e) := by
  have hrules : DomainSinkhole.blockedRules rt e.config.blockDoh
      (getAllActiveBlockedDomains rt e.config e.session) = _ :=
    blockedRules_active_iff.mpr ⟨h.safe, rfl⟩
  rw [← h.blockDoh] at hrules
  unfold refreshSinkhole
  rw [Exec.bind_of_ok (Exec.get_apply e)]
  refine onSinkhole_eq ?_
  simp [DomainSinkhole.setBlockedDomains, Exec.bind_apply, hrules]

theorem saveState_eq {r : Except PyError Unit} {m : StateManager}
    (h : save rt env { config := e.config, session := e.session } e.stateManager = (r, m)) :
    saveState rt env e = (r, { e with stateManager := m }) := by
  unfold saveState
  rw [Exec.bind_of_ok (Exec.get_apply e)]
  simp [onStore, h]

/-- A save that ends normally has written the policy and the session. -/
theorem saveState_ok {e' : PolicyEngine} (h : saveState rt env e = (.ok (), e')) :
    ∃ m, save rt env { config := e.config, session := e.session } e.stateManager = (.ok (), m) ∧
      e' = { e with stateManager := m } := by
  unfold saveState at h
  rw [Exec.bind_of_ok (Exec.get_apply e)] at h
  exact Exec.focus_eq_ok.mp h

/-! ## Guarded operations -/

/-- What a guarded operation does after its guard: nothing, or an edit of the permanent
configuration that is published. -/
def Settles (rt : Runtime) (m : Exec PyError PolicyEngine α) : Prop :=
  ∀ e, Coherent rt e → (m e).2 = e ∨ ((m e).2.session = e.session ∧ Synced rt (m e).2)

theorem settles_pure (a : α) : Settles rt (pure a : Exec PyError PolicyEngine α) :=
  fun _ _ => .inl rfl

theorem mem_appendMissing {d : Text} {l new : List Text} (h : d ∈ (appendMissing l new).1) :
    d ∈ l ∨ d ∈ new := by
  induction new generalizing l with
  | nil => exact .inl h
  | cons a new ih =>
    rw [appendMissing] at h
    split at h
    · rcases ih h with h | h
      · exact .inl h
      · exact .inr (List.mem_cons_of_mem _ h)
    · rcases ih h with h | h
      · rcases List.mem_append.mp h with h | h
        · exact .inl h
        · exact .inr (by simpa using .inl (List.mem_singleton.mp h))
      · exact .inr (List.mem_cons_of_mem _ h)

/-- An operation whose first act is the guard, and which settles afterwards. -/
def Guarded (rt : Runtime) (env : CallEnv) (m : Exec PyError PolicyEngine α) : Prop :=
  ∃ f, m = (onSession (assertNotLocked rt env.clock) >>= fun _ => f) ∧ Settles rt f

theorem guarded_stopFocusSession : Guarded rt env (stopFocusSession rt env) :=
  ⟨pure (), (Exec.bind_pure_unit _).symm, settles_pure ()⟩

/-- What a guarded operation can do to the engine: change nothing, mark the session as
expired, or leave a synced engine whose session is the one the guard left. -/
theorem Guarded.cases {m : Exec PyError PolicyEngine α} (h : Guarded rt env m)
    (he : Coherent rt e) :
    (m e).2 = e ∨
    ((m e).2.session = e.session ∧ Synced rt (m e).2) ∨
    (∃ message, checkExpiration rt (env.clock 1) e.session =
        (.ok (true, message), e.session.expire) ∧
      getRemainingSeconds rt e.session (env.clock 0) = .ok 0 ∧
      (m e).2.session = e.session.expire ∧
      ((m e).2 = { e with session := e.session.expire } ∨ Synced rt (m e).2)) := by
  obtain ⟨f, rfl, hf⟩ := h
  rcases assertNotLocked_cases rt e.session env.clock with
    ⟨x, hx⟩ | hok | ⟨hl, hrem, ⟨message, hm⟩, hok⟩
  · rw [Exec.bind_of_error (onSession_eq hx)]
    exact .inl rfl
  · rw [Exec.bind_of_ok (onSession_eq hok)]
    rcases hf e he with h | h
    · exact .inl h
    · exact .inr (.inl h)
  · have hc : Coherent rt { e with session := e.session.expire } :=
      ⟨he.blockDoh, he.allowlistMode, he.allowed, he.safe.permanent, fun hl => by cases hl⟩
    rw [Exec.bind_of_ok (onSession_eq hok)]
    refine .inr (.inr ⟨message, hm, hrem, ?_⟩)
    rcases hf _ hc with h | ⟨hsession, hsync⟩
    · exact ⟨congrArg PolicyEngine.session h, .inl h⟩
    · exact ⟨hsession, .inr hsync⟩

/-- Before the expiry time of a locked session a guarded operation does nothing. -/
theorem Guarded.before {m : Exec PyError PolicyEngine α} (h : Guarded rt env m) {u : Int}
    (hl : e.session.LockedUntil rt u) (hnow : (env.clock 0).micros < u) :
    (m e).2 = e := by
  obtain ⟨f, rfl, -⟩ := h
  rw [Exec.bind_of_error (onSession_eq (assertNotLocked_before hl hnow))]

theorem Inv.guarded {m : Exec PyError PolicyEngine α} (he : Inv rt e) (h : Guarded rt env m) :
    Inv rt (m e).2 := by
  rcases h.cases he.toCoherent with h | ⟨-, h⟩ | ⟨message, hm, -, hsession, h | h⟩
  · rwa [h]
  · exact h.inv
  · rw [h]
    refine ⟨⟨he.blockDoh, he.allowlistMode, he.allowed, he.safe.permanent, fun hl => ?_⟩, ?_⟩
    · cases hl
    · exact fun hne => absurd rfl hne
  · exact h.inv

/-! ## The heartbeat -/

theorem Coherent.idle (he : Coherent rt e) : Coherent rt { e with session := {} } :=
  ⟨he.blockDoh, he.allowlistMode, he.allowed, he.safe.permanent, fun hl => by cases hl⟩

/-- A tick that finds the session expired puts the permanent policy in force and saves it. -/
theorem tick_expired_eq (he : Coherent rt e) {message : Text}
    (hx : checkExpiration rt (env.clock 0) e.session = (.ok (true, message), e.session.expire)) :
    tick rt env e = (saveState rt env >>= fun _ => (pure true : Exec PyError PolicyEngine Bool))
      (refreshed rt { e with session := {} }) := by
  refine (Exec.bind_of_ok (onSession_eq hx)).trans ?_
  rw [if_pos rfl]
  refine (Exec.bind_of_ok (onSession_eq (Exec.modify_apply _ _))).trans ?_
  exact Exec.bind_of_ok (refreshSinkhole_eq he.idle)

/-- Where the state can be written, that tick leaves a synced engine. -/
theorem tick_of_expired (he : Coherent rt e) (hs : env.saveOk = true) {message : Text}
    (hx : checkExpiration rt (env.clock 0) e.session = (.ok (true, message), e.session.expire)) :
    ∃ e', tick rt env e = (.ok true, e') ∧ e'.session = {} ∧ e'.config = e.config ∧
      Synced rt e' := by
  obtain ⟨m, hm, hst⟩ := save_ok rt { config := e.config, session := {} } e.stateManager hs
  have hsave : saveState rt env (refreshed rt { e with session := {} }) =
      (.ok (), { refreshed rt { e with session := {} } with stateManager := m }) :=
    saveState_eq hm
  have hc := he.idle
  refine ⟨_, (tick_expired_eq he hx).trans (Exec.bind_of_ok hsave), rfl, rfl, ?_⟩
  exact ⟨⟨hc.blockDoh, hc.allowlistMode, hc.allowed, hc.safe⟩, rfl, hst⟩

/-- Where the state cannot be written, that tick raises. -/
theorem tick_of_expired_unsaved (he : Coherent rt e) (hs : ¬ env.saveOk = true) {message : Text}
    (hx : checkExpiration rt (env.clock 0) e.session = (.ok (true, message), e.session.expire)) :
    (tick rt env e).1 = .error .osError := by
  obtain ⟨m, hm, -⟩ := save_error rt { config := e.config, session := {} } e.stateManager hs
  have hsave : saveState rt env (refreshed rt { e with session := {} }) =
      (.error .osError, { refreshed rt { e with session := {} } with stateManager := m }) :=
    saveState_eq hm
  rw [tick_expired_eq he hx, Exec.bind_of_error hsave]

theorem tick_of_error {x : PyError}
    (hx : checkExpiration rt (env.clock 0) e.session = (.error x, e.session)) :
    tick rt env e = (.error x, e) :=
  Exec.bind_of_error (onSession_eq hx)

theorem tick_of_active {message : Text}
    (hx : checkExpiration rt (env.clock 0) e.session = (.ok (false, message), e.session)) :
    tick rt env e = (.ok false, e) :=
  Exec.bind_of_ok (onSession_eq hx)

/-- Any other tick changes nothing. -/
theorem tick_of_not_expired (hx : ∀ message, checkExpiration rt (env.clock 0) e.session ≠
    (.ok (true, message), e.session.expire)) : (tick rt env e).2 = e := by
  rcases checkExpiration_cases rt e.session (env.clock 0) with ⟨x, h⟩ | ⟨m, h⟩ | ⟨-, m, h⟩
  · rw [tick_of_error h]
  · rw [tick_of_active h]
  · exact absurd h (hx m)

theorem Inv.tick (he : Inv rt e) (hs : env.saveOk = true) :
    Inv rt (PolicyEngine.tick rt env e).2 := by
  by_cases hx : ∃ message, checkExpiration rt (env.clock 0) e.session =
      (.ok (true, message), e.session.expire)
  · obtain ⟨message, hm⟩ := hx
    obtain ⟨e', heq, -, -, hsync⟩ := tick_of_expired he.toCoherent hs hm
    rw [heq]
    exact hsync.inv
  · rw [tick_of_not_expired (not_exists.mp hx)]
    exact he

/-! ## Starting a session -/

theorem customServices_mem {args : List Json} {services : List ServiceDefinition}
    (h : customServices rt args = .ok services) : ∀ svc ∈ services, svc ∈ serviceRegistry := by
  induction args generalizing services with
  | nil =>
    cases h
    simp
  | cons a args ih =>
    rw [customServices] at h
    split at h
    · cases h
    · next found hf =>
      split at h
      · cases h
      · next l hl =>
        cases h
        intro svc hsvc
        rcases List.mem_append.mp hsvc with hm | hm
        · cases a with
          | str t =>
            rw [lookupService, Except.ok.injEq] at hf
            subst hf
            exact getService_mem (Option.mem_toList.mp hm)
          | _ => cases hf
        · exact ih hl svc hm

theorem customDomains_plain {companions : Bool} {args : List Json} {domains : List Text}
    (h : customDomains rt companions args = .ok domains) : ∀ d ∈ domains, Plain d := by
  induction args generalizing domains with
  | nil =>
    cases h
    simp
  | cons a args ih =>
    rw [customDomains] at h
    split at h
    · exact ih h
    · cases h
    · next norm hn =>
      split at h
      · cases h
      · next l hl =>
        cases h
        intro d hd
        rcases List.mem_append.mp hd with hd | hd
        · rcases List.mem_cons.mp hd with rfl | hd
          · exact normalizeDomain_plain hn
          · split at hd
            · exact getCompanionDomains_plain hd
            · cases hd
        · exact ih hl d hd

/-- Both arguments can be looped over, and every value in them is looked up or normalized. -/
theorem sessionScope_eq_ok {domainsArg servicesArg : Json} {companions : Bool}
    {scope : List Text × List Text}
    (h : sessionScope rt config domainsArg servicesArg companions = .ok scope) :
    ∃ ls services ld domains, loopOver servicesArg = .ok ls ∧ customServices rt ls = .ok services ∧
      loopOver domainsArg = .ok ld ∧ customDomains rt companions ld = .ok domains ∧
      scope = if ¬ domainsArg.truthy ∧ ¬ servicesArg.truthy then
        (config.permanentDomains ++ getAllDomainsForServices rt config.permanentServices,
          config.permanentServices)
      else (services.flatMap ServiceDefinition.allDomains ++ domains,
        services.map ServiceDefinition.id) := by
  unfold sessionScope at h
  cases hls : loopOver servicesArg with
  | error x => simp [hls, Bind.bind, Except.bind] at h
  | ok ls =>
    cases hs : customServices rt ls with
    | error x => simp [hls, hs, Bind.bind, Except.bind] at h
    | ok services =>
      cases hld : loopOver domainsArg with
      | error x => simp [hls, hs, hld, Bind.bind, Except.bind] at h
      | ok ld =>
        cases hd : customDomains rt companions ld with
        | error x => simp [hls, hs, hld, hd, Bind.bind, Except.bind] at h
        | ok domains =>
          simp only [hls, hs, hld, hd, Bind.bind, Except.bind] at h
          refine ⟨ls, services, ld, domains, rfl, hs, rfl, hd, ?_⟩
          split at h
          · next hnone =>
            rw [if_pos hnone]
            exact (Except.ok.inj h).symm
          · next hsome =>
            rw [if_neg hsome]
            exact (Except.ok.inj h).symm

/-- The domains of a new session are the permanent ones, or plain. -/
theorem sessionScope_cases {domainsArg servicesArg : Json} {companions : Bool}
    {scope : List Text × List Text}
    (h : sessionScope rt config domainsArg servicesArg companions = .ok scope) :
    ∀ d ∈ scope.1, d ∈ config.permanentDomains ∨ Plain d := by
  obtain ⟨ls, services, ld, domains, -, hs, -, hd, rfl⟩ := sessionScope_eq_ok h
  intro d hm
  split at hm
  · exact (List.mem_append.mp hm).imp_right getAllDomainsForServices_plain
  · rcases List.mem_append.mp hm with hm | hm
    · obtain ⟨svc, hsvc, hm⟩ := List.mem_flatMap.mp hm
      exact .inr (serviceRegistry_plain (customServices_mem hs svc hsvc) d hm)
    · exact .inr (customDomains_plain hd d hm)

/-- No domain of a new session can make a refresh raise. -/
theorem sessionScope_ruleSafe {domainsArg servicesArg : Json} {companions : Bool}
    {scope : List Text × List Text} (hsafe : ∀ d ∈ config.permanentDomains, RuleSafe rt d)
    (h : sessionScope rt config domainsArg servicesArg companions = .ok scope) :
    ∀ d ∈ scope.1, RuleSafe rt d := by
  intro d hd
  rcases sessionScope_cases h d hd with hd | hd
  · exact hsafe d hd
  · exact hd.ruleSafe

end PolicyEngine

end FocusGuard

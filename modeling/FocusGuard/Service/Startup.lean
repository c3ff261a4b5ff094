import FocusGuard.Core.PolicyInvariant
import FocusGuard.Service.Daemon

/-!
# Starting the engine on stored state

What the constructor makes of a directory. An engine that comes up is synced, and what
comes up on stored state is decided by the expiry check alone.

## Main results

* `startEngine_synced`: every engine that comes up is synced.
* `startEngine_active`, `startEngine_expired`, `startEngine_error`: what comes up on stored
  state, by what the expiry check says.
-/

namespace FocusGuard

open PolicyEngine

variable {rt : Runtime} {env : CallEnv} {e e' : PolicyEngine}

namespace PolicyEngine

/-! ## Recovery -/

theorem recoverSession_error {x : PyError}
    (h : checkExpiration rt (env.clock 0) e.session = (.error x, e.session)) :
    recoverSession rt env e = (.error x, e) := by
  by_cases hl : e.session.isLocked = true
  · unfold recoverSession
    rw [Exec.bind_of_ok (Exec.get_apply e), if_pos hl, Exec.bind_of_error (onSession_eq h)]
  · rw [checkExpiration_of_not_locked hl] at h
    cases h

theorem recoverSession_active {message : Text}
    (h : checkExpiration rt (env.clock 0) e.session = (.ok (false, message), e.session)) :
    recoverSession rt env e = (.ok (), e) := by
  unfold recoverSession
  rw [Exec.bind_of_ok (Exec.get_apply e)]
  by_cases hl : e.session.isLocked = true
  · rw [if_pos hl, Exec.bind_of_ok (onSession_eq h)]
    rfl
  · rw [if_neg hl]
    rfl

/-- An expired session is replaced by an idle one before the state is saved. -/
theorem recoverSession_expired {message : Text}
    (h : checkExpiration rt (env.clock 0) e.session = (.ok (true, message), e.session.expire)) :
    recoverSession rt env e = saveState rt env { e with session := {} } := by
  have hl := (of_checkExpiration_true h).1
  unfold recoverSession
  rw [Exec.bind_of_ok (Exec.get_apply e), if_pos hl, Exec.bind_of_ok (onSession_eq h), if_pos rfl]
  exact Exec.bind_of_ok (a := ()) (onSession_eq (Exec.modify_apply _ _))

/-- The engine once the flags and the allowlist of the sinkhole are set. -/
def configured (e : PolicyEngine) (allowed : Finset Key) : PolicyEngine :=
  { e with sinkhole :=
      ⟨e.config.blockDoh, e.sinkhole.blockedTrees, allowed, e.config.allowlistMode⟩ }

theorem boot_configured {allowed : Finset Key}
    (h : DomainSinkhole.allowedRules rt e.config.allowedDomains = .ok allowed) :
    boot rt env e =
      (recoverSession rt env >>= fun _ => refreshSinkhole rt) (configured e allowed) := by
  unfold boot
  rw [Exec.bind_of_ok (Exec.get_apply e),
    Exec.bind_of_ok (onSinkhole_eq (Exec.modify_apply _ e.sinkhole))]
  refine Exec.bind_of_ok (a := ()) (onSinkhole_eq ?_)
  simp [DomainSinkhole.setAllowedDomains, Exec.bind_apply, h]

/-- A constructor that ends normally has installed the allowlist, recovered the session and
refreshed the rules. -/
theorem of_boot_ok (h : boot rt env e = (.ok (), e')) : ∃ allowed e₁,
    DomainSinkhole.allowedRules rt e.config.allowedDomains = .ok allowed ∧
      recoverSession rt env (configured e allowed) = (.ok (), e₁) ∧
      refreshSinkhole rt e₁ = (.ok (), e') := by
  cases hallowed : DomainSinkhole.allowedRules rt e.config.allowedDomains with
  | error x =>
    unfold boot at h
    rw [Exec.bind_of_ok (Exec.get_apply e),
      Exec.bind_of_ok (onSinkhole_eq (Exec.modify_apply _ e.sinkhole))] at h
    obtain ⟨u, e₁, hinstall, -⟩ := Exec.bind_eq_ok.mp h
    obtain ⟨s, hset, -⟩ := Exec.focus_eq_ok.mp hinstall
    simp [DomainSinkhole.setAllowedDomains, Exec.bind_apply, hallowed] at hset
  | ok allowed =>
    rw [boot_configured hallowed] at h
    obtain ⟨u, e₁, hrec, hrefresh⟩ := Exec.bind_eq_ok.mp h
    exact ⟨allowed, e₁, rfl, hrec, hrefresh⟩

theorem refreshSinkhole_ok (hb : e.sinkhole.blockDoh = e.config.blockDoh)
    (h : refreshSinkhole rt e = (.ok (), e')) :
    Safe rt e.config e.session ∧ e' = refreshed rt e := by
  unfold refreshSinkhole at h
  rw [Exec.bind_of_ok (Exec.get_apply e)] at h
  obtain ⟨s, hset, rfl⟩ := Exec.focus_eq_ok.mp h
  cases hrules : DomainSinkhole.blockedRules rt e.sinkhole.blockDoh
      (getAllActiveBlockedDomains rt e.config e.session) with
  | error x => simp [DomainSinkhole.setBlockedDomains, Exec.bind_apply, hrules] at hset
  | ok trees =>
    have hs : s = { e.sinkhole with blockedTrees := trees } := by
      simpa [DomainSinkhole.setBlockedDomains, Exec.bind_apply, hrules] using hset.symm
    rw [hb] at hrules
    obtain ⟨hsafe, rfl⟩ := blockedRules_active_iff.mp hrules
    exact ⟨hsafe, by rw [hs]; rfl⟩

/-- What `recoverSession` leaves: the engine as it was, or an idle session that is saved. -/
theorem recoverSession_ok (h : recoverSession rt env e = (.ok (), e'))
    (hst : e.stateManager.disk.Stores e.config e.session) :
    (e' = e ∨ ∃ m, e' = { e with session := {}, stateManager := m }) ∧
      e'.stateManager.disk.Stores e'.config e'.session := by
  rcases checkExpiration_cases rt e.session (env.clock 0) with ⟨x, hx⟩ | ⟨m, hm⟩ | ⟨-, m, hm⟩
  · rw [recoverSession_error hx] at h
    cases h
  · rw [recoverSession_active hm] at h
    cases h
    exact ⟨.inl rfl, hst⟩
  · rw [recoverSession_expired hm] at h
    obtain ⟨t, hs, rfl⟩ := saveState_ok h
    exact ⟨.inr ⟨t, rfl⟩, stores_of_save hs⟩

theorem boot_synced (h : boot rt env e = (.ok (), e'))
    (hst : e.stateManager.disk.Stores e.config e.session) : Synced rt e' := by
  obtain ⟨allowed, e₁, hallowed, hrec, hrefresh⟩ := of_boot_ok h
  obtain ⟨rfl | ⟨m, rfl⟩, hst'⟩ := recoverSession_ok hrec hst
  · obtain ⟨hsafe, rfl⟩ := refreshSinkhole_ok rfl hrefresh
    exact ⟨⟨rfl, rfl, hallowed, hsafe⟩, rfl, hst'⟩
  · obtain ⟨hsafe, rfl⟩ := refreshSinkhole_ok rfl hrefresh
    exact ⟨⟨rfl, rfl, hallowed, hsafe⟩, rfl, hst'⟩

end PolicyEngine

/-! ## The constructor -/

/-- A sinkhole that has just been built. -/
def bareSinkhole (rt : Runtime) : DomainSinkhole := ⟨true, rulesOf rt dohBootstrapDomains, ∅, false⟩

theorem init_eq : DomainSinkhole.init rt true = .ok (bareSinkhole rt) := by
  have hsafe : ∀ d ∈ dohBootstrapDomains, RuleSafe rt d :=
    fun d hd => (dohBootstrapDomains_plain d hd).ruleSafe
  have hrules : addRules rt dohBootstrapDomains ∅ = .ok (rulesOf rt dohBootstrapDomains) := by
    rw [addRules_of_ruleSafe hsafe, Finset.empty_union]
  unfold DomainSinkhole.init
  rw [if_pos rfl, hrules]
  rfl

theorem startEngine_eq_create (rt : Runtime) (env : CallEnv) (disk : Disk) :
    startEngine rt env disk = (create rt env (bareSinkhole rt) { disk := disk }).1 := by
  unfold startEngine
  rw [init_eq]

/-- What the constructor returns where loading and recovery go through. -/
theorem startEngine_of_boot {disk : Disk} {m : StateManager} {data : PersistentData × Bool}
    (hload : load rt env { disk := disk } = (.ok data, m))
    (hboot : boot rt env ⟨bareSinkhole rt, m, data.1.config, data.1.session⟩ = (.ok (), e)) :
    startEngine rt env disk = .ok e := by
  rw [startEngine_eq_create]
  unfold create
  rw [hload]
  dsimp only
  rw [hboot]

/-- Every engine that comes up is synced. -/
theorem startEngine_synced {disk : Disk} (h : startEngine rt env disk = .ok e) :
    Synced rt e := by
  rw [startEngine_eq_create] at h
  unfold create at h
  match hl : load rt env { disk := disk } with
  | (.error x, m) =>
    rw [hl] at h
    cases h
  | (.ok data, m) =>
    rw [hl] at h
    dsimp only at h
    match hb : boot rt env ⟨bareSinkhole rt, m, data.1.config, data.1.session⟩ with
    | (.error x, t) =>
      rw [hb] at h
      cases h
    | (.ok (), t) =>
      rw [hb] at h
      cases h
      exact boot_synced hb (stores_of_load hl)

theorem startEngine_of_stores (rt : Runtime) {disk : Disk} {config : AppConfig}
    {session : SessionState}
    (h : disk.Stores config session) (env : CallEnv) :
    ∃ m, m.disk.stateFile = disk.stateFile ∧ startEngine rt env disk =
      match boot rt env ⟨bareSinkhole rt, m, config, session⟩ with
      | (.error x, _) => .error x
      | (.ok (), e) => .ok e := by
  obtain ⟨data, verified, m, hload, rfl, rfl, hfile⟩ :=
    load_of_stores rt env (m := { disk := disk }) h
  refine ⟨m, hfile, ?_⟩
  rw [startEngine_eq_create]
  unfold create
  rw [hload]
  dsimp only
  rcases boot rt env ⟨bareSinkhole rt, m, data.config, data.session⟩ with ⟨x | u, t⟩
  · rfl
  · rfl

/-- An engine that the constructor has configured but not yet refreshed. -/
def unrefreshed (rt : Runtime) (config : AppConfig) (session : SessionState) (allowed : Finset Key)
    (m : StateManager) : PolicyEngine where
  sinkhole := ⟨config.blockDoh, rulesOf rt dohBootstrapDomains, allowed, config.allowlistMode⟩
  stateManager := m
  config := config
  session := session

/-- An engine whose sinkhole holds the rules of its configuration and session. -/
def inForce (rt : Runtime) (config : AppConfig) (session : SessionState) (allowed : Finset Key)
    (m : StateManager) : PolicyEngine :=
  refreshed rt (unrefreshed rt config session allowed m)

/-- A synced engine holds just these rules already. -/
theorem PolicyEngine.Synced.inForce_eq (he : Synced rt e) (m : StateManager) :
    inForce rt e.config e.session e.sinkhole.allowedTrees m = { e with stateManager := m } := by
  simp only [inForce, refreshed, unrefreshed, ← he.blockDoh, ← he.allowlistMode, ← he.blocked]

section Stored

variable {disk : Disk} {config : AppConfig} {session : SessionState} {allowed : Finset Key}
  (hst : disk.Stores config session)
  (hallowed : DomainSinkhole.allowedRules rt config.allowedDomains = .ok allowed)

include hst hallowed

/-- On stored state the constructor recovers and refreshes. -/
theorem startEngine_eq (env : CallEnv) :
    ∃ m, startEngine rt env disk =
      match (recoverSession rt env >>= fun _ => refreshSinkhole rt)
          (unrefreshed rt config session allowed m) with
      | (.error x, _) => .error x
      | (.ok (), e) => .ok e := by
  obtain ⟨m, -, heq⟩ := startEngine_of_stores rt hst env
  refine ⟨m, ?_⟩
  have hboot : boot rt env ⟨bareSinkhole rt, m, config, session⟩ = _ := boot_configured hallowed
  rw [heq, hboot]
  rfl

/-- While the session is not found expired, the stored policy is in force. -/
theorem startEngine_active (hsafe : Safe rt config session) {message : Text}
    (hx : checkExpiration rt (env.clock 0) session = (.ok (false, message), session)) :
    ∃ m, startEngine rt env disk = .ok (inForce rt config session allowed m) := by
  obtain ⟨m, heq⟩ := startEngine_eq hst hallowed env
  have hrec : recoverSession rt env (unrefreshed rt config session allowed m) =
      (.ok (), unrefreshed rt config session allowed m) :=
    recoverSession_active (e := unrefreshed rt config session allowed m) hx
  have hc : Coherent rt (unrefreshed rt config session allowed m) := ⟨rfl, rfl, hallowed, hsafe⟩
  refine ⟨m, heq.trans ?_⟩
  rw [Exec.bind_of_ok hrec, refreshSinkhole_eq hc]
  rfl

/-- A session that is found expired is replaced by an idle one, or the save raised. -/
theorem startEngine_expired (hsafe : ∀ d ∈ config.permanentDomains, RuleSafe rt d) {message : Text}
    (hx : checkExpiration rt (env.clock 0) session = (.ok (true, message), session.expire)) :
    if env.saveOk = true then
      ∃ m, startEngine rt env disk = .ok (inForce rt config {} allowed m)
    else startEngine rt env disk = .error .osError := by
  obtain ⟨m, heq⟩ := startEngine_eq hst hallowed env
  have hrec : recoverSession rt env (unrefreshed rt config session allowed m) =
      saveState rt env (unrefreshed rt config {} allowed m) :=
    recoverSession_expired (e := unrefreshed rt config session allowed m) hx
  rw [heq]
  by_cases hs : env.saveOk = true
  · rw [if_pos hs]
    obtain ⟨t, ht, -⟩ := save_ok rt { config := config, session := {} } m hs
    refine ⟨t, ?_⟩
    have hsave : saveState rt env (unrefreshed rt config {} allowed m) =
        (.ok (), unrefreshed rt config {} allowed t) := saveState_eq ht
    have hc : Coherent rt (unrefreshed rt config {} allowed t) :=
      ⟨rfl, rfl, hallowed, hsafe, fun hl => by cases hl⟩
    rw [Exec.bind_of_ok (hrec.trans hsave), refreshSinkhole_eq hc]
    rfl
  · rw [if_neg hs]
    obtain ⟨t, ht, -⟩ := save_error rt { config := config, session := {} } m hs
    have hsave : saveState rt env (unrefreshed rt config {} allowed m) =
        (.error .osError, unrefreshed rt config {} allowed t) := saveState_eq ht
    rw [Exec.bind_of_error (hrec.trans hsave)]

/-- Where the expiry check raises, so does the constructor. -/
theorem startEngine_error {x : PyError}
    (hx : checkExpiration rt (env.clock 0) session = (.error x, session)) :
    startEngine rt env disk = .error x := by
  obtain ⟨m, heq⟩ := startEngine_eq hst hallowed env
  have hrec : recoverSession rt env (unrefreshed rt config session allowed m) =
      (.error x, unrefreshed rt config session allowed m) :=
    recoverSession_error (e := unrefreshed rt config session allowed m) hx
  rw [heq, Exec.bind_of_error hrec]

end Stored

end FocusGuard

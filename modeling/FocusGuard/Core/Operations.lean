import FocusGuard.Core.SessionStart

/-!
# The operations of the engine

Up to its save an operation does not depend on the disk. It raises and changes nothing, it returns
and changes nothing, or it puts a configuration and a session in force and comes to the save. Only
there the disk decides: the operation returns, or it raises and memory stays as it is by then.

## Main results

* `Operation.effect`: what an operation does to a coherent engine, whatever the disk.
* `Effect.coherent`: the engine is coherent afterwards.
-/

namespace FocusGuard

open Calendar PolicyEngine

/-- The calls that change the policy, with their arguments. -/
inductive Operation where
  | addPermanentDomain (domainInput : Json) (includeCompanions : Bool)
  | removePermanentDomain (domainInput : Json)
  | blockPermanentService (serviceId : Json)
  | unblockPermanentService (serviceId : Json)
  | startFocusSession (durationStr untilStr domainsArg servicesArg : Json) (includeCompanions : Bool)
  | stopFocusSession

namespace Operation

/-- The call, less its result. -/
def run (rt : Runtime) (env : CallEnv) : Operation → Exec PyError PolicyEngine Unit
  | .addPermanentDomain domainInput includeCompanions =>
    PolicyEngine.addPermanentDomain rt env domainInput includeCompanions >>= fun _ => pure ()
  | .removePermanentDomain domainInput =>
    PolicyEngine.removePermanentDomain rt env domainInput >>= fun _ => pure ()
  | .blockPermanentService serviceId =>
    PolicyEngine.blockPermanentService rt env serviceId >>= fun _ => pure ()
  | .unblockPermanentService serviceId =>
    PolicyEngine.unblockPermanentService rt env serviceId >>= fun _ => pure ()
  | .startFocusSession durationStr untilStr domainsArg servicesArg includeCompanions =>
    PolicyEngine.startFocusSession rt env durationStr untilStr domainsArg servicesArg
      includeCompanions >>= fun _ => pure ()
  | .stopFocusSession => PolicyEngine.stopFocusSession rt env

/-- Whether the call begins with `assert_not_locked`. -/
def isGuarded : Operation → Bool
  | .startFocusSession _ _ _ _ _ => false
  | _ => true

end Operation

/-- The engine with a configuration and a session in force. -/
def PolicyEngine.published (rt : Runtime) (e : PolicyEngine) (config : AppConfig)
    (session : SessionState) (m : StateManager) : PolicyEngine :=
  { refreshed rt { e with config := config, session := session } with stateManager := m }

/-- What a call on `e` does, by whether the state file can be written. Where it gets to its save,
it has put `session` and some configuration in force on the engine `e₀` that its guard left. -/
inductive Effect (rt : Runtime) {α : Type} (f : Bool → Exec PyError PolicyEngine α)
    (e e₀ : PolicyEngine) (session : SessionState) : Prop where
  | raises (x : PyError) : (∀ ok, f ok e = (.error x, e₀)) → Effect rt f e e₀ session
  | returns (a : α) : (∀ ok, f ok e = (.ok a, e₀)) → Effect rt f e e₀ session
  | saves (config : AppConfig) : Coherent rt { e₀ with config := config, session := session } →
      config.blockDoh = e₀.config.blockDoh → config.allowlistMode = e₀.config.allowlistMode →
      (∀ p ∈ config.permanentDomains, p ∈ e₀.config.permanentDomains ∨ Validated p) →
      (∃ a m, m.disk.Stores config session ∧
        f true e = (.ok a, published rt e₀ config session m)) →
      (∃ m, m.disk.stateFile = e.stateManager.disk.stateFile ∧
        f false e = (.error .osError, published rt e₀ config session m)) →
      Effect rt f e e₀ session

/-- What the guard leaves: the engine, or the engine with an elapsed session marked as expired. -/
def Passed (rt : Runtime) (env : CallEnv) (e e₀ : PolicyEngine) : Prop :=
  e₀ = e ∨ (e.session.isLocked = true ∧ getRemainingSeconds rt e.session (env.clock 0) = .ok 0 ∧
    (∃ message, checkExpiration rt (env.clock 1) e.session =
      (.ok (true, message), e.session.expire)) ∧ e₀ = { e with session := e.session.expire })

variable {rt : Runtime} {env : CallEnv} {e e₀ : PolicyEngine} {session : SessionState} {α β : Type}

theorem PolicyEngine.Coherent.published {config : AppConfig}
    (h : Coherent rt { e with config := config, session := session }) (m : StateManager) :
    Coherent rt (published rt e config session m) :=
  ⟨h.blockDoh, h.allowlistMode, h.allowed, h.safe⟩

theorem PolicyEngine.Coherent.passed (he : Coherent rt e) (h : Passed rt env e e₀) :
    Coherent rt e₀ := by
  rcases h with rfl | ⟨-, -, -, rfl⟩
  · exact he
  · exact ⟨he.blockDoh, he.allowlistMode, he.allowed, he.safe.permanent, fun hl => by cases hl⟩

/-- An edit, a refresh and a save, on a disk that works and on one that does not. -/
theorem edit_run (edit : AppConfig → AppConfig) (env : CallEnv)
    (hc : Coherent rt { e with config := edit e.config }) (a : α) :
    (∃ m, m.disk.Stores (edit e.config) e.session ∧
      (setConfig edit >>= fun _ => refreshSinkhole rt >>= fun _ =>
        saveState rt (env.withDisk true) >>= fun _ => (pure a : Exec PyError PolicyEngine α)) e =
          (.ok a, published rt e (edit e.config) e.session m)) ∧
    ∃ m, m.disk.stateFile = e.stateManager.disk.stateFile ∧
      (setConfig edit >>= fun _ => refreshSinkhole rt >>= fun _ =>
        saveState rt (env.withDisk false) >>= fun _ => (pure a : Exec PyError PolicyEngine α)) e =
          (.error .osError, published rt e (edit e.config) e.session m) := by
  have hrefresh : ∀ f : Exec PyError PolicyEngine α,
      (setConfig edit >>= fun _ => refreshSinkhole rt >>= fun _ => f) e =
        f (refreshed rt { e with config := edit e.config }) := fun f =>
    (Exec.bind_of_ok (Exec.modify_apply _ e)).trans (Exec.bind_of_ok (refreshSinkhole_eq hc))
  constructor
  · obtain ⟨m, hm, hst⟩ := save_ok rt { config := edit e.config, session := e.session }
      e.stateManager (show (env.withDisk true).saveOk = true from rfl)
    refine ⟨m, hst, (hrefresh _).trans ?_⟩
    exact Exec.bind_of_ok (a := ()) (saveState_eq hm)
  · obtain ⟨m, hm, hfile⟩ := save_error rt { config := edit e.config, session := e.session }
      e.stateManager (show ¬ (env.withDisk false).saveOk = true from Bool.false_ne_true)
    refine ⟨m, hfile, (hrefresh _).trans ?_⟩
    exact Exec.bind_of_error (saveState_eq hm)

/-- What is appended is a normalized domain or one of its companions. -/
theorem appendMissing_domains {l : List Text} {input : Json} {normalized : Text}
    (hn : normalizeDomain rt input = .ok normalized) (companions : Bool) :
    ∀ p ∈ (appendMissing l
      (normalized :: if companions then getCompanionDomains rt normalized else [])).1,
      p ∈ l ∨ Validated p := by
  intro p hp
  rcases mem_appendMissing hp with hp | hp
  · exact .inl hp
  · rcases List.mem_cons.mp hp with rfl | hp
    · cases input with
      | str t => exact .inr (validated_of_normalizeText hn)
      | _ => cases hn
    · split at hp
      · exact .inr (getCompanionDomains_entry hp).1
      · cases hp

theorem ruleSafe_of_domains {l l' : List Text} (hl : ∀ d ∈ l, RuleSafe rt d)
    (h : ∀ p ∈ l', p ∈ l ∨ Validated p) : ∀ p ∈ l', RuleSafe rt p := by
  intro p hp
  rcases h p hp with hp | hp
  · exact hl p hp
  · exact hp.plain.ruleSafe

/-- Outside a session a call with a valid domain comes to its edit. -/
theorem normalized_run {input : Json} {normalized : Text} (env : CallEnv)
    (hidle : ¬ e.session.isLocked = true) (hn : normalizeDomain rt input = .ok normalized)
    (f : Text → PolicyEngine → Exec PyError PolicyEngine α) :
    (onSession (assertNotLocked rt env.clock) >>= fun _ =>
      Exec.ofExcept (normalizeDomain rt input) >>= fun domain =>
        Exec.get >>= fun engine => f domain engine) e = f normalized e e := by
  have hguard : onSession (assertNotLocked rt env.clock) e = (.ok (), e) :=
    onSession_eq (assertNotLocked_of_not_locked hidle)
  have hnorm : (Exec.ofExcept (normalizeDomain rt input) : Exec PyError PolicyEngine Text) e =
      (.ok normalized, e) := congrArg (·, e) hn
  exact (Exec.bind_of_ok hguard).trans
    ((Exec.bind_of_ok hnorm).trans (Exec.bind_of_ok (Exec.get_apply e)))

/-- Outside a session a valid domain is added, and only the save depends on the disk. -/
theorem addPermanentDomain_run {input : Json} {normalized : Text} {companions : Bool}
    {domains added : List Text} (env : CallEnv) (he : Coherent rt e)
    (hidle : ¬ e.session.isLocked = true) (hn : normalizeDomain rt input = .ok normalized)
    (hadded : appendMissing e.config.permanentDomains
      (normalized :: if companions then getCompanionDomains rt normalized else []) =
        (domains, added)) :
    (∃ m, m.disk.Stores { e.config with permanentDomains := domains } e.session ∧
      addPermanentDomain rt (env.withDisk true) input companions e =
        (.ok (if added = [] then [normalized] else added),
          published rt e { e.config with permanentDomains := domains } e.session m)) ∧
    ∃ m, m.disk.stateFile = e.stateManager.disk.stateFile ∧
      addPermanentDomain rt (env.withDisk false) input companions e =
        (.error .osError,
          published rt e { e.config with permanentDomains := domains } e.session m) := by
  have hdomains := appendMissing_domains (l := e.config.permanentDomains) hn companions
  rw [hadded] at hdomains
  have hc : Coherent rt { e with config := { e.config with permanentDomains := domains } } :=
    ⟨he.blockDoh, he.allowlistMode, he.allowed, ruleSafe_of_domains he.safe.permanent hdomains,
      he.safe.ofSession⟩
  obtain ⟨⟨m, hst, hwritten⟩, m', hfile, hunwritten⟩ :=
    edit_run (fun c => { c with permanentDomains := domains }) env hc
      (if added = [] then [normalized] else added)
  refine ⟨⟨m, hst, ?_⟩, m', hfile, ?_⟩
  · refine (normalized_run (env.withDisk true) hidle hn _).trans ?_
    simp only [hadded]
    exact hwritten
  · refine (normalized_run (env.withDisk false) hidle hn _).trans ?_
    simp only [hadded]
    exact hunwritten

/-- Outside a session a listed domain is removed, and only the save depends on the disk. -/
theorem removePermanentDomain_run {input : Json} {normalized : Text} (env : CallEnv)
    (he : Coherent rt e) (hidle : ¬ e.session.isLocked = true)
    (hn : normalizeDomain rt input = .ok normalized)
    (hm : normalized ∈ e.config.permanentDomains) :
    (∃ m, removePermanentDomain rt (env.withDisk true) input e = (.ok normalized, published rt e
      { e.config with permanentDomains := e.config.permanentDomains.erase normalized }
        e.session m)) ∧
    ∃ m, removePermanentDomain rt (env.withDisk false) input e = (.error .osError, published rt e
      { e.config with permanentDomains := e.config.permanentDomains.erase normalized }
        e.session m) := by
  have hc : Coherent rt { e with config := { e.config with
      permanentDomains := e.config.permanentDomains.erase normalized } } :=
    ⟨he.blockDoh, he.allowlistMode, he.allowed,
      fun p hp => he.safe.permanent p (List.mem_of_mem_erase hp), he.safe.ofSession⟩
  obtain ⟨⟨m, -, hwritten⟩, m', -, hunwritten⟩ := edit_run
    (fun c => { c with permanentDomains := c.permanentDomains.erase normalized }) env hc normalized
  refine ⟨⟨m, ?_⟩, m', ?_⟩
  · refine (normalized_run (env.withDisk true) hidle hn _).trans ?_
    rw [if_pos hm]
    exact hwritten
  · refine (normalized_run (env.withDisk false) hidle hn _).trans ?_
    rw [if_pos hm]
    exact hunwritten

/-! ## Effects of programs -/

namespace Effect

/-- The engine is coherent afterwards. -/
theorem coherent {f : Bool → Exec PyError PolicyEngine α} (h : Effect rt f e e₀ session)
    (he : Coherent rt e₀) (ok : Bool) : Coherent rt (f ok e).2 := by
  cases h with
  | raises x h => rwa [h]
  | returns a h => rwa [h]
  | saves config hc hblock hmode hdomains hwritten hunwritten =>
    cases ok with
    | true =>
      obtain ⟨a, m, -, h⟩ := hwritten
      rw [h]
      exact hc.published m
    | false =>
      obtain ⟨m, -, h⟩ := hunwritten
      rw [h]
      exact hc.published m

theorem pure (a : α) : Effect rt (fun _ => (Pure.pure a : Exec PyError PolicyEngine α)) e e session :=
  .returns a fun _ => rfl

theorem throw (x : PyError) :
    Effect rt (fun _ => (Exec.throw x : Exec PyError PolicyEngine α)) e e session :=
  .raises x fun _ => rfl

theorem ofExcept_bind {r : Except PyError β} {f : Bool → β → Exec PyError PolicyEngine α}
    (h : ∀ b, r = .ok b → Effect rt (fun ok => f ok b) e e session) :
    Effect rt (fun ok => Exec.ofExcept r >>= f ok) e e session := by
  cases r with
  | error x => exact .raises x fun _ => rfl
  | ok b => exact h b rfl

/-- A call that runs as another one on another engine with the same files has its effect. -/
theorem transport {f g : Bool → Exec PyError PolicyEngine α} {e' : PolicyEngine}
    (hrun : ∀ ok, g ok e = f ok e') (hm : e'.stateManager = e.stateManager)
    (h : Effect rt f e' e₀ session) : Effect rt g e e₀ session := by
  cases h with
  | raises x h => exact .raises x fun ok => (hrun ok).trans (h ok)
  | returns a h => exact .returns a fun ok => (hrun ok).trans (h ok)
  | saves config hc hblock hmode hdomains hwritten hunwritten =>
    rw [← hrun true] at hwritten
    rw [← hrun false, hm] at hunwritten
    exact .saves config hc hblock hmode hdomains hwritten hunwritten

theorem get_bind {f : Bool → PolicyEngine → Exec PyError PolicyEngine α}
    (h : Effect rt (fun ok => f ok e) e e session) :
    Effect rt (fun ok => Exec.get >>= f ok) e e session := by
  refine transport (fun ok => ?_) rfl h
  rfl

/-- Nothing is lost with the result. -/
theorem discard {f : Bool → Exec PyError PolicyEngine α} (h : Effect rt f e e₀ session) :
    Effect rt (fun ok => f ok >>= fun _ => Pure.pure ()) e e₀ session := by
  cases h with
  | raises x h => exact .raises x fun ok => Exec.bind_of_error (h ok)
  | returns a h => exact .returns () fun ok => Exec.bind_of_ok (h ok)
  | saves config hc hblock hmode hdomains hwritten hunwritten =>
    obtain ⟨a, m, hst, h⟩ := hwritten
    obtain ⟨m', hfile, h'⟩ := hunwritten
    exact .saves config hc hblock hmode hdomains ⟨(), m, hst, Exec.bind_of_ok h⟩
      ⟨m', hfile, Exec.bind_of_error h'⟩

/-- An edit that adds no unsafe domain, then a refresh and a save. -/
theorem edit {edit : AppConfig → AppConfig} (he : Coherent rt e)
    (hblock : (edit e.config).blockDoh = e.config.blockDoh)
    (hmode : (edit e.config).allowlistMode = e.config.allowlistMode)
    (hallowed : (edit e.config).allowedDomains = e.config.allowedDomains)
    (hdomains : ∀ p ∈ (edit e.config).permanentDomains,
      p ∈ e.config.permanentDomains ∨ Validated p) (a : α) :
    Effect rt (fun ok => setConfig edit >>= fun _ => refreshSinkhole rt >>= fun _ =>
      saveState rt (env.withDisk ok) >>= fun _ => (Pure.pure a : Exec PyError PolicyEngine α))
      e e e.session := by
  have hc : Coherent rt { e with config := edit e.config } :=
    ⟨he.blockDoh.trans hblock.symm, he.allowlistMode.trans hmode.symm,
      hallowed ▸ he.allowed, ruleSafe_of_domains he.safe.permanent hdomains, he.safe.ofSession⟩
  obtain ⟨hwritten, hunwritten⟩ := edit_run edit env hc a
  exact .saves (edit e.config) hc hblock hmode hdomains ⟨a, hwritten⟩ hunwritten

end Effect

/-! ## Guarded calls -/

/-- A call that begins with the guard, and whose rest has an effect on every coherent engine. -/
def GuardedCall (rt : Runtime) (env : CallEnv) (m : Bool → Exec PyError PolicyEngine α) : Prop :=
  ∃ f : Bool → Exec PyError PolicyEngine α,
    (∀ ok, m ok = (onSession (assertNotLocked rt env.clock) >>= fun _ => f ok)) ∧
      ∀ e, Coherent rt e → Effect rt f e e e.session

namespace GuardedCall

variable {m : Bool → Exec PyError PolicyEngine α}

/-- The rest of the call works on the engine that the guard leaves. -/
theorem effect (h : GuardedCall rt env m) (he : Coherent rt e) :
    ∃ e₀, Passed rt env e e₀ ∧ Effect rt m e e₀ e₀.session := by
  obtain ⟨f, hm, hf⟩ := h
  have hrun : ∀ ok, m ok e = (onSession (assertNotLocked rt env.clock) >>= fun _ => f ok) e :=
    fun ok => congrFun (hm ok) e
  rcases assertNotLocked_cases rt e.session env.clock with
    ⟨x, hx⟩ | hok | ⟨hl, hrem, hmark, hok⟩
  · exact ⟨e, .inl rfl, .raises x fun ok => (hrun ok).trans (Exec.bind_of_error (onSession_eq hx))⟩
  · exact ⟨e, .inl rfl, (hf e he).transport
      (fun ok => (hrun ok).trans (Exec.bind_of_ok (onSession_eq hok))) rfl⟩
  · have hpassed : Passed rt env e { e with session := e.session.expire } :=
      .inr ⟨hl, hrem, hmark, rfl⟩
    exact ⟨_, hpassed, (hf _ (he.passed hpassed)).transport
      (fun ok => (hrun ok).trans (Exec.bind_of_ok (onSession_eq hok))) rfl⟩

/-- The result of the call does not matter. -/
theorem discard (h : GuardedCall rt env m) :
    GuardedCall rt env fun ok => m ok >>= fun _ => Pure.pure () := by
  obtain ⟨f, hm, hf⟩ := h
  refine ⟨fun ok => f ok >>= fun _ => Pure.pure (), fun ok => ?_, fun e he => (hf e he).discard⟩
  dsimp only
  rw [hm ok, Exec.bind_assoc]

theorem guarded (h : GuardedCall rt env m) : PolicyEngine.Guarded rt env (m true) := by
  obtain ⟨f, hm, hf⟩ := h
  refine ⟨f true, hm true, fun e he => ?_⟩
  cases hf e he with
  | raises x h => exact .inl (by rw [h])
  | returns a h => exact .inl (by rw [h])
  | saves config hc hblock hmode hdomains hwritten _ =>
    obtain ⟨a, m, hst, h⟩ := hwritten
    rw [h]
    exact .inr ⟨rfl, hc.published m, rfl, hst⟩

/-- With a working disk it settles. -/
theorem of_saveOk (m : CallEnv → Exec PyError PolicyEngine α) (hs : env.saveOk = true)
    (h : GuardedCall rt env fun ok => m (env.withDisk ok)) :
    PolicyEngine.Guarded rt env (m env) := by
  have henv : env.withDisk true = env := by
    rw [← hs]
    rfl
  have hg := h.guarded
  rwa [henv] at hg

theorem addPermanentDomain (domainInput : Json) (companions : Bool) : GuardedCall rt env
    fun ok => PolicyEngine.addPermanentDomain rt (env.withDisk ok) domainInput companions := by
  refine ⟨_, fun _ => rfl, fun e he => Effect.ofExcept_bind fun normalized hn => Effect.get_bind ?_⟩
  exact Effect.edit he rfl rfl rfl (appendMissing_domains hn companions) _

theorem removePermanentDomain (domainInput : Json) : GuardedCall rt env
    fun ok => PolicyEngine.removePermanentDomain rt (env.withDisk ok) domainInput := by
  refine ⟨_, fun _ => rfl, fun e he => Effect.ofExcept_bind fun normalized _ => Effect.get_bind ?_⟩
  by_cases hm : normalized ∈ e.config.permanentDomains
  · simp only [if_pos hm]
    exact Effect.edit he rfl rfl rfl (fun p hp => .inl (List.mem_of_mem_erase hp)) _
  · simp only [if_neg hm]
    exact .throw _

theorem blockPermanentService (serviceId : Json) : GuardedCall rt env
    fun ok => PolicyEngine.blockPermanentService rt (env.withDisk ok) serviceId := by
  refine ⟨_, fun _ => rfl, fun e he => Effect.ofExcept_bind fun found _ => ?_⟩
  cases found with
  | none => exact .throw _
  | some svc =>
    refine Effect.get_bind ?_
    by_cases hm : svc.id ∈ e.config.permanentServices
    · simp only [if_neg (not_not.mpr hm)]
      exact .pure _
    · simp only [if_pos hm]
      exact Effect.edit he rfl rfl rfl (fun _ hp => .inl hp) _

theorem unblockPermanentService (serviceId : Json) : GuardedCall rt env
    fun ok => PolicyEngine.unblockPermanentService rt (env.withDisk ok) serviceId := by
  refine ⟨_, fun _ => rfl, fun e he => Effect.ofExcept_bind fun found _ => ?_⟩
  cases found with
  | none => exact .throw _
  | some svc =>
    refine Effect.get_bind ?_
    by_cases hm : svc.id ∈ e.config.permanentServices
    · simp only [if_pos hm]
      exact Effect.edit he rfl rfl rfl (fun _ hp => .inl hp) _
    · simp only [if_neg hm]
      exact .throw _

theorem stopFocusSession :
    GuardedCall rt env fun ok => PolicyEngine.stopFocusSession rt (env.withDisk ok) :=
  ⟨fun _ => pure (), fun _ => (Exec.bind_pure_unit _).symm, fun _ _ => .pure ()⟩

end GuardedCall

/-- A start has no guard of its own. -/
theorem effect_startFocusSession (env : CallEnv) (he : Coherent rt e)
    (durationStr untilStr domainsArg servicesArg : Json) (companions : Bool) :
    ∃ session, Effect rt (fun ok => startFocusSession rt (env.withDisk ok) durationStr untilStr
      domainsArg servicesArg companions) e e session := by
  by_cases h : ∀ expiry scope,
      sessionEnd rt env durationStr untilStr (env.clock 0) = .ok expiry →
      sessionScope rt e.config domainsArg servicesArg companions = .ok scope → scope.1 ≠ [] →
      getRemainingSeconds rt e.session (env.clock 0) ≠ .ok 0
  · obtain ⟨y, hy⟩ :=
      startFocusSession_rejected durationStr untilStr domainsArg servicesArg companions h
    exact ⟨{}, .raises y hy⟩
  · push Not at h
    obtain ⟨expiry, scope, hend, hscope, hne, hrem⟩ := h
    obtain ⟨hsafe, hwritten, hunwritten⟩ :=
      startFocusSession_accepted he _ _ _ _ _ hend hscope hne hrem
    have hc : Coherent rt { e with session := newSession env expiry scope } :=
      ⟨he.blockDoh, he.allowlistMode, he.allowed, hsafe⟩
    exact ⟨newSession env expiry scope,
      .saves e.config hc rfl rfl (fun _ hp => .inl hp) hwritten hunwritten⟩

/-- A heartbeat that finds the session expired comes to a save; any other one changes nothing. -/
theorem effect_tick (env : CallEnv) (he : Coherent rt e) :
    Effect rt (fun ok => tick rt (env.withDisk ok)) e e {} := by
  rcases checkExpiration_cases rt e.session (env.clock 0) with ⟨x, hx⟩ | ⟨message, hx⟩ |
    ⟨-, message, hx⟩
  · exact .raises x fun ok => tick_of_error hx
  · exact .returns false fun ok => tick_of_active hx
  · have hrun : ∀ ok, tick rt (env.withDisk ok) e = (saveState rt (env.withDisk ok) >>=
        fun _ => Pure.pure true) (refreshed rt { e with session := {} }) :=
      fun ok => tick_expired_eq he hx
    obtain ⟨m, hm, hst⟩ := save_ok rt { config := e.config, session := {} } e.stateManager
      (show (env.withDisk true).saveOk = true from rfl)
    obtain ⟨m', hm', hfile⟩ := save_error rt { config := e.config, session := {} } e.stateManager
      (show ¬ (env.withDisk false).saveOk = true from Bool.false_ne_true)
    refine .saves e.config he.idle rfl rfl (fun _ hp => .inl hp) ⟨true, m, hst, ?_⟩ ⟨m', hfile, ?_⟩
    · exact (hrun true).trans (Exec.bind_of_ok (saveState_eq hm))
    · exact (hrun false).trans (Exec.bind_of_error (saveState_eq hm'))

namespace Operation

/-- The call leaves what it leaves with its result. -/
theorem discard_snd (m : Exec PyError PolicyEngine α) (e : PolicyEngine) :
    ((m >>= fun _ => (pure () : Exec PyError PolicyEngine Unit)) e).2 = (m e).2 := by
  rw [Exec.bind_apply]
  rcases m e with ⟨x | a, t⟩
  · rfl
  · rfl

/-- Every operation but a start is a guarded call. -/
theorem guardedCall (op : Operation) (h : op.isGuarded = true) :
    GuardedCall rt env fun ok => op.run rt (env.withDisk ok) := by
  cases op with
  | addPermanentDomain domainInput companions => exact (GuardedCall.addPermanentDomain _ _).discard
  | removePermanentDomain domainInput => exact (GuardedCall.removePermanentDomain _).discard
  | blockPermanentService serviceId => exact (GuardedCall.blockPermanentService _).discard
  | unblockPermanentService serviceId => exact (GuardedCall.unblockPermanentService _).discard
  | startFocusSession durationStr untilStr domainsArg servicesArg companions => cases h
  | stopFocusSession => exact GuardedCall.stopFocusSession

/-- What an operation does to a coherent engine, whatever the disk. -/
theorem effect (he : Coherent rt e) (env : CallEnv) (op : Operation) : ∃ e₀ session,
    Passed rt env e e₀ ∧ (op.isGuarded = false → e₀ = e) ∧
      Effect rt (fun ok => op.run rt (env.withDisk ok)) e e₀ session := by
  cases h : op.isGuarded with
  | true =>
    obtain ⟨e₀, hpassed, heffect⟩ := (op.guardedCall h).effect he
    exact ⟨e₀, _, hpassed, nofun, heffect⟩
  | false =>
    cases op with
    | startFocusSession durationStr untilStr domainsArg servicesArg companions =>
      obtain ⟨session, heffect⟩ := effect_startFocusSession env he durationStr untilStr domainsArg
        servicesArg companions
      exact ⟨e, session, .inl rfl, fun _ => rfl, heffect.discard⟩
    | _ => cases h

theorem coherent (he : Coherent rt e) (env : CallEnv) (op : Operation) :
    Coherent rt (op.run rt env e).2 := by
  obtain ⟨e₀, session, hpassed, -, heffect⟩ := op.effect he env
  exact heffect.coherent (he.passed hpassed) env.saveOk

end Operation

end FocusGuard

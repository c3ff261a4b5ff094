import FocusGuard.Core.RawEngine
import FocusGuard.Service.Startup

/-!
# Typed records are loaded records

On a file whose members have the declared types the engine on loaded state does what the engine on
typed records does, where every write succeeds.

## Main results

* `start_eq`: the constructors agree.
* `tick_simulates`, `getStatus_raw`: so do the heartbeats and the reports.
-/

namespace FocusGuard

open Calendar

variable {rt : Runtime} {config : AppConfig} {session : SessionState}

def PolicyEngine.raw (e : PolicyEngine) : RawEngine := ⟨e.sinkhole, e.config.raw, e.session.raw⟩

@[simp] theorem truthy_ofTexts (l : List Text) : (Json.ofTexts l).truthy = decide (l ≠ []) := by
  cases l <;> simp [Json.ofTexts, Json.truthy]

@[simp] theorem truthy_ofOptText (t : Option Text) :
    (Json.ofOptText t).truthy = decide (t.getD [] ≠ []) := by
  cases t <;> simp [Json.ofOptText, Json.truthy]

@[simp] theorem SessionState.isLocked_raw (s : SessionState) : s.raw.isLocked = s.isLocked := by
  have hstatus : s.status.toText = ("LOCKED" : Text) ↔ s.status = .locked := by
    constructor
    · intro h
      rw [← Status.ofText_toText s.status, h]
      rfl
    · intro h
      rw [h]
      rfl
  unfold RawSession.isLocked SessionState.isLocked
  simp only [SessionState.raw, Json.text?, Option.some.injEq, hstatus]

theorem aware_ofOptText {t : Option Text} (h : t.getD [] ≠ []) :
    RawSession.aware rt (.ofOptText t) = awareMicros rt (t.getD []) := by
  cases t with
  | none => exact absurd rfl h
  | some t => rfl

theorem aware_expiresOrEmpty (s : SessionState) :
    RawSession.aware rt s.raw.expiresOrEmpty = awareMicros rt (s.expiresAtUtc.getD []) := by
  by_cases h : s.expiresAtUtc.getD [] = []
  · have hnot : ¬ s.raw.expiresAtUtc.truthy = true := by simp [SessionState.raw, h]
    rw [RawSession.expiresOrEmpty, if_neg hnot, h]
    rfl
  · have htrue : s.raw.expiresAtUtc.truthy = true := by simp [SessionState.raw, h]
    rw [RawSession.expiresOrEmpty, if_pos htrue]
    exact aware_ofOptText h

theorem getRemainingSeconds_raw (s : SessionState) (now : Instant) :
    s.raw.getRemainingSeconds rt now = getRemainingSeconds rt s now := by
  unfold RawSession.getRemainingSeconds getRemainingSeconds
  by_cases h : s.expiresAtUtc.getD [] = []
  · have hnot : ¬ s.raw.expiresAtUtc.truthy = true := by simp [SessionState.raw, h]
    rw [if_pos (.inr hnot), if_pos (.inr h)]
  · have htrue : s.raw.expiresAtUtc.truthy = true := by simp [SessionState.raw, h]
    have haware : RawSession.aware rt s.raw.expiresAtUtc = _ := aware_ofOptText h
    cases hx : awareMicros rt (s.expiresAtUtc.getD []) with
    | error e => simp only [SessionState.isLocked_raw, htrue, h, haware, hx, not_true_eq_false]
    | ok x => simp only [SessionState.isLocked_raw, htrue, h, haware, hx, not_true_eq_false]

theorem rolledBack_raw (s : SessionState) (now : Instant) :
    s.raw.rolledBack rt now = rolledBack rt s now := by
  unfold RawSession.rolledBack rolledBack
  by_cases h : s.createdAtUtc.getD [] = []
  · have hnot : ¬ s.raw.createdAtUtc.truthy = true := by simp [SessionState.raw, h]
    rw [if_pos hnot, if_pos h]
  · have htrue : s.raw.createdAtUtc.truthy = true := by simp [SessionState.raw, h]
    have haware : RawSession.aware rt s.raw.createdAtUtc = _ := aware_ofOptText h
    rw [if_neg (not_not.mpr htrue), if_neg h]
    cases hc : awareMicros rt (s.createdAtUtc.getD []) with
    | error e => simp only [haware, hc]
    | ok c => simp only [haware, hc]

theorem checkExpiration_simulates (now : Instant) : Exec.Simulates SessionState.raw
    (checkExpiration rt now) (RawSession.checkExpiration rt now) := by
  intro s
  unfold RawSession.checkExpiration checkExpiration
  rw [SessionState.isLocked_raw, rolledBack_raw, aware_expiresOrEmpty]
  split
  · rfl
  · cases rolledBack rt s now with
    | error e => rfl
    | ok back =>
      cases back with
      | true => rfl
      | false =>
        cases awareMicros rt (s.expiresAtUtc.getD []) with
        | error e => rfl
        | ok x =>
          dsimp only
          split
          · rfl
          · rfl

theorem getSummary_raw (s : SessionState) (now : Instant) :
    s.raw.getSummary rt now = getSummary rt s now := by
  unfold RawSession.getSummary getSummary
  rw [getRemainingSeconds_raw]
  cases getRemainingSeconds rt s now with
  | error e => rfl
  | ok rem =>
    have hdomains : s.raw.sessionDomains.len? = some s.sessionDomains.length :=
      Json.len?_ofTexts _
    have hservices : s.raw.sessionServices.len? = some s.sessionServices.length :=
      Json.len?_ofTexts _
    rw [hdomains, hservices]
    rfl

namespace RawEngine

theorem domainsOfServices_ofTexts (ids : List Text) :
    domainsOfServices rt (.ofTexts ids) = .ok (getAllDomainsForServices rt ids) := by
  have hnames : (ids.map Json.str).mapM Json.text? = some ids := Json.names?_ofTexts ids
  unfold domainsOfServices
  cases ids with
  | nil => rfl
  | cons id ids =>
    rw [if_pos (by simp)]
    simp only [Json.ofTexts, Json.elements?, hnames]

theorem permanentlyBlocked_raw : permanentlyBlocked rt config.raw =
    .ok ((PolicyEngine.permanentlyBlocked rt config).map .str) := by
  have hset : config.raw.permanentDomains.set? = some (config.permanentDomains.map .str) :=
    Json.set?_ofTexts _
  have hservices : domainsOfServices rt config.raw.permanentServices = _ :=
    domainsOfServices_ofTexts config.permanentServices
  have hbypass : bypassDomains config.raw = (if config.blockVpns then getAllVpnDomains else []) ++
      (if config.blockDoh then getAllDohDomains else []) := rfl
  rw [permanentlyBlocked, hset, hservices, hbypass]
  simp [PolicyEngine.permanentlyBlocked, orTypeError, Bind.bind, Except.bind]

theorem sessionBlocked_raw : sessionBlocked rt session.raw =
    .ok ((PolicyEngine.sessionBlocked rt session).map .str) := by
  have hset : session.raw.sessionDomains.set? = some (session.sessionDomains.map .str) :=
    Json.set?_ofTexts _
  have hservices : domainsOfServices rt session.raw.sessionServices = _ :=
    domainsOfServices_ofTexts session.sessionServices
  rw [sessionBlocked, PolicyEngine.sessionBlocked, SessionState.isLocked_raw, hset, hservices]
  split
  · simp [orTypeError, Bind.bind, Except.bind]
  · rfl

theorem getAllActiveBlockedDomains_raw : getAllActiveBlockedDomains rt config.raw session.raw =
    .ok ((PolicyEngine.getAllActiveBlockedDomains rt config session).map .str) := by
  rw [getAllActiveBlockedDomains, permanentlyBlocked_raw, sessionBlocked_raw]
  simp only [Bind.bind, Except.bind, ← List.map_append, Scalar.sorted?_map_str]
  rfl

theorem onSession_simulates {α : Type} {m : Exec PyError SessionState α}
    {m' : Exec PyError RawSession α} (h : Exec.Simulates SessionState.raw m m') :
    Exec.Simulates PolicyEngine.raw (PolicyEngine.onSession m) (onSession m') :=
  h.focus (fun _ => rfl) (fun _ _ => rfl)

theorem onSinkhole_simulates {α : Type} (m : Exec PyError DomainSinkhole α) :
    Exec.Simulates PolicyEngine.raw (PolicyEngine.onSinkhole m) (onSinkhole m) := by
  have hself : Exec.Simulates id m m := fun _ => rfl
  exact hself.focus (fun _ => rfl) (fun _ _ => rfl)

theorem refreshSinkhole_simulates : Exec.Simulates PolicyEngine.raw
    (PolicyEngine.refreshSinkhole rt) (refreshSinkhole rt) := by
  refine Exec.Simulates.get_bind fun e => ?_
  have hactive : getAllActiveBlockedDomains rt e.raw.config e.raw.session = _ :=
    getAllActiveBlockedDomains_raw
  rw [hactive]
  intro e'
  rw [Exec.bind_of_ok (Exec.ofExcept_apply _ _), Scalar.filterMap_text?_map]
  exact onSinkhole_simulates _ e'

/-- A save that succeeds is nothing that the records show. -/
theorem saveState_view {env : CallEnv} (hs : env.saveOk = true) (e : PolicyEngine) :
    ∃ e', PolicyEngine.saveState rt env e = (.ok (), e') ∧ e'.raw = e.raw := by
  obtain ⟨m, hm, -⟩ := save_ok rt { config := e.config, session := e.session } e.stateManager hs
  exact ⟨_, PolicyEngine.saveState_eq hm, rfl⟩

theorem saveState_simulates {env : CallEnv} (hs : env.saveOk = true) {α : Type}
    {m : Exec PyError PolicyEngine α} {m' : Exec PyError RawEngine α}
    (h : Exec.Simulates PolicyEngine.raw m m') :
    Exec.Simulates PolicyEngine.raw (PolicyEngine.saveState rt env >>= fun _ => m) m' := by
  intro e
  obtain ⟨e', hsave, hview⟩ := saveState_view hs e
  rw [Exec.bind_of_ok hsave, ← hview]
  exact h e'

/-- The heartbeat on typed records, where it can save. -/
theorem tick_simulates {env : CallEnv} (hs : env.saveOk = true) : Exec.Simulates PolicyEngine.raw
    (PolicyEngine.tick rt env) (tick rt (env.clock 0)) := by
  refine (onSession_simulates (checkExpiration_simulates _)).bind fun r => ?_
  refine Exec.Simulates.ite (fun _ => ?_) fun _ => .pure false
  refine (onSession_simulates (.modify fun _ => rfl)).bind fun _ => ?_
  exact refreshSinkhole_simulates.bind fun _ => saveState_simulates hs (.pure true)

theorem recoverSession_simulates {env : CallEnv} (hs : env.saveOk = true) :
    Exec.Simulates PolicyEngine.raw (PolicyEngine.recoverSession rt env)
      (recoverSession rt (env.clock 0)) := by
  refine Exec.Simulates.get_bind fun e => ?_
  have hlocked : e.raw.session.isLocked = e.session.isLocked := SessionState.isLocked_raw _
  rw [hlocked]
  refine Exec.Simulates.ite (fun _ => ?_) fun _ => .pure ()
  refine (onSession_simulates (checkExpiration_simulates _)).bind fun r => ?_
  refine Exec.Simulates.ite (fun _ => ?_) fun _ => .pure ()
  rw [← Exec.bind_pure_unit (onSession RawSession.releaseExpired)]
  refine (onSession_simulates (.modify fun _ => rfl)).bind fun _ => ?_
  rw [← Exec.bind_pure_unit (PolicyEngine.saveState rt env)]
  exact saveState_simulates hs (.pure ())

theorem boot_simulates {env : CallEnv} (hs : env.saveOk = true) : Exec.Simulates PolicyEngine.raw
    (PolicyEngine.boot rt env) (boot rt (env.clock 0)) := by
  refine Exec.Simulates.get_bind fun e => ?_
  have hblock : e.raw.config.blockDoh.truthy = e.config.blockDoh := rfl
  have hmode : e.raw.config.allowlistMode.truthy = e.config.allowlistMode := rfl
  have hallowed : orTypeError e.raw.config.allowedDomains.elements? =
      .ok (e.config.allowedDomains.map .str) := rfl
  rw [hblock, hmode, hallowed]
  refine (onSinkhole_simulates _).bind fun _ => ?_
  intro e'
  rw [Exec.bind_of_ok (Exec.ofExcept_apply _ _), Json.filterMap_text?_map]
  exact ((onSinkhole_simulates _).bind fun _ => (recoverSession_simulates hs).bind fun _ =>
    refreshSinkhole_simulates) e'

/-- What `load` returns on a file whose members have the declared types. -/
theorem load_raw {env : CallEnv} (hs : env.saveOk = true) {m : StateManager} {content : FileContent}
    (hfile : m.disk.stateFile = some content)
    (hread : ∀ value, content = .json value → readState value ≠ some none) :
    ∃ data m', load rt env m = (.ok data, m') ∧
      loadRaw content = (data.1.config.raw, data.1.session.raw) := by
  have hfallback : ∃ data m', loadFallback rt env m = (.ok data, m') ∧
      (({}, {}) : RawConfig × RawSession) = (data.1.config.raw, data.1.session.raw) := by
    obtain ⟨m', hm, -⟩ := save_ok rt {} { m with disk := { m.disk with stateFile := none } } hs
    refine ⟨({}, false), m', ?_, rfl⟩
    unfold loadFallback
    rw [Exec.bind_of_ok (Exec.modify_apply _ m), Exec.bind_of_ok hm]
    rfl
  unfold load
  rw [Exec.bind_of_ok (Exec.get_apply m), hfile]
  cases content with
  | unparsable => exact hfallback
  | json value =>
    rcases hvalue : readState value with _ | _ | data
    · simp only [hvalue]
      rw [loadRaw, readRaw_of_readState_none hvalue]
      exact hfallback
    · exact absurd hvalue (hread value rfl)
    · obtain ⟨expected, key, secretFile, -, hmac⟩ := calculateHmac_ok rt env value.members m
      simp only [hvalue]
      refine ⟨(data, _), _, (Exec.bind_of_ok hmac).trans rfl, ?_⟩
      rw [loadRaw, readRaw_of_readState hvalue]
      rfl

theorem start_of_view {env : CallEnv} (hs : env.saveOk = true) {content : FileContent}
    {e : PolicyEngine}
    (h : (⟨bareSinkhole rt, (loadRaw content).1, (loadRaw content).2⟩ : RawEngine) = e.raw) :
    start rt (env.clock 0) content =
      match PolicyEngine.boot rt env e with
      | (.error x, _) => .error x
      | (.ok (), e) => .ok e.raw := by
  unfold start
  rw [init_eq]
  dsimp only
  rw [h, boot_simulates hs e]
  generalize PolicyEngine.boot rt env e = r
  rcases r with ⟨x | u, e⟩
  · rfl
  · rfl

/-- On a file whose members have the declared types this is the engine on typed records. -/
theorem start_eq {env : CallEnv} (hs : env.saveOk = true) {content : FileContent}
    (secretFile : Option Bytes)
    (hread : ∀ value, content = .json value → readState value ≠ some none) :
    start rt (env.clock 0) content =
      (startEngine rt env ⟨some content, secretFile⟩).map PolicyEngine.raw := by
  obtain ⟨data, m, hload, hraw⟩ : ∃ data m', load rt env { disk := ⟨some content, secretFile⟩ } =
      (.ok data, m') ∧ loadRaw content = (data.1.config.raw, data.1.session.raw) :=
    load_raw hs rfl hread
  have hview : (⟨bareSinkhole rt, (loadRaw content).1, (loadRaw content).2⟩ : RawEngine) =
      PolicyEngine.raw ⟨bareSinkhole rt, m, data.1.config, data.1.session⟩ := by
    rw [hraw]
    rfl
  rw [start_of_view hs hview]
  unfold startEngine
  rw [init_eq]
  dsimp only
  unfold PolicyEngine.create
  rw [hload]
  dsimp only
  generalize PolicyEngine.boot rt env ⟨bareSinkhole rt, m, data.1.config, data.1.session⟩ = r
  rcases r with ⟨x | u, e⟩
  · rfl
  · rfl

theorem getStatus_raw (bypassStatus : Json) (now : Instant) (e : PolicyEngine) :
    getStatus rt bypassStatus now e.raw = PolicyEngine.getStatus rt bypassStatus now e := by
  have hactive : getAllActiveBlockedDomains rt e.raw.config e.raw.session = _ :=
    getAllActiveBlockedDomains_raw
  have hsummary : e.raw.session.getSummary rt now = _ := getSummary_raw e.session now
  have hlocked : e.raw.session.isLocked = e.session.isLocked := SessionState.isLocked_raw _
  have hservices : e.raw.config.permanentServices.names? = some e.config.permanentServices :=
    Json.names?_ofTexts _
  have hofSession : servicesOfSession e.raw.session =
      .ok (if e.session.isLocked then e.session.sessionServices else []) := by
    have hnames : e.raw.session.sessionServices.names? = some e.session.sessionServices :=
      Json.names?_ofTexts _
    rw [servicesOfSession, hlocked, hnames]
    split
    · rfl
    · rfl
  have hpermanent : e.raw.config.permanentDomains.elements? =
      some (e.config.permanentDomains.map .str) := rfl
  unfold getStatus PolicyEngine.getStatus
  rw [hactive, hsummary, hservices, hofSession, hpermanent]
  cases getSummary rt e.session now with
  | error x => rfl
  | ok info =>
    simp only [Bind.bind, Except.bind, orTypeError, PolicyEngine.activeServices, List.length_map,
      Json.ofTexts]
    rfl

end RawEngine

end FocusGuard

import FocusGuard.Core.SessionScope
import FocusGuard.Core.ValidDomains
import FocusGuard.Service.FailedOperations

/-!
# A started session enforces what was asked

The program stores no permanent domain that it has not normalized, whether or not its writes
succeed. With such a policy a session that has started blocks all that the request asked for,
unless one of the domains that it names has a numeric tail.

## Main results

* `Tidy.invariant`: stored permanent domains are normalized ones.
* `enforces_iff`: when a started session blocks what was asked for.
* `numeric_tail_escapes`: a session with one domain, which stays open.
-/

namespace FocusGuard

open Calendar PolicyEngine

/-- Every permanent domain is a normalized one, here and in the state file. -/
structure PolicyEngine.Tidy (rt : Runtime) (e : PolicyEngine) : Prop extends Coherent rt e where
  permanent : ∀ p ∈ e.config.permanentDomains, Validated p
  stored : ∀ config session, e.stateManager.disk.Stores config session →
    ∀ p ∈ config.permanentDomains, Validated p

/-- A daemon that has come up on a policy whose permanent domains are normalized. -/
def Daemon.InitialTidy (rt : Runtime) (d : Daemon) : Prop :=
  Initial rt d ∧ ∀ p ∈ d.engine.config.permanentDomains, Validated p

/-- All that the request asked for is blocked. -/
def Enforces (rt : Runtime) (config : AppConfig) (domainsArg servicesArg : Json)
    (companions : Bool) (s : DomainSinkhole) : Prop :=
  ∀ t, Asked rt config domainsArg servicesArg companions t → Blocks rt s t

variable {rt : Runtime} {env : CallEnv} {e e₀ : PolicyEngine} {d d' : Daemon}

/-! ## Stored permanent domains -/

theorem PolicyEngine.Synced.tidy (h : Synced rt e)
    (hp : ∀ p ∈ e.config.permanentDomains, Validated p) : Tidy rt e :=
  ⟨h.toCoherent, hp, fun _ _ hst => (h.stored.unique hst).1 ▸ hp⟩

theorem PolicyEngine.Tidy.passed (h : Tidy rt e) (hpassed : Passed rt env e e₀) : Tidy rt e₀ := by
  have hc := h.toCoherent.passed hpassed
  rcases hpassed with rfl | ⟨-, -, -, rfl⟩
  · exact h
  · exact ⟨hc, h.permanent, h.stored⟩

/-- Only normalized domains are added, in memory and, where it can be written, in the file. -/
theorem Effect.tidy {α : Type} {f : Bool → Exec PyError PolicyEngine α} {session : SessionState}
    (h : Effect rt f e e₀ session) (he : Tidy rt e) (h₀ : Tidy rt e₀) (ok : Bool) :
    Tidy rt (f ok e).2 := by
  have hcoherent := h.coherent h₀.toCoherent ok
  cases h with
  | raises x h => rwa [h]
  | returns a h => rwa [h]
  | saves config hc hblock hmode hdomains hwritten hunwritten =>
    have hp : ∀ p ∈ config.permanentDomains, Validated p := by
      intro p hm
      rcases hdomains p hm with hm | hv
      · exact h₀.permanent p hm
      · exact hv
    cases ok with
    | true =>
      obtain ⟨a, m, hst, h⟩ := hwritten
      rw [h] at hcoherent ⊢
      exact ⟨hcoherent, hp, fun _ _ hst' => (hst.unique hst').1 ▸ hp⟩
    | false =>
      obtain ⟨m, hfile, h⟩ := hunwritten
      rw [h] at hcoherent ⊢
      refine ⟨hcoherent, hp, fun config' session' hst => he.stored config' session' ?_⟩
      obtain ⟨value, signature, hvalue, hread⟩ := hst
      exact ⟨value, signature, hfile ▸ hvalue, hread⟩

theorem Operation.tidy (he : Tidy rt e) (env : CallEnv) (op : Operation) :
    Tidy rt (op.run rt env e).2 := by
  obtain ⟨e₀, session, hpassed, -, heffect⟩ := op.effect he.toCoherent env
  exact heffect.tidy he (he.passed hpassed) env.saveOk

theorem PolicyEngine.Tidy.tick (he : Tidy rt e) (env : CallEnv) :
    Tidy rt (PolicyEngine.tick rt env e).2 :=
  (effect_tick env he.toCoherent).tidy he he env.saveOk

/-- A restart takes the permanent domains from the state file, or begins without any. -/
theorem PolicyEngine.Tidy.restart {e' : PolicyEngine} (he : Tidy rt e)
    (h : startEngine rt env e.stateManager.disk = .ok e') : Tidy rt e' := by
  obtain ⟨session, hsource, -⟩ := startEngine_policy h
  apply (startEngine_synced h).tidy
  rcases hsource with ⟨hconfig, -⟩ | hst
  · rw [hconfig]
    simp
  · exact he.stored _ _ hst

namespace Daemon

theorem Step.tidy {ev : Event} (hd : Tidy rt d.engine) (h : Step rt d ev d') :
    Tidy rt d'.engine := by
  cases ev with
  | request env request =>
    rw [h.request]
    rcases IPCServer.handleRequest_engine request d with hsame | ⟨op, hop⟩
    · rwa [hsame]
    · rw [hop]
      exact op.tidy hd env.toCallEnv
  | tick env =>
    rw [h.tick]
    exact hd.tick env
  | restart env => exact hd.restart h.restart.1

/-- Stored permanent domains are normalized ones, whatever the disk did. -/
theorem Tidy.invariant (h : Reachable (InitialTidy rt) (Step rt) (fun _ => True) d) :
    Tidy rt d.engine := by
  refine Reachable.invariant (I := fun d => Tidy rt d.engine) ?_ ?_ h
  · rintro d ⟨⟨env, disk, he, -⟩, hp⟩
    exact (startEngine_synced he).tidy hp
  · exact fun d ev d' _ hd hst => Step.tidy hd hst

end Daemon

/-! ## Sessions that have started -/

/-- A start that returns has put a session in force whose scope is that of the request. -/
theorem PolicyEngine.Tidy.started {durationStr untilStr domainsArg servicesArg : Json}
    {companions : Bool} {summary : List (Text × Json)} {e' : PolicyEngine} (he : Tidy rt e)
    (hstart : startFocusSession rt env durationStr untilStr domainsArg servicesArg companions e =
      (.ok summary, e')) :
    ∃ scope, sessionScope rt e.config domainsArg servicesArg companions = .ok scope ∧
      e'.sinkhole.allowlistMode = e.config.allowlistMode ∧
      ∃ l, (∀ d ∈ l, Plain d) ∧ (∀ d ∈ scope.1, d ∈ l) ∧
        e'.sinkhole.blockedTrees = rulesOf rt l := by
  rcases startFocusSession_run he.toCoherent durationStr untilStr domainsArg servicesArg
    companions with ⟨y, hy⟩ | ⟨expiry, scope, -, hscope, -, -, -, hrun⟩
  · rw [hy] at hstart
    cases hstart
  obtain ⟨m, rfl⟩ : ∃ m, e' = PolicyEngine.started rt e (newSession env expiry scope) m := by
    split at hrun
    · obtain ⟨_, m, -, hrun⟩ := hrun
      rw [hrun] at hstart
      cases hstart
      exact ⟨m, rfl⟩
    · obtain ⟨m, -, hrun⟩ := hrun
      rw [hrun] at hstart
      cases hstart
  refine ⟨scope, hscope, he.allowlistMode,
    inForceList rt e.config (newSession env expiry scope), ?_, fun d hd => ?_, rfl⟩
  · refine inForceList_plain (fun p hp => (he.permanent p hp).plain) fun d hd => ?_
    rcases sessionScope_cases hscope d (Text.mem_sorted.mp hd) with hd | hd
    · exact (he.permanent d hd).plain
    · exact hd
  · apply List.mem_append_right
    refine mem_getAllActiveBlockedDomains.mpr (.inr ?_)
    exact List.mem_append_left _ (Text.mem_sorted.mpr hd)

/-- A session that has started in blocklist mode blocks all that the request asked for exactly
when no domain that is asked for by its name has a numeric tail. -/
theorem enforces_iff (hlower : LowerLaws rt)
    (hd : Reachable (Daemon.InitialTidy rt) (Daemon.Step rt) (fun _ => True) d)
    (hmode : d.engine.config.allowlistMode = false) {env : CallEnv}
    {durationStr untilStr domainsArg servicesArg : Json} {companions : Bool}
    {summary : List (Text × Json)} {e' : PolicyEngine}
    (hstart : startFocusSession rt env durationStr untilStr domainsArg servicesArg companions
      d.engine = (.ok summary, e')) :
    Enforces rt d.engine.config domainsArg servicesArg companions e'.sinkhole ↔
      NoNumericTail rt d.engine.config domainsArg servicesArg := by
  have htidy := Daemon.Tidy.invariant hd
  obtain ⟨scope, hscope, hmode', l, hplain, hl, htrees⟩ := htidy.started hstart
  have hblocks : ∀ {t}, Asked rt d.engine.config domainsArg servicesArg companions t →
      (Blocks rt e'.sinkhole t ↔ ¬ NumericTail t) := fun ht =>
    blocks_iff (hmode'.trans hmode) htrees hplain (ht.validated htidy.permanent).1 hlower
      (hl _ (ht.mem_scope hscope))
  constructor
  · intro henforces
    refine ⟨fun raw hraw norm hn => ?_, fun hnd hns p hp => ?_⟩
    · exact (hblocks (.domain hraw hn)).mp (henforces norm (.domain hraw hn))
    · exact (hblocks (.permanent hnd hns hp)).mp (henforces p (.permanent hnd hns hp))
  · intro hno t ht
    exact (hblocks ht).mpr ((ht.validated htidy.permanent).2 hno)

/-! ## A session with one domain -/

section Example

/-- A last label of digits, a line feed, and a soft hyphen that keeps it from being stripped. -/
def hyphenated : Text := "x.123\n\u00ad"

/-- On a new engine a session starts with any one domain that is normalized. -/
theorem exists_started {raw norm : Text} (hn : normalizeText rt raw = .ok norm)
    (hend : sessionEnd rt (envAt ten) (.str "2h") .null ((envAt ten).clock 0) =
      .ok (twelve, 7200)) :
    ∃ (d : Daemon) (summary : List (Text × Json)) (e' : PolicyEngine),
      Reachable (Daemon.InitialTidy rt) (Daemon.Step rt) (fun _ => True) d ∧
      d.engine.config.allowlistMode = false ∧
      startFocusSession rt (envAt ten) (.str "2h") .null (.arr [.str raw]) .null true d.engine =
        (.ok summary, e') := by
  obtain ⟨e, he, hsession, hconfig⟩ := startEngine_empty rt (envAt ten) rfl
  have hscope : sessionScope rt e.config (.arr [.str raw]) .null true =
      .ok (norm :: getCompanionDomains rt norm, []) := by
    simp [sessionScope, loopOver, customServices, customDomains, normalizeDomain, hn,
      Json.truthy, Json.elements?, Bind.bind, Except.bind]
  have hrem : getRemainingSeconds rt e.session ((envAt ten).clock 0) = .ok 0 := by
    rw [hsession]
    rfl
  obtain ⟨-, ⟨summary, m, -, hrun⟩, -⟩ := startFocusSession_accepted
    (startEngine_synced he).toCoherent (.str "2h") .null (.arr [.str raw]) .null true
    hend hscope (by simp) hrem
  refine ⟨⟨e, []⟩, summary, _, .init ⟨⟨_, _, he, rfl⟩, ?_⟩, ?_, hrun⟩
  · simp [hconfig]
  · rw [hconfig]

/-- A session without YouTube blocks YouTube, its companions and every name under these. -/
theorem enforces_iff_youtube : ∃ (config : AppConfig) (s : DomainSinkhole),
    Enforces asciiRuntime config (.arr [.str "youtube.com"]) .null true s := by
  have hn : normalizeText asciiRuntime "youtube.com" = .ok "youtube.com".toList := by decide
  obtain ⟨d, summary, e', hd, hmode, hstart⟩ := exists_started hn rfl
  refine ⟨d.engine.config, e'.sinkhole, (enforces_iff lowerLaws_ascii hd hmode hstart).mpr ?_⟩
  refine ⟨fun raw hraw norm hnorm => ?_, fun hgiven => by cases hgiven⟩
  obtain rfl : raw = .str "youtube.com" := List.mem_singleton.mp hraw
  obtain rfl : "youtube.com".toList = norm := Except.ok.inj (hn.symm.trans hnorm)
  decide

/-- The domain is accepted and the session starts, and the domain is not blocked. -/
theorem numeric_tail_escapes : ∃ (d : Daemon) (summary : List (Text × Json)) (e' : PolicyEngine),
    Reachable (Daemon.InitialTidy idnaRuntime) (Daemon.Step idnaRuntime) (fun _ => True) d ∧
    d.engine.config.allowlistMode = false ∧
    startFocusSession idnaRuntime (envAt ten) (.str "2h") .null (.arr [.str hyphenated]) .null true
      d.engine = (.ok summary, e') ∧
    normalizeText idnaRuntime hyphenated = .ok "x.123\n" ∧
    (e'.sinkhole.isBlocked idnaRuntime "x.123\n").1 = false ∧
    ¬ Enforces idnaRuntime d.engine.config (.arr [.str hyphenated]) .null true e'.sinkhole := by
  have hn : normalizeText idnaRuntime hyphenated = .ok "x.123\n" := by decide
  have hlower : LowerLaws idnaRuntime := ⟨lowerLaws_ascii.idem, lowerLaws_ascii.strip⟩
  obtain ⟨d, summary, e', hd, hmode, hstart⟩ := exists_started hn rfl
  obtain ⟨scope, hscope, hmode', l, hplain, hl, htrees⟩ :=
    (Daemon.Tidy.invariant hd).started hstart
  have hasked : Asked idnaRuntime d.engine.config (.arr [.str hyphenated]) .null true "x.123\n" :=
    .domain (List.mem_singleton.mpr rfl : Json.str hyphenated ∈ [.str hyphenated]) hn
  have hvalid : Validated ("x.123\n" : Text) := validated_of_normalizeText hn
  have hnum : NumericTail "x.123\n" := by decide
  refine ⟨d, summary, e', hd, hmode, hstart, hn,
    isBlocked_of_numericTail (hmode'.trans hmode) htrees hplain hvalid hnum, fun henforces => ?_⟩
  exact (blocks_iff (hmode'.trans hmode) htrees hplain hvalid hlower
    (hl _ (hasked.mem_scope hscope))).mp (henforces _ hasked) hnum

end Example

end FocusGuard

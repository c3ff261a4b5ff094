import FocusGuard.Service.FailedOperations
import FocusGuard.Service.PermanentLists

/-!
# Removing what has been added

`add_permanent_domain` lists a domain with its companions, `remove_permanent_domain` takes out the
one domain it is asked for. One after the other leaves the companions, in the list and in the
sinkhole, and nothing else: a domain without companions leaves no trace.

## Main results

* `Possible.current`: the sinkhole has the rules of the lists unless a session is marked as expired.
* `remove_after_add`: what is left when a domain is added and removed.
-/

namespace FocusGuard

open Calendar PolicyEngine

/-- The sinkhole has the rules of the lists, but for a session that is marked as expired. -/
def PolicyEngine.Current (rt : Runtime) (e : PolicyEngine) : Prop :=
  e.session.status ≠ .expired → e.sinkhole.blockedTrees = activeRules rt e.config e.session

/-- The engine after the two calls, whatever the disk does in either. -/
def addedAndRemoved (rt : Runtime) (env env' : CallEnv) (domainInput : Json) (e : PolicyEngine) :
    PolicyEngine :=
  (removePermanentDomain rt env' domainInput
    (addPermanentDomain rt env domainInput true e).2).2

variable {rt : Runtime} {env : CallEnv} {e e₀ : PolicyEngine} {session : SessionState} {α : Type}
  {domain : Text}

/-! ## Rules in force -/

namespace PolicyEngine.Current

theorem published (e : PolicyEngine) (config : AppConfig) (session : SessionState)
    (m : StateManager) : Current rt (published rt e config session m) :=
  fun _ => rfl

theorem passed (he : Current rt e) (h : Passed rt env e e₀) : Current rt e₀ := by
  rcases h with rfl | ⟨-, -, -, rfl⟩
  · exact he
  · exact fun hne => absurd rfl hne

theorem effect {f : Bool → Exec PyError PolicyEngine α} (h : Effect rt f e e₀ session)
    (he : Current rt e₀) (ok : Bool) : Current rt (f ok e).2 := by
  cases h with
  | raises x h => rwa [h]
  | returns a h => rwa [h]
  | saves config hc hblock hmode hdomains hwritten hunwritten =>
    cases ok with
    | true =>
      obtain ⟨a, m, -, h⟩ := hwritten
      rw [h]
      exact published e₀ config session m
    | false =>
      obtain ⟨m, -, h⟩ := hunwritten
      rw [h]
      exact published e₀ config session m

end PolicyEngine.Current

theorem Operation.current (hc : Coherent rt e) (he : Current rt e) (env : CallEnv)
    (op : Operation) : Current rt (op.run rt env e).2 := by
  obtain ⟨e₀, session, hpassed, -, heffect⟩ := op.effect hc env
  exact Current.effect heffect (he.passed hpassed) env.saveOk

namespace Daemon

variable {d : Daemon}

theorem Step.current {ev : Event} {d' : Daemon} (hc : Coherent rt d.engine)
    (hd : Current rt d.engine) (h : Step rt d ev d') : Current rt d'.engine := by
  cases ev with
  | request env request =>
    rw [h.request]
    rcases IPCServer.handleRequest_engine request d with hsame | ⟨op, hop⟩
    · rwa [hsame]
    · rw [hop]
      exact op.current hc hd env.toCallEnv
  | tick env =>
    rw [h.tick]
    exact Current.effect (effect_tick env hc) hd env.saveOk
  | restart env => exact fun _ => (startEngine_synced h.restart.1).blocked

/-- In every daemon the sinkhole has the rules of the lists, but for a marked session. -/
theorem Possible.current (h : Possible rt d) : Current rt d.engine := by
  have hboth : Coherent rt d.engine ∧ Current rt d.engine := by
    refine Reachable.invariant (I := fun d => Coherent rt d.engine ∧ Current rt d.engine) ?_ ?_ h
    · rintro d ⟨env, disk, he, -⟩
      exact ⟨(startEngine_synced he).toCoherent, fun _ => (startEngine_synced he).blocked⟩
    · exact fun d ev d' _ hd hst => ⟨Step.coherent hd.1 hst, Step.current hd.1 hd.2 hst⟩
  exact hboth.2

end Daemon

/-! ## The list -/

/-- New domains without duplicates are all appended. -/
theorem appendMissing_of_new {l new : List Text} (hnodup : new.Nodup) (hnew : ∀ p ∈ new, p ∉ l) :
    appendMissing l new = (l ++ new, new) := by
  induction new generalizing l with
  | nil => rw [appendMissing, List.append_nil]
  | cons p new ih =>
    obtain ⟨hp, hrest⟩ := List.nodup_cons.mp hnodup
    have hmissing : ∀ q ∈ new, q ∉ l ++ [p] := by
      intro q hq hm
      rcases List.mem_append.mp hm with hm | hm
      · exact hnew q (List.mem_cons_of_mem _ hq) hm
      · exact hp (List.mem_singleton.mp hm ▸ hq)
    rw [appendMissing, if_neg (hnew p List.mem_cons_self), ih hrest hmissing, List.append_assoc]
    rfl

/-- No platform is a companion of itself, and no companion is listed twice. -/
theorem companions_distinct : ∀ entry ∈ serviceCompanions, entry.2.Nodup ∧ entry.1 ∉ entry.2 ∧
    ("www." : Text) ++ entry.1 ∉ entry.2 := by
  decide +kernel

theorem getCompanionDomains_nodup (hvalid : Validated domain) :
    (domain :: getCompanionDomains rt domain).Nodup := by
  have hlower : rt.lower domain = domain := by
    rw [rt.lower_of_ascii fun c hc => .inl (kept_by_lower (hvalid.mem hc)).1]
    exact (List.map_congr_left fun c hc => (kept_by_lower (hvalid.mem hc)).2).trans (List.map_id _)
  simp only [getCompanionDomains, hlower]
  split
  · next entry hfind =>
    obtain ⟨hnodup, hself, hwww⟩ := companions_distinct entry (List.mem_of_find?_eq_some hfind)
    refine List.nodup_cons.mpr ⟨fun hm => ?_, hnodup⟩
    have hkey := List.find?_some hfind
    simp only [decide_eq_true_eq] at hkey
    split at hkey
    · next hpre =>
      obtain ⟨rest, rfl⟩ := hpre
      rw [hkey] at hwww
      exact hwww hm
    · rw [hkey] at hself
      exact hself hm
  · exact List.nodup_singleton domain

/-! ## The two calls -/

theorem addPermanentDomain_snd {input : Json} {domains added : List Text} (he : Coherent rt e)
    (hidle : ¬ e.session.isLocked = true) (hn : normalizeDomain rt input = .ok domain)
    (hadded : appendMissing e.config.permanentDomains
      (domain :: getCompanionDomains rt domain) = (domains, added)) (env : CallEnv) :
    ∃ m, (addPermanentDomain rt env input true e).2 =
      published rt e { e.config with permanentDomains := domains } e.session m := by
  obtain ⟨⟨m, -, hwritten⟩, m', -, hunwritten⟩ :=
    addPermanentDomain_run env he hidle hn
      (show appendMissing _ (_ :: if true then _ else _) = _ from hadded)
  have henv : env = env.withDisk env.saveOk := rfl
  rw [henv]
  cases env.saveOk with
  | true => exact ⟨m, congrArg Prod.snd hwritten⟩
  | false => exact ⟨m', congrArg Prod.snd hunwritten⟩

theorem removePermanentDomain_snd {input : Json} (he : Coherent rt e)
    (hidle : ¬ e.session.isLocked = true) (hn : normalizeDomain rt input = .ok domain)
    (hm : domain ∈ e.config.permanentDomains) (env : CallEnv) :
    ∃ m, (removePermanentDomain rt env input e).2 = published rt e
      { e.config with permanentDomains := e.config.permanentDomains.erase domain } e.session m := by
  obtain ⟨⟨m, hwritten⟩, m', hunwritten⟩ := removePermanentDomain_run env he hidle hn hm
  have henv : env = env.withDisk env.saveOk := rfl
  rw [henv]
  cases env.saveOk with
  | true => exact ⟨m, congrArg Prod.snd hwritten⟩
  | false => exact ⟨m', congrArg Prod.snd hunwritten⟩

/-- What the two calls leave: the companions are in the list and in force. -/
theorem addedAndRemoved_eq {input : Json} (he : Coherent rt e)
    (hidle : ¬ e.session.isLocked = true) (hn : normalizeDomain rt input = .ok domain)
    (hnew : ∀ p ∈ domain :: getCompanionDomains rt domain, p ∉ e.config.permanentDomains)
    (env env' : CallEnv) : ∃ m, addedAndRemoved rt env env' input e = published rt e
      { e.config with
        permanentDomains := e.config.permanentDomains ++ getCompanionDomains rt domain }
      e.session m := by
  have hvalid : Validated domain := by
    cases input with
    | str t => exact validated_of_normalizeText hn
    | _ => cases hn
  have hadded := appendMissing_of_new (getCompanionDomains_nodup hvalid) hnew
  obtain ⟨m, hadd⟩ := addPermanentDomain_snd he hidle hn hadded env
  have hdomains : ∀ p ∈ e.config.permanentDomains ++ domain :: getCompanionDomains rt domain,
      p ∈ e.config.permanentDomains ∨ Validated p := by
    have hall := appendMissing_domains (l := e.config.permanentDomains) hn true
    rw [if_pos rfl, hadded] at hall
    exact hall
  have hc : Coherent rt { e with config := { e.config with permanentDomains :=
      e.config.permanentDomains ++ domain :: getCompanionDomains rt domain } } :=
    ⟨he.blockDoh, he.allowlistMode, he.allowed, ruleSafe_of_domains he.safe.permanent hdomains,
      he.safe.ofSession⟩
  have herase : (e.config.permanentDomains ++ domain :: getCompanionDomains rt domain).erase domain =
      e.config.permanentDomains ++ getCompanionDomains rt domain := by
    rw [List.erase_append_right _ (hnew domain List.mem_cons_self), List.erase_cons_head]
  obtain ⟨m', hremove⟩ := removePermanentDomain_snd (hc.published m) hidle hn
    (List.mem_append_right _ List.mem_cons_self) env'
  refine ⟨m', ?_⟩
  rw [addedAndRemoved, hadd, hremove]
  simp only [published, refreshed, herase]

/-! ## What is blocked -/

theorem published_sinkhole (e : PolicyEngine) (config : AppConfig) (session : SessionState)
    (m : StateManager) : (published rt e config session m).sinkhole =
      { e.sinkhole with blockedTrees := activeRules rt config session } :=
  rfl

/-- The rules of appended domains come on top. -/
theorem activeRules_append (config : AppConfig) (session : SessionState) (new : List Text) :
    activeRules rt { config with permanentDomains := config.permanentDomains ++ new } session =
      activeRules rt config session ∪ rulesOf rt new := by
  ext k
  simp only [activeRules, mem_rulesOf, Finset.mem_union, List.mem_append,
    mem_getAllActiveBlockedDomains, permanentlyBlocked]
  constructor
  · rintro ⟨d, hd, hk⟩
    by_cases hnew : d ∈ new
    · exact .inr ⟨d, hnew, hk⟩
    · exact .inl ⟨d, by tauto, hk⟩
  · rintro (⟨d, hd, hk⟩ | ⟨d, hd, hk⟩)
    · exact ⟨d, by tauto, hk⟩
    · exact ⟨d, by tauto, hk⟩

theorem covered_union {a b : Finset Key} {t : Text} :
    Covered (a ∪ b) t ↔ Covered a t ∨ Covered b t := by
  simp only [Covered, Finset.mem_union, or_and_right, exists_or]

/-- The companions cover the names under them. -/
theorem covered_companions {t : Text} : Covered (rulesOf rt (getCompanionDomains rt domain)) t ↔
    ∃ c ∈ getCompanionDomains rt domain, Text.under t c = true := by
  rw [covered_rulesOf]
  refine exists_congr fun c => and_congr_right fun hc => ?_
  obtain ⟨-, -, hlast⟩ := getCompanionDomains_checked hc
  have hfixed : normalizeText rt c = .ok c := getCompanionDomains_fixed hc
  simp only [hfixed, Except.ok.injEq, exists_eq_left', chomp_of_not hlast]

/-- A name under a companion has the two labels of that. -/
theorem ne_nil_of_under_companion {c t : Text} (hc : c ∈ getCompanionDomains rt domain)
    (hunder : Text.under t c = true) : t ≠ [] := by
  rintro rfl
  rw [Text.under_iff_suffix] at hunder
  have htwo := (getCompanionDomains_checked hc).1.two
  have hlength := hunder.length_le
  simp only [labelsOf] at htwo
  simp at hlength
  omega

/-- Adding a domain and removing it leaves its companions in the list, and the names under them
blocked in blocklist mode, and changes nothing else. -/
theorem remove_after_add {d : Daemon} {input : Json} (hd : Daemon.Possible rt d)
    (hidle : ¬ d.engine.session.isLocked = true) (hn : normalizeDomain rt input = .ok domain)
    (hnew : ∀ p ∈ domain :: getCompanionDomains rt domain,
      p ∉ d.engine.config.permanentDomains) (env env' : CallEnv) :
    (addedAndRemoved rt env env' input d.engine).config.permanentDomains =
        d.engine.config.permanentDomains ++ getCompanionDomains rt domain ∧
      (d.engine.session.status ≠ .expired → LowerLaws rt → ∀ t,
        ((addedAndRemoved rt env env' input d.engine).sinkhole.isBlocked rt t).1 = true ↔
          (d.engine.sinkhole.isBlocked rt t).1 = true ∨
            d.engine.sinkhole.allowlistMode = false ∧ ¬ Essential (cleanDomain rt t) ∧
              ∃ c ∈ getCompanionDomains rt domain, Text.under (cleanDomain rt t) c = true) := by
  obtain ⟨m, heq⟩ := addedAndRemoved_eq hd.coherent hidle hn hnew env env'
  rw [heq]
  refine ⟨rfl, fun hstatus laws t => ?_⟩
  have hrules : activeRules rt d.engine.config d.engine.session ∪
      rulesOf rt (getCompanionDomains rt domain) =
      d.engine.sinkhole.blockedTrees ∪ rulesOf rt (getCompanionDomains rt domain) := by
    rw [hd.current hstatus]
  rw [isBlocked_of_clean (laws.cleanDomain_cleanDomain t),
    isBlocked_of_clean (laws.cleanDomain_cleanDomain t), published_sinkhole, activeRules_append,
    hrules]
  dsimp only
  cases d.engine.sinkhole.allowlistMode with
  | true => simp
  | false =>
    simp only [Bool.false_eq_true, if_false, covered_union, covered_companions]
    constructor
    · rintro ⟨hnil, hess, hcovered | hunder⟩
      · exact .inl ⟨hnil, hess, hcovered⟩
      · exact .inr ⟨trivial, hess, hunder⟩
    · rintro (⟨hnil, hess, hcovered⟩ | ⟨-, hess, hunder⟩)
      · exact ⟨hnil, hess, .inl hcovered⟩
      · obtain ⟨c, hc, hc'⟩ := hunder
        exact ⟨ne_nil_of_under_companion hc hc', hess, .inr ⟨c, hc, hc'⟩⟩

section Example

/-- YouTube on a new engine. -/
theorem exists_unlisted_youtube : ∃ d : Daemon, Daemon.Possible asciiRuntime d ∧
    ¬ d.engine.session.isLocked = true ∧ d.engine.session.status ≠ .expired ∧
    d.engine.config.permanentDomains = [] ∧ d.engine.sinkhole.allowlistMode = false ∧
    normalizeDomain asciiRuntime (.str "youtube.com") = .ok "youtube.com".toList ∧
    ∀ p ∈ "youtube.com".toList :: getCompanionDomains asciiRuntime "youtube.com",
      p ∉ d.engine.config.permanentDomains := by
  obtain ⟨e, he, hsession, hconfig⟩ := startEngine_empty asciiRuntime (envAt ten) rfl
  have hidle : ¬ e.session.isLocked = true := by
    rw [hsession]
    decide
  have hstatus : e.session.status ≠ .expired := by
    rw [hsession]
    decide
  have hpermanent : e.config.permanentDomains = [] := by rw [hconfig]
  have hmode : e.sinkhole.allowlistMode = false := by
    rw [(startEngine_synced he).allowlistMode, hconfig]
  have hn : normalizeText asciiRuntime "youtube.com" = .ok "youtube.com".toList := by decide
  exact ⟨⟨e, []⟩, .init ⟨_, _, he, rfl⟩, hidle, hstatus, hpermanent, hmode, hn,
    fun p _ hp => by simp [hpermanent] at hp⟩

theorem remove_after_add_youtube : ∃ e : PolicyEngine,
    e.config.permanentDomains = getCompanionDomains asciiRuntime "youtube.com" ∧
    (e.sinkhole.isBlocked asciiRuntime "i.ytimg.com").1 = true := by
  obtain ⟨d, hd, hidle, hstatus, hpermanent, hmode, hn, hnew⟩ := exists_unlisted_youtube
  obtain ⟨hlist, hblocked⟩ := remove_after_add hd hidle hn hnew (envAt ten) (envAt ten)
  rw [hpermanent, List.nil_append] at hlist
  refine ⟨_, hlist, (hblocked hstatus lowerLaws_ascii "i.ytimg.com").mpr (.inr ⟨hmode, ?_, ?_⟩)⟩
  · rw [Essential]
    decide
  · decide

/-- The companions of YouTube stay. -/
theorem companions_stay : ¬ ∀ (d : Daemon) (input : Json) (domain : Text) (env env' : CallEnv),
    Daemon.Possible asciiRuntime d → ¬ d.engine.session.isLocked = true →
    normalizeDomain asciiRuntime input = .ok domain →
    (∀ p ∈ domain :: getCompanionDomains asciiRuntime domain,
      p ∉ d.engine.config.permanentDomains) →
    (addedAndRemoved asciiRuntime env env' input d.engine).config.permanentDomains =
      d.engine.config.permanentDomains := by
  intro h
  obtain ⟨d, hd, hidle, -, hpermanent, -, hn, hnew⟩ := exists_unlisted_youtube
  obtain ⟨m, heq⟩ := addedAndRemoved_eq hd.coherent hidle hn hnew (envAt ten) (envAt ten)
  have hsame := h d _ _ (envAt ten) (envAt ten) hd hidle hn hnew
  rw [heq, hpermanent] at hsame
  exact absurd (show getCompanionDomains asciiRuntime "youtube.com" = [] from hsame) (by decide)

end Example

end FocusGuard

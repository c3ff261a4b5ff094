import FocusGuard.Core.ValidDomains
import FocusGuard.Service.SessionEnforced

/-!
# The permanent lists over whole histories

Uniqueness and registered identifiers hold whatever is called. That every entry is a fixed point
of the normalization depends on the text that the IDNA codec returns for an added domain: the
validation accepts a line feed at the very end of it, which a second normalization takes off.

## Main results

* `Listed.invariant`: what holds of all added domains holds of all listed ones, without duplicates.
* `canonical_lists`: the lists, and the calls that edit them, while no line feed is let through.
* `line_feed_is_listed`: a domain with a line feed is added.
-/

namespace FocusGuard

open PolicyEngine

/-- No entry is listed twice, every domain has the property, every service is registered. -/
structure AppConfig.Canonical (fixed : Text → Prop) (config : AppConfig) : Prop where
  domains_nodup : config.permanentDomains.Nodup
  fixed : ∀ p ∈ config.permanentDomains, fixed p
  services_nodup : config.permanentServices.Nodup
  registered : ∀ id ∈ config.permanentServices, ∃ svc ∈ serviceRegistry, svc.id = id

/-- So in memory and in the state file. -/
structure PolicyEngine.Listed (fixed : Text → Prop) (e : PolicyEngine) : Prop where
  config : e.config.Canonical fixed
  stored : ∀ config session, e.stateManager.disk.Stores config session → config.Canonical fixed

/-- What happens to an engine: a call, a heartbeat, or a restart on its files. -/
inductive PolicyEvent where
  | call (env : CallEnv) (op : Operation)
  | tick (env : CallEnv)
  | restart (env : CallEnv)

variable (rt : Runtime)

/-- The codec does not end the host with a line feed. -/
def Encodes : Json → Prop
  | .str t => ∀ host ∈ encodedHost rt t, host.getLast? ≠ some '\n'
  | _ => True

/-- An added domain is encoded without a line feed at its end. -/
def PolicyEvent.Encodes : PolicyEvent → Prop
  | .call _ (.addPermanentDomain domainInput _) => FocusGuard.Encodes rt domainInput
  | _ => True

namespace PolicyEngine

/-- The engine after an event; `none` is a restart that does not come up. -/
def after (e : PolicyEngine) : PolicyEvent → Option PolicyEngine
  | .call env op => some (op.run rt env e).2
  | .tick env => some (PolicyEngine.tick rt env e).2
  | .restart env =>
    match startEngine rt env e.stateManager.disk with
    | .ok e' => some e'
    | .error _ => none

def Step (e : PolicyEngine) (ev : PolicyEvent) (e' : PolicyEngine) : Prop :=
  e.after rt ev = some e'

/-- An engine that has come up on a configuration without permanent rules. -/
def Unconfigured (e : PolicyEngine) : Prop :=
  (∃ env disk, startEngine rt env disk = .ok e) ∧
    e.config.permanentDomains = [] ∧ e.config.permanentServices = []

/-- The lists of the engine are canonical, and the calls that edit them say what they did. -/
structure KeepsLists (e : PolicyEngine) : Prop where
  canonical : e.config.Canonical fun p => normalizeDomain rt (.str p) = .ok p
  removed : ∀ env domainInput norm e',
    removePermanentDomain rt env domainInput e = (.ok norm, e') →
      normalizeDomain rt domainInput = .ok norm ∧ norm ∉ e'.config.permanentDomains
  unblocked : ∀ env serviceId name e',
    unblockPermanentService rt env serviceId e = (.ok name, e') →
      ∃ svc, lookupService rt serviceId = .ok (some svc) ∧ svc.id ∉ e'.config.permanentServices
  added : ∀ env domainInput companions domains e',
    addPermanentDomain rt env domainInput companions e = (.ok domains, e') →
      e'.config.permanentDomains ≠ e.config.permanentDomains →
      domains.Nodup ∧ ∀ d, d ∈ domains ↔
        d ∈ e'.config.permanentDomains ∧ d ∉ e.config.permanentDomains

end PolicyEngine

variable {rt : Runtime} {env : CallEnv} {e e' : PolicyEngine} {fixed : Text → Prop} {α β : Type}

/-! ## Appending and erasing -/

/-- What is appended is new, and nothing of it twice. -/
theorem appendMissing_spec (l new : List Text) :
    (appendMissing l new).1 = l ++ (appendMissing l new).2 ∧ (appendMissing l new).2.Nodup ∧
      ∀ d ∈ (appendMissing l new).2, d ∉ l ∧ d ∈ new := by
  induction new generalizing l with
  | nil => simp [appendMissing]
  | cons d new ih =>
    rw [appendMissing]
    split
    · obtain ⟨happ, hnodup, hnew⟩ := ih l
      exact ⟨happ, hnodup, fun x hx => ⟨(hnew x hx).1, List.mem_cons_of_mem _ (hnew x hx).2⟩⟩
    · next hd =>
      obtain ⟨happ, hnodup, hnew⟩ := ih (l ++ [d])
      refine ⟨by rw [happ, List.append_assoc]; rfl, List.nodup_cons.mpr ⟨fun hm => ?_, hnodup⟩, ?_⟩
      · exact (hnew d hm).1 (by simp)
      · intro x hx
        rcases List.mem_cons.mp hx with rfl | hx
        · exact ⟨hd, List.mem_cons_self⟩
        · have hmem := hnew x hx
          simp only [List.mem_append, not_or] at hmem
          exact ⟨hmem.1.1, List.mem_cons_of_mem _ hmem.2⟩

theorem mem_appendMissing_new {d : Text} {l new : List Text} (h : d ∈ new) :
    d ∈ (appendMissing l new).1 := by
  induction new generalizing l with
  | nil => cases h
  | cons b new ih =>
    rw [appendMissing]
    split
    · next hb =>
      rcases List.mem_cons.mp h with rfl | h
      · rw [(appendMissing_spec l new).1]
        exact List.mem_append_left _ hb
      · exact ih h
    · rcases List.mem_cons.mp h with rfl | h
      · show d ∈ (appendMissing (l ++ [d]) new).1
        rw [(appendMissing_spec (l ++ [d]) new).1]
        simp
      · exact ih h

theorem appendMissing_nodup {l : List Text} (h : l.Nodup) (new : List Text) :
    (appendMissing l new).1.Nodup := by
  obtain ⟨happ, hnodup, hnew⟩ := appendMissing_spec l new
  rw [happ]
  exact h.append hnodup fun d hl hd => (hnew d hd).1 hl

namespace AppConfig.Canonical

variable {config : AppConfig}

theorem empty (hd : config.permanentDomains = []) (hs : config.permanentServices = []) :
    config.Canonical fixed := by
  constructor
  all_goals simp [hd, hs]

theorem add (h : config.Canonical fixed) {new : List Text} (hnew : ∀ d ∈ new, fixed d) :
    AppConfig.Canonical fixed
      { config with permanentDomains := (appendMissing config.permanentDomains new).1 } where
  domains_nodup := appendMissing_nodup h.domains_nodup new
  fixed p hp := (mem_appendMissing hp).elim (h.fixed p) (hnew p)
  services_nodup := h.services_nodup
  registered := h.registered

theorem remove (h : config.Canonical fixed) (d : Text) : AppConfig.Canonical fixed
    { config with permanentDomains := config.permanentDomains.erase d } where
  domains_nodup := h.domains_nodup.erase d
  fixed p hp := h.fixed p (List.mem_of_mem_erase hp)
  services_nodup := h.services_nodup
  registered := h.registered

theorem block (h : config.Canonical fixed) {svc : ServiceDefinition} (hs : svc ∈ serviceRegistry)
    (hnew : svc.id ∉ config.permanentServices) : AppConfig.Canonical fixed
      { config with permanentServices := config.permanentServices ++ [svc.id] } where
  domains_nodup := h.domains_nodup
  fixed := h.fixed
  services_nodup := by
    refine h.services_nodup.append (List.nodup_singleton _) fun id hid hm => ?_
    exact hnew (List.mem_singleton.mp hm ▸ hid)
  registered id hid := by
    rcases List.mem_append.mp hid with hid | hid
    · exact h.registered id hid
    · exact ⟨svc, hs, (List.mem_singleton.mp hid).symm⟩

theorem unblock (h : config.Canonical fixed) (id : Text) : AppConfig.Canonical fixed
    { config with permanentServices := config.permanentServices.erase id } where
  domains_nodup := h.domains_nodup
  fixed := h.fixed
  services_nodup := h.services_nodup.erase id
  registered i hi := h.registered i (List.mem_of_mem_erase hi)

end AppConfig.Canonical

/-! ## What each part of a call keeps -/

theorem lookupService_mem {serviceId : Json} {svc : ServiceDefinition}
    (h : lookupService rt serviceId = .ok (some svc)) : svc ∈ serviceRegistry := by
  cases serviceId with
  | str t => exact getService_mem (Except.ok.inj h)
  | _ => cases h

namespace PolicyEngine.Listed

theorem onSession (m : Exec PyError SessionState α) :
    Exec.Preserves (Listed fixed) (PolicyEngine.onSession m) := by
  intro e he
  rcases hm : m e.session with ⟨x | a, t⟩
  · rw [onSession_eq hm]
    exact ⟨he.config, he.stored⟩
  · rw [onSession_eq hm]
    exact ⟨he.config, he.stored⟩

theorem onSinkhole (m : Exec PyError DomainSinkhole α) :
    Exec.Preserves (Listed fixed) (PolicyEngine.onSinkhole m) := by
  intro e he
  rcases hm : m e.sinkhole with ⟨x | a, t⟩
  · rw [onSinkhole_eq hm]
    exact ⟨he.config, he.stored⟩
  · rw [onSinkhole_eq hm]
    exact ⟨he.config, he.stored⟩

theorem refreshSinkhole : Exec.Preserves (Listed fixed) (PolicyEngine.refreshSinkhole rt) :=
  Exec.Triple.get_bind fun _ he _ heq => onSinkhole _ _ (heq ▸ he)

/-- A save writes the configuration in memory, or leaves the file. -/
theorem saveState (env : CallEnv) :
    Exec.Preserves (Listed fixed) (PolicyEngine.saveState rt env) := by
  intro e he
  by_cases hs : env.saveOk = true
  · obtain ⟨m, hm, hst⟩ :=
      save_ok rt { config := e.config, session := e.session } e.stateManager hs
    rw [saveState_eq hm]
    exact ⟨he.config, fun _ _ hst' => (hst.unique hst').1 ▸ he.config⟩
  · obtain ⟨m, hm, hfile⟩ :=
      save_error rt { config := e.config, session := e.session } e.stateManager hs
    rw [saveState_eq hm]
    refine ⟨he.config, fun config session hst => he.stored config session ?_⟩
    obtain ⟨value, signature, hvalue, hread⟩ := hst
    exact ⟨value, signature, hfile ▸ hvalue, hread⟩

theorem ofExcept_bind {r : Except PyError β} {f : β → Exec PyError PolicyEngine α}
    (h : ∀ b, r = .ok b → Exec.Preserves (Listed fixed) (f b)) :
    Exec.Preserves (Listed fixed) (Exec.ofExcept r >>= f) := by
  cases r with
  | error x => exact fun e he => he
  | ok b => exact h b rfl

/-- An edit that keeps the lists canonical, then a refresh and a save. -/
theorem edit {f : AppConfig → AppConfig} {e₀ : PolicyEngine}
    (hf : e₀.config.Canonical fixed → (f e₀.config).Canonical fixed) (he : Listed fixed e₀)
    (a : α) :
    Exec.Triple (· = e₀) (setConfig f >>= fun _ => PolicyEngine.refreshSinkhole rt >>= fun _ =>
      PolicyEngine.saveState rt env >>= fun _ => (pure a : Exec PyError PolicyEngine α))
      (fun _ => Listed fixed) (fun _ => Listed fixed) := by
  refine .bind (Q := fun _ => Listed fixed) (.modify ?_) fun _ => ?_
  · rintro e rfl
    exact ⟨hf he.config, he.stored⟩
  · exact .bind refreshSinkhole fun _ => .bind (saveState env) fun _ => .pure fun _ h => h

end PolicyEngine.Listed

/-! ## What each event keeps -/

theorem startEngine_of_step (h : Step rt e (.restart env) e') :
    startEngine rt env e.stateManager.disk = .ok e' := by
  simp only [Step, after] at h
  split at h
  · next t hstart => rw [hstart, Option.some.inj h]
  · cases h

/-- All that an added domain brings into the list has the property. -/
def AddsOnly (rt : Runtime) (fixed : Text → Prop) : PolicyEvent → Prop
  | .call _ (.addPermanentDomain domainInput companions) =>
    ∀ norm, normalizeDomain rt domainInput = .ok norm →
      ∀ d ∈ norm :: if companions then getCompanionDomains rt norm else [], fixed d
  | _ => True

namespace PolicyEngine.Listed

theorem addPermanentDomain {domainInput : Json} {companions : Bool}
    (hadds : AddsOnly rt fixed (.call env (.addPermanentDomain domainInput companions))) :
    Exec.Preserves (Listed fixed)
      (PolicyEngine.addPermanentDomain rt env domainInput companions) := by
  refine .bind (onSession _) fun _ => ofExcept_bind fun norm hn => ?_
  exact .get_bind fun e he => edit (fun h => h.add (hadds norm hn)) he _

theorem removePermanentDomain (domainInput : Json) : Exec.Preserves (Listed fixed)
    (PolicyEngine.removePermanentDomain rt env domainInput) := by
  refine .bind (onSession _) fun _ => ofExcept_bind fun norm _ => .get_bind fun e he => ?_
  apply Exec.Triple.ite
  · exact fun _ => edit (fun h => h.remove norm) he _
  · exact fun _ => .throw fun _ heq => heq ▸ he

theorem blockPermanentService (serviceId : Json) : Exec.Preserves (Listed fixed)
    (PolicyEngine.blockPermanentService rt env serviceId) := by
  refine .bind (onSession _) fun _ => ofExcept_bind fun found hfound => ?_
  cases found with
  | none => exact .throw fun _ h => h
  | some svc =>
    refine .get_bind fun e he => .ite (fun hnew => ?_) fun _ => .pure fun _ heq => heq ▸ he
    exact edit (fun h => h.block (lookupService_mem hfound) hnew) he _

theorem unblockPermanentService (serviceId : Json) : Exec.Preserves (Listed fixed)
    (PolicyEngine.unblockPermanentService rt env serviceId) := by
  refine .bind (onSession _) fun _ => ofExcept_bind fun found _ => ?_
  cases found with
  | none => exact .throw fun _ h => h
  | some svc =>
    refine .get_bind fun e he => .ite (fun _ => ?_) fun _ => .throw fun _ heq => heq ▸ he
    exact edit (fun h => h.unblock svc.id) he _

theorem startFocusSession (durationStr untilStr domainsArg servicesArg : Json) (companions : Bool) :
    Exec.Preserves (Listed fixed) (PolicyEngine.startFocusSession rt env durationStr untilStr
      domainsArg servicesArg companions) := by
  refine ofExcept_bind fun expiry _ => .get_bind fun e he => ?_
  rintro t rfl
  refine (?_ : Exec.Preserves (Listed fixed) _) t he
  refine ofExcept_bind fun scope _ => .ite (fun _ => .throw fun _ h => h) fun _ => ?_
  refine .bind (onSession _) fun _ => .bind refreshSinkhole fun _ => .bind (saveState env) fun _ => ?_
  exact .get_bind fun e he => .ofExcept (fun _ _ _ heq => heq ▸ he) fun _ _ _ heq => heq ▸ he

theorem operation {op : Operation} (hadds : AddsOnly rt fixed (.call env op)) :
    Exec.Preserves (Listed fixed) (op.run rt env) := by
  cases op with
  | addPermanentDomain domainInput companions =>
    exact .bind (addPermanentDomain hadds) fun _ => .pure fun _ h => h
  | removePermanentDomain domainInput =>
    exact .bind (removePermanentDomain domainInput) fun _ => .pure fun _ h => h
  | blockPermanentService serviceId =>
    exact .bind (blockPermanentService serviceId) fun _ => .pure fun _ h => h
  | unblockPermanentService serviceId =>
    exact .bind (unblockPermanentService serviceId) fun _ => .pure fun _ h => h
  | startFocusSession durationStr untilStr domainsArg servicesArg companions =>
    exact .bind (startFocusSession _ _ _ _ _) fun _ => .pure fun _ h => h
  | stopFocusSession => exact onSession _

theorem tick (env : CallEnv) :
    Exec.Preserves (Listed fixed) (PolicyEngine.tick rt env) := by
  refine .bind (onSession _) fun r => .ite (fun _ => ?_) fun _ => .pure fun _ h => h
  refine .bind (onSession _) fun _ => .bind refreshSinkhole fun _ => ?_
  exact .bind (saveState env) fun _ => .pure fun _ h => h

/-- A restart takes the lists from the state file, or begins with empty ones. -/
theorem restart (he : Listed fixed e) (h : startEngine rt env e.stateManager.disk = .ok e') :
    Listed fixed e' := by
  have hconfig : e'.config.Canonical fixed := by
    obtain ⟨session, ⟨hempty, -⟩ | hst, -⟩ := startEngine_policy h
    · rw [hempty]
      exact .empty rfl rfl
    · exact he.stored _ _ hst
  exact ⟨hconfig, fun _ _ hst => ((startEngine_synced h).stored.unique hst).1 ▸ hconfig⟩

theorem step {ev : PolicyEvent} (hadds : AddsOnly rt fixed ev) (he : Listed fixed e)
    (h : Step rt e ev e') : Listed fixed e' := by
  cases ev with
  | call env op =>
    cases h
    exact (operation hadds).after he
  | tick env =>
    cases h
    exact (tick env).after he
  | restart env =>
    exact he.restart (startEngine_of_step h)

/-- What holds of all that is added holds of all that is listed, and nothing is listed twice. -/
theorem invariant (h : Reachable (Unconfigured rt) (Step rt) (AddsOnly rt fixed) e) :
    Listed fixed e := by
  refine Reachable.invariant (I := Listed fixed) ?_ (fun _ _ _ hadds he hst => he.step hadds hst) h
  rintro e ⟨⟨env, disk, hstart⟩, hdomains, hservices⟩
  exact ⟨.empty hdomains hservices, fun _ _ hst =>
    ((startEngine_synced hstart).stored.unique hst).1 ▸ .empty hdomains hservices⟩

end PolicyEngine.Listed

/-! ## Fixed points -/

theorem getCompanionDomains_fixed {domain d : Text} (h : d ∈ getCompanionDomains rt domain) :
    normalizeDomain rt (.str d) = .ok d := by
  obtain ⟨hvalid, hnum, hlast⟩ := getCompanionDomains_checked h
  exact fixed_of_validated hvalid hnum hlast

/-- Where the codec leaves no line feed, only fixed points are added. -/
theorem PolicyEvent.Encodes.addsOnly {ev : PolicyEvent} (h : ev.Encodes rt) :
    AddsOnly rt (fun p => normalizeDomain rt (.str p) = .ok p) ev := by
  cases ev with
  | call env op =>
    cases op with
    | addPermanentDomain domainInput companions =>
      intro norm hn d hd
      rcases List.mem_cons.mp hd with rfl | hd
      · cases domainInput with
        | str raw =>
          have hlast : d.getLast? ≠ some '\n' := h d (normalizeText_encodedHost hn)
          exact fixed_of_validated (validated_of_normalizeText hn)
            (not_numericTail_of_normalizeText hn hlast) hlast
        | _ => cases hn
      · split at hd
        · exact getCompanionDomains_fixed hd
        · cases hd
    | _ => trivial
  | _ => trivial

/-! ## What the calls return -/

theorem onSession_config {m : Exec PyError SessionState α} {a : α}
    (h : onSession m e = (.ok a, e')) : e'.config = e.config := by
  obtain ⟨t, -, rfl⟩ := Exec.focus_eq_ok.mp h
  rfl

/-- A call that edits, refreshes and saves returns with its edit in force. -/
theorem edit_ok {f : AppConfig → AppConfig} {a b : α}
    (h : (setConfig f >>= fun _ => refreshSinkhole rt >>= fun _ => saveState rt env >>= fun _ =>
      (pure a : Exec PyError PolicyEngine α)) e = (.ok b, e')) :
    b = a ∧ e'.config = f e.config := by
  obtain ⟨_, e₁, hset, hrest⟩ := Exec.bind_eq_ok.mp h
  cases hset
  obtain ⟨_, e₂, hrefresh, htail⟩ := Exec.bind_eq_ok.mp hrest
  obtain ⟨_, e₃, hsave, hpure⟩ := Exec.bind_eq_ok.mp htail
  cases hpure
  obtain ⟨m, -, rfl⟩ := saveState_ok hsave
  unfold refreshSinkhole at hrefresh
  rw [Exec.bind_of_ok (Exec.get_apply _)] at hrefresh
  obtain ⟨s, -, rfl⟩ := Exec.focus_eq_ok.mp hrefresh
  exact ⟨rfl, rfl⟩

theorem addPermanentDomain_ok {domainInput : Json} {companions : Bool} {domains : List Text}
    (h : addPermanentDomain rt env domainInput companions e = (.ok domains, e')) :
    ∃ norm added, normalizeDomain rt domainInput = .ok norm ∧
      domains = (if added = [] then [norm] else added) ∧
      appendMissing e.config.permanentDomains
        (norm :: if companions then getCompanionDomains rt norm else []) =
          (e'.config.permanentDomains, added) := by
  obtain ⟨_, e₁, hguard, hrest⟩ := Exec.bind_eq_ok.mp h
  obtain ⟨norm, e₂, hnorm, hedit⟩ := Exec.bind_eq_ok.mp hrest
  obtain ⟨hn, rfl⟩ := Exec.ofExcept_eq_ok.mp hnorm
  rw [Exec.bind_of_ok (Exec.get_apply _), onSession_config hguard] at hedit
  obtain ⟨hdomains, hconfig⟩ := edit_ok hedit
  refine ⟨norm, _, hn, hdomains, ?_⟩
  rw [hconfig]

/-- The domain that was asked for is listed. -/
theorem mem_of_addPermanentDomain {domainInput : Json} {companions : Bool} {domains : List Text}
    {norm : Text} (h : addPermanentDomain rt env domainInput companions e = (.ok domains, e'))
    (hn : normalizeDomain rt domainInput = .ok norm) : norm ∈ e'.config.permanentDomains := by
  obtain ⟨n, added, hn', -, hadded⟩ := addPermanentDomain_ok h
  obtain rfl : norm = n := Except.ok.inj (hn.symm.trans hn')
  have hmem : norm ∈ (appendMissing e.config.permanentDomains
      (norm :: if companions then getCompanionDomains rt norm else [])).1 :=
    mem_appendMissing_new List.mem_cons_self
  rwa [hadded] at hmem

theorem removePermanentDomain_ok {domainInput : Json} {norm : Text}
    (h : removePermanentDomain rt env domainInput e = (.ok norm, e')) :
    normalizeDomain rt domainInput = .ok norm ∧
      e'.config.permanentDomains = e.config.permanentDomains.erase norm := by
  obtain ⟨_, e₁, hguard, hrest⟩ := Exec.bind_eq_ok.mp h
  obtain ⟨d, e₂, hnorm, hedit⟩ := Exec.bind_eq_ok.mp hrest
  obtain ⟨hn, rfl⟩ := Exec.ofExcept_eq_ok.mp hnorm
  rw [Exec.bind_of_ok (Exec.get_apply _)] at hedit
  split at hedit
  · obtain ⟨rfl, hconfig⟩ := edit_ok hedit
    exact ⟨hn, by rw [hconfig, onSession_config hguard]⟩
  · cases hedit

theorem unblockPermanentService_ok {serviceId : Json} {name : Text}
    (h : unblockPermanentService rt env serviceId e = (.ok name, e')) :
    ∃ svc, lookupService rt serviceId = .ok (some svc) ∧
      e'.config.permanentServices = e.config.permanentServices.erase svc.id := by
  obtain ⟨_, e₁, hguard, hrest⟩ := Exec.bind_eq_ok.mp h
  obtain ⟨found, e₂, hlookup, hedit⟩ := Exec.bind_eq_ok.mp hrest
  obtain ⟨hfound, rfl⟩ := Exec.ofExcept_eq_ok.mp hlookup
  cases found with
  | none => cases hedit
  | some svc =>
    dsimp only at hedit
    rw [Exec.bind_of_ok (Exec.get_apply _)] at hedit
    split at hedit
    · obtain ⟨-, hconfig⟩ := edit_ok hedit
      exact ⟨svc, hfound, by rw [hconfig, onSession_config hguard]⟩
    · cases hedit

/-! ## Histories -/

/-- Calls on canonical lists keep what they say about them. -/
theorem PolicyEngine.KeepsLists.of_canonical
    (h : e.config.Canonical fun p => normalizeDomain rt (.str p) = .ok p) : KeepsLists rt e where
  canonical := h
  removed env domainInput norm e' hrun := by
    obtain ⟨hn, hdomains⟩ := removePermanentDomain_ok hrun
    exact ⟨hn, hdomains ▸ h.domains_nodup.not_mem_erase⟩
  unblocked env serviceId name e' hrun := by
    obtain ⟨svc, hsvc, hservices⟩ := unblockPermanentService_ok hrun
    exact ⟨svc, hsvc, hservices ▸ h.services_nodup.not_mem_erase⟩
  added env domainInput companions domains e' hrun hne := by
    obtain ⟨norm, added, -, rfl, hadded⟩ := addPermanentDomain_ok hrun
    obtain ⟨happ, hnodup, hnew⟩ := appendMissing_spec e.config.permanentDomains
      (norm :: if companions then getCompanionDomains rt norm else [])
    rw [hadded] at happ hnodup hnew
    dsimp only at happ hnodup hnew
    have hsome : added ≠ [] := by
      rintro rfl
      exact hne (happ.trans (List.append_nil _))
    rw [if_neg hsome]
    refine ⟨hnodup, fun d => ?_⟩
    rw [happ, List.mem_append]
    exact ⟨fun hd => ⟨.inr hd, (hnew d hd).1⟩, fun hd => hd.1.resolve_left hd.2⟩

/-- In every history from a configuration without permanent rules whose added domains the codec
ends without a line feed, the lists are canonical and the calls that edit them say what they did. -/
theorem canonical_lists
    (h : Reachable (Unconfigured rt) (Step rt) (PolicyEvent.Encodes rt) e) : KeepsLists rt e := by
  obtain ⟨s, events, hs, hrun, hevents⟩ := h
  exact .of_canonical (Listed.invariant
    ⟨s, events, hs, hrun, fun ev hev => (hevents ev hev).addsOnly⟩).config

/-- Any other domain that is added is no fixed point. -/
theorem not_canonical_of_lineFeed {domainInput : Json} {companions : Bool} {domains : List Text}
    (hrun : addPermanentDomain rt env domainInput companions e = (.ok domains, e'))
    (h : ¬ Encodes rt domainInput) :
    ¬ e'.config.Canonical fun p => normalizeDomain rt (.str p) = .ok p := by
  obtain ⟨norm, -, hn, -, -⟩ := addPermanentDomain_ok hrun
  intro hcanonical
  cases domainInput with
  | str raw =>
    obtain ⟨host, hhost, hlast⟩ : ∃ host ∈ encodedHost rt raw, host.getLast? = some '\n' := by
      simpa [Encodes] using h
    obtain rfl : norm = host := Option.some.inj ((normalizeText_encodedHost hn).symm.trans hhost)
    exact not_fixed_of_lineFeed (validated_of_normalizeText hn) hlast
      (hcanonical.fixed norm (mem_of_addPermanentDomain hrun hn))
  | _ => cases hn

/-! ## A domain with a line feed -/

section Example

theorem unconfigured_empty (rt : Runtime) : ∃ e, Unconfigured rt e ∧ Coherent rt e ∧
    e.session = {} ∧ e.config = {} := by
  obtain ⟨e, he, hsession, hconfig⟩ := startEngine_empty rt (envAt ten) rfl
  refine ⟨e, ⟨⟨_, _, he⟩, ?_, ?_⟩, (startEngine_synced he).toCoherent, hsession, hconfig⟩
  · rw [hconfig]
  · rw [hconfig]

/-- On a new engine a domain that normalizes is added, with its companions. -/
theorem exists_added {rt : Runtime} {raw norm : Text} (hn : normalizeText rt raw = .ok norm) :
    ∃ e e' domains, Unconfigured rt e ∧
      addPermanentDomain rt (envAt ten) (.str raw) true e = (.ok domains, e') := by
  obtain ⟨e, he, hc, hsession, -⟩ := unconfigured_empty rt
  have hidle : ¬ e.session.isLocked = true := by
    rw [hsession]
    decide
  have hadded : appendMissing e.config.permanentDomains
      (norm :: if true then getCompanionDomains rt norm else []) = (_, _) := rfl
  obtain ⟨⟨m, -, hrun⟩, -⟩ := addPermanentDomain_run (envAt ten) hc hidle
    (show normalizeDomain rt (.str raw) = .ok norm from hn) hadded
  exact ⟨e, _, _, he, hrun⟩

/-- The lists stay canonical when YouTube and its companions are added. -/
theorem canonical_lists_youtube : ∃ e : PolicyEngine,
    "youtube.com".toList ∈ e.config.permanentDomains ∧ KeepsLists asciiRuntime e := by
  have hn : normalizeText asciiRuntime "youtube.com" = .ok "youtube.com".toList := by decide
  obtain ⟨e, e', domains, he, hrun⟩ := exists_added hn
  have hstep : Step asciiRuntime e
      (.call (envAt ten) (.addPermanentDomain (.str "youtube.com") true)) e' :=
    congrArg some ((Operation.discard_snd _ e).trans (congrArg Prod.snd hrun))
  refine ⟨e', ?_, canonical_lists (Reachable.run (.init he) (.single hstep) fun ev hev => ?_)⟩
  · exact mem_of_addPermanentDomain hrun hn
  · obtain rfl := List.mem_singleton.mp hev
    intro host hhost
    obtain rfl : "youtube.com".toList = host :=
      Option.some.inj ((normalizeText_encodedHost hn).symm.trans hhost)
    decide

/-- A domain with a line feed at its end is added, and normalizing it gives another one. -/
theorem line_feed_is_listed : ∃ e e' domains, Unconfigured idnaRuntime e ∧
    addPermanentDomain idnaRuntime (envAt ten) (.str hyphenatedCom) true e = (.ok domains, e') ∧
    "x.com\n".toList ∈ e'.config.permanentDomains ∧
    normalizeText idnaRuntime "x.com\n" = .ok "x.com".toList ∧ ¬ KeepsLists idnaRuntime e' := by
  have hn : normalizeText idnaRuntime hyphenatedCom = .ok "x.com\n".toList := by decide
  obtain ⟨e, e', domains, he, hrun⟩ := exists_added hn
  refine ⟨e, e', domains, he, hrun, mem_of_addPermanentDomain hrun hn, by decide, fun hkeeps => ?_⟩
  refine not_canonical_of_lineFeed hrun (fun hencodes => ?_) hkeeps.canonical
  exact hencodes _ (normalizeText_encodedHost hn) rfl

end Example

end FocusGuard

import FocusGuard.Core.RawEngine
import FocusGuard.Dns.Catalogues
import FocusGuard.Dns.Verdict
import FocusGuard.Lib.Reader

/-!
# What keeps a loaded engine running

What the members of a loaded state must be for the expiry check, the refresh of the rules and the
status report not to raise, and that a heartbeat keeps them so.

## Main results

* `refreshable_iff`: the members on which the rules can be refreshed.
* `Running.tick`, `Running.getStatus`: an engine that runs goes on running.
-/

namespace FocusGuard

open Calendar

variable {rt : Runtime} {config : RawConfig} {session : RawSession} {now : Instant}

theorem of_orTypeError {α : Type} {x : Option α} {a : α} (h : orTypeError x = .ok a) :
    x = some a := by
  cases x with
  | none => cases h
  | some b =>
    cases h
    rfl

namespace RawSession

/-- Both timestamps of a locked session can be compared with a reading, as far as they are. The
expiry is not looked at while the clock stands before the creation. -/
structure Stamped (rt : Runtime) (s : RawSession) : Prop where
  created : s.createdAtUtc.truthy = true → ∃ c, aware rt s.createdAtUtc = .ok c
  expires : (∃ x, aware rt s.expiresAtUtc = .ok x) ∨
    s.expiresAtUtc.truthy = false ∧ ∀ now, s.rolledBack rt now = .ok true

/-- The session has elapsed at a reading. -/
def Elapsed (rt : Runtime) (s : RawSession) (now : Instant) : Prop :=
  s.isLocked = true ∧ s.rolledBack rt now = .ok false ∧
    ∃ x, aware rt s.expiresAtUtc = .ok x ∧ x ≤ now.micros

/-! ## Timestamps -/

theorem truthy_of_aware {value : Json} {u : Int} (h : aware rt value = .ok u) :
    value.truthy = true := by
  cases value with
  | str t =>
    cases t with
    | nil => cases h
    | cons c t => rfl
  | _ => cases h

theorem expiresOrEmpty_of_aware {s : RawSession} {x : Int} (h : aware rt s.expiresAtUtc = .ok x) :
    aware rt s.expiresOrEmpty = .ok x := by
  rw [expiresOrEmpty, if_pos (truthy_of_aware h), h]

theorem aware_of_expiresOrEmpty {s : RawSession} {x : Int} (h : aware rt s.expiresOrEmpty = .ok x) :
    aware rt s.expiresAtUtc = .ok x := by
  unfold expiresOrEmpty at h
  split at h
  · exact h
  · cases h

/-- The three ends of an expiry check that does not raise. -/
theorem checkExpiration_ok {s t : RawSession} {r : Bool × Text}
    (h : checkExpiration rt now s = (.ok r, t)) :
    (r.1 = true ∧ s.Elapsed rt now) ∨ (r.1 = false ∧ t = s ∧ ¬ s.Elapsed rt now) := by
  unfold checkExpiration at h
  unfold Elapsed
  split at h
  · next hl =>
    cases h
    exact .inr ⟨rfl, rfl, fun he => hl he.1⟩
  · next hl =>
    split at h
    · cases h
    · next hback =>
      cases h
      refine .inr ⟨rfl, rfl, fun he => ?_⟩
      rw [hback] at he
      cases he.2.1
    · next hback =>
      split at h
      · cases h
      · next x hx =>
        have haware := aware_of_expiresOrEmpty hx
        split at h
        · next hle =>
          cases h
          exact .inl ⟨rfl, not_not.mp hl, hback, x, haware, hle⟩
        · next hle =>
          cases h
          refine .inr ⟨rfl, rfl, fun ⟨_, _, y, hy, hle'⟩ => ?_⟩
          rw [haware, Except.ok.injEq] at hy
          exact hle (hy ▸ hle')

/-- On timestamps that can be compared the check does not raise. -/
theorem Stamped.checkExpiration_ok {s : RawSession} (h : s.isLocked = true → s.Stamped rt)
    (now : Instant) : ∃ r t, checkExpiration rt now s = (.ok r, t) := by
  unfold checkExpiration
  by_cases hl : s.isLocked = true
  · rw [if_neg (not_not.mpr hl)]
    have hstamped := h hl
    obtain ⟨back, hback⟩ : ∃ back, s.rolledBack rt now = .ok back := by
      unfold rolledBack
      by_cases hc : s.createdAtUtc.truthy = true
      · obtain ⟨c, hc'⟩ := hstamped.created hc
        rw [if_neg (not_not.mpr hc), hc']
        exact ⟨_, rfl⟩
      · rw [if_pos hc]
        exact ⟨_, rfl⟩
    rw [hback]
    cases back with
    | true => exact ⟨_, _, rfl⟩
    | false =>
      rcases hstamped.expires with ⟨x, hx⟩ | ⟨-, hall⟩
      · simp only [expiresOrEmpty_of_aware hx]
        split
        · exact ⟨_, _, rfl⟩
        · exact ⟨_, _, rfl⟩
      · rw [hall now] at hback
        cases hback
  · rw [if_pos hl]
    exact ⟨_, _, rfl⟩

theorem Stamped.getRemainingSeconds_ok {s : RawSession} (h : s.isLocked = true → s.Stamped rt)
    (now : Instant) : ∃ rem, s.getRemainingSeconds rt now = .ok rem := by
  unfold getRemainingSeconds
  by_cases hl : s.isLocked = true
  · rcases (h hl).expires with ⟨x, hx⟩ | ⟨hnot, -⟩
    · rw [hx]
      split
      · exact ⟨_, rfl⟩
      · exact ⟨_, rfl⟩
    · rw [if_pos (.inr (by simp [hnot]))]
      exact ⟨_, rfl⟩
  · rw [if_pos (.inl hl)]
    exact ⟨_, rfl⟩

/-- A check that never raises, and a remaining time that does not, need such timestamps. -/
theorem stamped_of_ok {s : RawSession} (hl : s.isLocked = true)
    (hcheck : ∀ now, ∃ r t, checkExpiration rt now s = (.ok r, t))
    (hrem : ∀ now, ∃ rem, s.getRemainingSeconds rt now = .ok rem) : s.Stamped rt := by
  have hback : ∀ now, ∃ back, s.rolledBack rt now = .ok back ∧
      (back = false → ∃ x, aware rt s.expiresAtUtc = .ok x) := by
    intro now
    obtain ⟨r, t, h⟩ := hcheck now
    unfold checkExpiration at h
    rw [if_neg (not_not.mpr hl)] at h
    split at h
    · cases h
    · next hback => exact ⟨true, hback, nofun⟩
    · next hback =>
      split at h
      · cases h
      · next x hx => exact ⟨false, hback, fun _ => ⟨x, aware_of_expiresOrEmpty hx⟩⟩
  constructor
  · intro hc
    obtain ⟨back, h, -⟩ := hback ⟨0, by decide⟩
    unfold rolledBack at h
    rw [if_neg (not_not.mpr hc)] at h
    split at h
    · cases h
    · next c hc' => exact ⟨c, hc'⟩
  · by_cases hx : ∃ x, aware rt s.expiresAtUtc = .ok x
    · exact .inl hx
    · refine .inr ⟨?_, fun now => ?_⟩
      · rw [Bool.eq_false_iff]
        intro htrue
        obtain ⟨rem, h⟩ := hrem ⟨0, by decide⟩
        unfold getRemainingSeconds at h
        rw [if_neg (by simp [hl, htrue])] at h
        split at h
        · cases h
        · next x hx' => exact hx ⟨x, hx'⟩
      · obtain ⟨back, h, hfalse⟩ := hback now
        cases back with
        | true => exact h
        | false => exact absurd (hfalse rfl) hx

end RawSession

namespace RawEngine

/-- The values that the configuration and a locked session list for blocking. -/
def blockedValues? (config : RawConfig) (session : RawSession) : Option (List Scalar) :=
  config.permanentDomains.set?.bind fun domains =>
    if session.isLocked then session.sessionDomains.set?.map (domains ++ ·) else some domains

/-- The services that they list. -/
def serviceIds? (config : RawConfig) (session : RawSession) : Option (List Text) :=
  config.permanentServices.names?.bind fun ids =>
    if session.isLocked then session.sessionServices.names?.map (ids ++ ·) else some ids

/-- The domains that services and bypass lists add to the values. -/
def addedDomains (rt : Runtime) (config : RawConfig) (ids : List Text) : List Text :=
  getAllDomainsForServices rt ids ++ bypassDomains config

/-- Some service is known, or one of the bypass lists is on. -/
def AddsDomains (rt : Runtime) (config : RawConfig) (ids : List Text) : Prop :=
  config.blockVpns.truthy = true ∨ config.blockDoh.truthy = true ∨
    ∃ id ∈ ids, (getService rt id).isSome = true

/-- The rules can be computed, and no text among the values makes `_add_rule` raise. -/
def Refreshable (rt : Runtime) (config : RawConfig) (session : RawSession) : Prop :=
  ∃ active, getAllActiveBlockedDomains rt config session = .ok active ∧
    ∀ t, .str t ∈ active → RuleSafe rt t

/-- The values can be sorted together with what is added to them, and their texts are safe. -/
structure Sortable (rt : Runtime) (config : RawConfig) (ids : List Text) (values : List Scalar) :
    Prop where
  safe : ∀ t, .str t ∈ values → RuleSafe rt t
  oneKind : Scalar.OneKind values
  texts : AddsDomains rt config ids → ∀ v ∈ values, ∃ t, v = .str t

/-! ## Refreshing -/

theorem domainsOfServices_of_names {x : Json} {ids : List Text} (h : x.names? = some ids) :
    domainsOfServices rt x = .ok (getAllDomainsForServices rt ids) := by
  obtain ⟨l, hl, hids⟩ := Option.bind_eq_some_iff.mp h
  unfold domainsOfServices
  by_cases htrue : x.truthy = true
  · simp only [if_pos htrue, hl, hids]
  · have hnil : ids = [] := by
      cases x with
      | str t => simp_all [Json.truthy, Json.elements?]
      | arr l => simp_all [Json.truthy, Json.elements?]
      | obj l => simp_all [Json.truthy, Json.elements?]
      | _ => cases hl
    rw [if_neg htrue, hnil]
    rfl

theorem getAllDomainsForServices_append (ids ids' : List Text) :
    getAllDomainsForServices rt (ids ++ ids') =
      getAllDomainsForServices rt ids ++ getAllDomainsForServices rt ids' := by
  simp [getAllDomainsForServices]

/-- Where the services can be looked up, the rules are those of the values and of what is added. -/
theorem getAllActiveBlockedDomains_of_ids (rt : Runtime) {ids : List Text}
    (hids : serviceIds? config session = some ids) :
    (blockedValues? config session = none →
      ∀ active, getAllActiveBlockedDomains rt config session ≠ .ok active) ∧
    ∀ values, blockedValues? config session = some values →
      ∃ l, getAllActiveBlockedDomains rt config session = orTypeError (Scalar.sorted? l) ∧
        ∀ v, v ∈ l ↔ v ∈ values ++ (addedDomains rt config ids).map .str := by
  obtain ⟨own, hown, hrest⟩ := Option.bind_eq_some_iff.mp hids
  have hservices : domainsOfServices rt config.permanentServices = _ :=
    domainsOfServices_of_names hown
  unfold blockedValues? getAllActiveBlockedDomains permanentlyBlocked sessionBlocked
  rw [hservices]
  cases config.permanentDomains.set? with
  | none => exact ⟨fun _ _ h => (by cases h), fun _ h => (by cases h)⟩
  | some domains =>
    by_cases hl : session.isLocked = true
    · rw [if_pos hl] at hrest
      obtain ⟨more, hmore, rfl⟩ := Option.map_eq_some_iff.mp hrest
      have hservices' : domainsOfServices rt session.sessionServices = _ :=
        domainsOfServices_of_names hmore
      simp only [Option.bind_some, if_pos hl, hservices']
      cases session.sessionDomains.set? with
      | none => exact ⟨fun _ _ h => (by cases h), fun _ h => (by cases h)⟩
      | some domains' =>
        refine ⟨fun h => (by cases h), fun values h => ⟨_, rfl, fun v => ?_⟩⟩
        cases h
        simp only [addedDomains, getAllDomainsForServices_append, List.map_append, List.mem_append]
        tauto
    · rw [if_neg hl] at hrest
      cases hrest
      simp only [Option.bind_some, if_neg hl]
      refine ⟨fun h => (by cases h), fun values h => ⟨_, rfl, fun v => ?_⟩⟩
      cases h
      simp only [addedDomains, List.append_nil]

theorem addedDomains_ne_nil_iff {ids : List Text} :
    addedDomains rt config ids ≠ [] ↔ AddsDomains rt config ids := by
  have hsome : ∀ svc ∈ serviceRegistry, svc.allDomains ≠ [] := by
    have hprimary : ∀ svc ∈ serviceRegistry, svc.primaryDomains ≠ [] := by decide
    intro svc hs hnil
    rw [ServiceDefinition.allDomains, List.dedup_eq_nil] at hnil
    simp [hprimary svc hs] at hnil
  have hvpn : getAllVpnDomains ≠ [] := by decide
  have hdoh : getAllDohDomains ≠ [] := by decide
  have hservices : getAllDomainsForServices rt ids ≠ [] ↔
      ∃ id ∈ ids, (getService rt id).isSome = true := by
    unfold getAllDomainsForServices
    rw [ne_eq, List.flatMap_eq_nil_iff]
    push Not
    refine exists_congr fun id => and_congr_right fun _ => ?_
    cases hs : getService rt id with
    | none => simp
    | some svc => simpa using hsome svc (getService_mem hs)
  unfold addedDomains bypassDomains AddsDomains
  rw [← hservices]
  by_cases hv : config.blockVpns.truthy = true
  · simp [hv, hvpn]
  · by_cases hd : config.blockDoh.truthy = true
    · simp [hv, hd, hdoh]
    · simp [hv, hd]

theorem addedDomains_plain {ids : List Text} {t : Text} (h : t ∈ addedDomains rt config ids) :
    Plain t := by
  unfold addedDomains bypassDomains at h
  rcases List.mem_append.mp h with h | h
  · exact getAllDomainsForServices_plain h
  · rcases List.mem_append.mp h with h | h
    · split at h
      · exact getAllVpnDomains_plain t h
      · cases h
    · split at h
      · exact getAllDohDomains_plain t h
      · cases h

/-- Values can be sorted together with texts when they can be sorted and, if there are any texts,
are texts themselves. -/
theorem oneKind_append_iff {values : List Scalar} {texts : List Text} :
    Scalar.OneKind (values ++ texts.map .str) ↔
      Scalar.OneKind values ∧ (texts ≠ [] → ∀ v ∈ values, ∃ t, v = .str t) := by
  unfold Scalar.OneKind
  constructor
  · rintro (h | h | h)
    · refine ⟨.inl fun v hv => h v (List.mem_append_left _ hv),
        fun _ v hv => h v (List.mem_append_left _ hv)⟩
    · refine ⟨.inr (.inl fun v hv => h v (List.mem_append_left _ hv)), fun hne => ?_⟩
      obtain ⟨t, ht⟩ := List.exists_mem_of_ne_nil _ hne
      obtain ⟨q, hq⟩ := h (.str t) (List.mem_append_right _ (List.mem_map_of_mem ht))
      cases hq
    · refine ⟨.inr (.inr fun v hv => h v (List.mem_append_left _ hv)), fun hne => ?_⟩
      obtain ⟨t, ht⟩ := List.exists_mem_of_ne_nil _ hne
      have hnull := h (.str t) (List.mem_append_right _ (List.mem_map_of_mem ht))
      cases hnull
  · rintro ⟨hkind, htexts⟩
    by_cases hne : texts = []
    · rw [hne, List.map_nil, List.append_nil]
      exact hkind
    · refine .inl fun v hv => ?_
      rcases List.mem_append.mp hv with hv | hv
      · exact htexts hne v hv
      · obtain ⟨t, -, rfl⟩ := List.mem_map.mp hv
        exact ⟨t, rfl⟩

theorem oneKind_congr {l l' : List Scalar} (h : ∀ v, v ∈ l ↔ v ∈ l') :
    Scalar.OneKind l ↔ Scalar.OneKind l' := by
  simp only [Scalar.OneKind, h]

/-- The rules can be refreshed exactly when all listed values can be hashed, and can be sorted
together with the texts that services and bypass lists add, and their texts are safe. -/
theorem refreshable_iff {ids : List Text} (hids : serviceIds? config session = some ids) :
    Refreshable rt config session ↔
      ∃ values, blockedValues? config session = some values ∧ Sortable rt config ids values := by
  obtain ⟨hnone, hsome⟩ := getAllActiveBlockedDomains_of_ids rt hids
  unfold Refreshable
  cases hvalues : blockedValues? config session with
  | none =>
    constructor
    · rintro ⟨active, hactive, -⟩
      exact absurd hactive (hnone hvalues active)
    · rintro ⟨values, h, -⟩
      cases h
  | some values =>
    obtain ⟨l, heq, hmem⟩ := hsome values hvalues
    have hkind : Scalar.OneKind l ↔ Scalar.OneKind values ∧
        (AddsDomains rt config ids → ∀ v ∈ values, ∃ t, v = .str t) := by
      rw [oneKind_congr hmem, oneKind_append_iff, addedDomains_ne_nil_iff]
    constructor
    · rintro ⟨active, hactive, hsafe⟩
      rw [heq] at hactive
      cases hsort : Scalar.sorted? l with
      | none =>
        rw [hsort] at hactive
        cases hactive
      | some sorted =>
        rw [hsort] at hactive
        cases hactive
        obtain ⟨hone, htexts⟩ := hkind.mp (Scalar.sorted?_isSome_iff.mp ⟨_, hsort⟩)
        refine ⟨values, rfl, fun t ht => hsafe t ?_, hone, htexts⟩
        exact (Scalar.mem_sorted? hsort).mpr ((hmem _).mpr (List.mem_append_left _ ht))
    · rintro ⟨_, h, hsort⟩
      cases h
      obtain ⟨sorted, hsorted⟩ :=
        Scalar.sorted?_isSome_iff.mpr (hkind.mpr ⟨hsort.oneKind, hsort.texts⟩)
      refine ⟨sorted, by rw [heq, hsorted]; rfl, fun t ht => ?_⟩
      rcases List.mem_append.mp ((hmem _).mp ((Scalar.mem_sorted? hsorted).mp ht)) with ht | ht
      · exact hsort.safe t ht
      · obtain ⟨t', ht', heq'⟩ := List.mem_map.mp ht
        cases heq'
        exact (addedDomains_plain ht').ruleSafe

variable {e e' : RawEngine} {α : Type}

theorem onSession_eq {m : Exec PyError RawSession α} {r : Except PyError α} {t : RawSession}
    (h : m e.session = (r, t)) : onSession m e = (r, { e with session := t }) := by
  simp [onSession, h]

theorem onSinkhole_eq {m : Exec PyError DomainSinkhole α} {r : Except PyError α}
    {t : DomainSinkhole} (h : m e.sinkhole = (r, t)) :
    onSinkhole m e = (r, { e with sinkhole := t }) := by
  simp [onSinkhole, h]

theorem Refreshable.refreshSinkhole_ok (h : Refreshable rt e.config e.session) :
    ∃ s, refreshSinkhole rt e = (.ok (), { e with sinkhole := s }) := by
  obtain ⟨active, hactive, hsafe⟩ := h
  obtain ⟨s, hset⟩ : ∃ s, DomainSinkhole.setBlockedDomains rt (active.filterMap Scalar.text?)
      e.sinkhole = (.ok (), s) :=
    ⟨_, setBlockedDomains_eq_ok_iff.mpr
      ⟨fun t ht => hsafe t (Scalar.mem_filterMap_text?.mp ht), rfl⟩⟩
  refine ⟨s, ?_⟩
  unfold refreshSinkhole
  rw [Exec.bind_of_ok (Exec.get_apply e), hactive, Exec.bind_of_ok (Exec.ofExcept_apply _ e)]
  exact onSinkhole_eq hset

theorem refreshable_of_ok (h : refreshSinkhole rt e = (.ok (), e')) :
    Refreshable rt e.config e.session ∧ e'.config = e.config ∧ e'.session = e.session := by
  unfold refreshSinkhole at h
  rw [Exec.bind_of_ok (Exec.get_apply e)] at h
  obtain ⟨active, e₁, hread, hwrite⟩ := Exec.bind_eq_ok.mp h
  obtain ⟨hactive, rfl⟩ := Exec.ofExcept_eq_ok.mp hread
  obtain ⟨s, hset, rfl⟩ := Exec.focus_eq_ok.mp hwrite
  obtain ⟨hsafe, -⟩ := setBlockedDomains_eq_ok_iff.mp hset
  exact ⟨⟨active, hactive, fun t ht => hsafe t (Scalar.mem_filterMap_text?.mpr ht)⟩, rfl, rfl⟩

/-! ## Engines that run -/

/-- What keeps the heartbeat and the status report from raising. -/
structure Running (rt : Runtime) (config : RawConfig) (session : RawSession) : Prop where
  stamps : session.isLocked = true → session.Stamped rt
  sized : (∃ n, session.sessionDomains.len? = some n) ∧ ∃ n, session.sessionServices.len? = some n
  named : ∃ ids, serviceIds? config session = some ids
  refreshable : Refreshable rt config session

theorem Sortable.mono {ids ids' : List Text} {values values' : List Scalar}
    (h : Sortable rt config ids' values') (hids : ∀ id ∈ ids, id ∈ ids')
    (hvalues : ∀ v ∈ values, v ∈ values') : Sortable rt config ids values := by
  refine ⟨fun t ht => h.safe t (hvalues _ ht), ?_, fun hadds v hv => ?_⟩
  · rcases h.oneKind with hk | hk | hk
    · exact .inl fun v hv => hk v (hvalues v hv)
    · exact .inr (.inl fun v hv => hk v (hvalues v hv))
    · exact .inr (.inr fun v hv => hk v (hvalues v hv))
  · refine h.texts ?_ v (hvalues v hv)
    rcases hadds with hv' | hd | ⟨id, hid, hsome⟩
    · exact .inl hv'
    · exact .inr (.inl hd)
    · exact .inr (.inr ⟨id, hids id hid, hsome⟩)

/-- Without its session the engine still runs. -/
theorem Running.idle (h : Running rt config session) : Running rt config {} := by
  obtain ⟨ids, hids⟩ := h.named
  obtain ⟨own, hown, hrest⟩ := Option.bind_eq_some_iff.mp hids
  have hidle : serviceIds? config {} = some own := by
    rw [serviceIds?, hown]
    rfl
  obtain ⟨values, hvalues, hsort⟩ := (refreshable_iff hids).mp h.refreshable
  obtain ⟨domains, hdomains, hmore⟩ := Option.bind_eq_some_iff.mp hvalues
  have hidleValues : blockedValues? config {} = some domains := by
    rw [blockedValues?, hdomains]
    rfl
  refine ⟨fun hl => (by cases hl), ⟨⟨0, rfl⟩, 0, rfl⟩, ⟨own, hidle⟩,
    (refreshable_iff hidle).mpr ⟨domains, hidleValues, hsort.mono ?_ ?_⟩⟩
  · intro id hid
    split at hrest
    · obtain ⟨more, -, rfl⟩ := Option.map_eq_some_iff.mp hrest
      exact List.mem_append_left _ hid
    · cases hrest
      exact hid
  · intro v hv
    split at hmore
    · obtain ⟨more, -, rfl⟩ := Option.map_eq_some_iff.mp hmore
      exact List.mem_append_left _ hv
    · cases hmore
      exact hv

/-- A heartbeat does not raise, and the engine goes on running. -/
theorem Running.tick (h : Running rt e.config e.session) (now : Instant) :
    ∃ b e', RawEngine.tick rt now e = (.ok b, e') ∧ Running rt e'.config e'.session := by
  obtain ⟨r, t, hcheck⟩ := RawSession.Stamped.checkExpiration_ok h.stamps now
  unfold RawEngine.tick
  rw [Exec.bind_of_ok (onSession_eq hcheck)]
  rcases RawSession.checkExpiration_ok hcheck with ⟨hr, -⟩ | ⟨hr, rfl, -⟩
  · have hrelease : onSession RawSession.releaseExpired { e with session := t } =
        (.ok (), { e with session := {} }) := rfl
    rw [if_pos hr, Exec.bind_of_ok hrelease]
    obtain ⟨s, hs⟩ : ∃ s, refreshSinkhole rt { e with session := {} } =
        (.ok (), { e with session := {}, sinkhole := s }) :=
      Refreshable.refreshSinkhole_ok h.idle.refreshable
    exact ⟨true, _, Exec.bind_of_ok hs, h.idle⟩
  · rw [if_neg (by simp [hr])]
    exact ⟨false, e, rfl, h⟩

/-- A status report does not raise. -/
theorem Running.getStatus (h : Running rt e.config e.session) (bypassStatus : Json)
    (now : Instant) : ∃ status, RawEngine.getStatus rt bypassStatus now e = .ok status := by
  obtain ⟨active, hactive, -⟩ := h.refreshable
  obtain ⟨rem, hrem⟩ := RawSession.Stamped.getRemainingSeconds_ok h.stamps now
  obtain ⟨⟨n, hn⟩, n', hn'⟩ := h.sized
  obtain ⟨ids, hids⟩ := h.named
  obtain ⟨own, hown, hrest⟩ := Option.bind_eq_some_iff.mp hids
  obtain ⟨more, hmore⟩ : ∃ more, servicesOfSession e.session = .ok more := by
    unfold servicesOfSession
    split at hrest
    · next hl =>
      obtain ⟨more, hmore, -⟩ := Option.map_eq_some_iff.mp hrest
      rw [if_pos hl, hmore]
      exact ⟨more, rfl⟩
    · next hl =>
      rw [if_neg hl]
      exact ⟨[], rfl⟩
  obtain ⟨values, hvalues, -⟩ := (refreshable_iff hids).mp h.refreshable
  obtain ⟨domains, hdomains, -⟩ := Option.bind_eq_some_iff.mp hvalues
  obtain ⟨l, hl, -⟩ := Option.bind_eq_some_iff.mp hdomains
  unfold RawEngine.getStatus RawSession.getSummary
  rw [hactive, hrem, hn, hn', hown, hmore, hl]
  exact ⟨_, rfl⟩

/-- What the report has looked at. -/
theorem of_getStatus_ok {bypassStatus : Json} {status : List (Text × Json)}
    (h : RawEngine.getStatus rt bypassStatus now e = .ok status) :
    (∃ rem, e.session.getRemainingSeconds rt now = .ok rem) ∧
    ((∃ n, e.session.sessionDomains.len? = some n) ∧ ∃ n, e.session.sessionServices.len? = some n) ∧
    ∃ ids, serviceIds? e.config e.session = some ids := by
  unfold RawEngine.getStatus at h
  obtain ⟨active, -, h⟩ := Except.bind_eq_ok.mp h
  obtain ⟨info, hinfo, h⟩ := Except.bind_eq_ok.mp h
  obtain ⟨own, hown, h⟩ := Except.bind_eq_ok.mp h
  obtain ⟨more, hmore, -⟩ := Except.bind_eq_ok.mp h
  unfold RawSession.getSummary at hinfo
  obtain ⟨rem, hrem, hinfo⟩ := Except.bind_eq_ok.mp hinfo
  obtain ⟨n, hn, hinfo⟩ := Except.bind_eq_ok.mp hinfo
  obtain ⟨n', hn', -⟩ := Except.bind_eq_ok.mp hinfo
  refine ⟨⟨rem, hrem⟩, ⟨⟨n, of_orTypeError hn⟩, n', of_orTypeError hn'⟩, ?_⟩
  unfold serviceIds?
  rw [of_orTypeError hown, Option.bind_some]
  unfold servicesOfSession at hmore
  split at hmore
  · next hl =>
    rw [if_pos hl, of_orTypeError hmore]
    exact ⟨_, rfl⟩
  · next hl =>
    rw [if_neg hl]
    exact ⟨_, rfl⟩

end RawEngine

end FocusGuard

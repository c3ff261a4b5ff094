import FocusGuard.Core.SessionStart
import FocusGuard.Dns.Matching

/-!
# What a session blocks

A request names domains and services, or it leaves the choice to the permanent policy. Everything
that it asks for gets into the session, and everything in the session is normalized once more when
its rule is installed. Only a domain whose last label is a number behind a line feed is lost there.

## Main results

* `Asked.mem_scope`: what is asked for is in the session.
* `blocks_iff`: a domain of the session is blocked unless it has a numeric tail.
-/

namespace FocusGuard

open PolicyEngine

/-- The values that an argument lists, where it is given. -/
def given (arg : Json) : List Json :=
  match loopOver arg with
  | .ok l => l
  | .error _ => []

/-- What a request asks to block, patterns with a star aside. -/
inductive Asked (rt : Runtime) (config : AppConfig) (domainsArg servicesArg : Json)
    (companions : Bool) : Text → Prop where
  | domain {raw : Json} {d : Text} : raw ∈ given domainsArg → normalizeDomain rt raw = .ok d →
      Asked rt config domainsArg servicesArg companions d
  | companion {raw : Json} {d c : Text} : raw ∈ given domainsArg →
      normalizeDomain rt raw = .ok d → companions = true → c ∈ getCompanionDomains rt d →
      Asked rt config domainsArg servicesArg companions c
  | service {id c : Text} {svc : ServiceDefinition} : .str id ∈ given servicesArg →
      getService rt id = some svc → c ∈ svc.allDomains → '*' ∉ c →
      Asked rt config domainsArg servicesArg companions c
  | permanent {p : Text} : domainsArg.truthy = false → servicesArg.truthy = false →
      p ∈ config.permanentDomains → Asked rt config domainsArg servicesArg companions p
  | permanentService {id c : Text} {svc : ServiceDefinition} : domainsArg.truthy = false →
      servicesArg.truthy = false → id ∈ config.permanentServices → getService rt id = some svc →
      c ∈ svc.allDomains → '*' ∉ c → Asked rt config domainsArg servicesArg companions c

/-- The domain and every name under it are blocked, essential names aside. -/
def Blocks (rt : Runtime) (s : DomainSinkhole) (t : Text) : Prop :=
  ∀ q, Text.under (cleanDomain rt q) (cleanDomain rt t) = true →
    ¬ Essential (cleanDomain rt q) → (s.isBlocked rt q).1 = true

/-- No domain that is asked for by its name has a numeric last label behind a line feed. -/
structure NoNumericTail (rt : Runtime) (config : AppConfig) (domainsArg servicesArg : Json) :
    Prop where
  given : ∀ raw ∈ given domainsArg, ∀ d, normalizeDomain rt raw = .ok d → ¬ NumericTail d
  permanent : domainsArg.truthy = false → servicesArg.truthy = false →
    ∀ p ∈ config.permanentDomains, ¬ NumericTail p

variable {rt : Runtime} {config : AppConfig} {session : SessionState} {t : Text}

/-! ## From the request to the session -/

theorem mem_customDomains {companions : Bool} {args : List Json} {domains : List Text} {raw : Json}
    {d : Text} (h : customDomains rt companions args = .ok domains) (hraw : raw ∈ args)
    (hd : normalizeDomain rt raw = .ok d) :
    d ∈ domains ∧ (companions = true → ∀ c ∈ getCompanionDomains rt d, c ∈ domains) := by
  induction args generalizing domains with
  | nil => cases hraw
  | cons a args ih =>
    rw [customDomains] at h
    rcases List.mem_cons.mp hraw with rfl | hraw
    · simp only [hd] at h
      split at h
      · cases h
      · cases h
        refine ⟨by simp, fun hc c hm => ?_⟩
        simp [hc, hm]
    · split at h
      · exact ih h hraw
      · cases h
      · split at h
        · cases h
        · next l hl =>
          cases h
          obtain ⟨hmem, hcompanions⟩ := ih hl hraw
          exact ⟨List.mem_append_right _ hmem,
            fun hc c hm => List.mem_append_right _ (hcompanions hc c hm)⟩

theorem mem_customServices {args : List Json} {services : List ServiceDefinition} {id : Text}
    {svc : ServiceDefinition} (h : customServices rt args = .ok services)
    (hid : .str id ∈ args) (hsvc : getService rt id = some svc) : svc ∈ services := by
  induction args generalizing services with
  | nil => cases hid
  | cons a args ih =>
    rw [customServices] at h
    split at h
    · cases h
    · next found hf =>
      split at h
      · cases h
      · next l hl =>
        cases h
        rcases List.mem_cons.mp hid with rfl | hid
        · rw [lookupService, Except.ok.injEq] at hf
          rw [← hf, hsvc]
          simp
        · exact List.mem_append_right _ (ih hl hid)

theorem mem_getAllDomainsForServices {ids : List Text} {id c : Text} {svc : ServiceDefinition}
    (hid : id ∈ ids) (hsvc : getService rt id = some svc) (hc : c ∈ svc.allDomains) :
    c ∈ getAllDomainsForServices rt ids := by
  refine List.mem_flatMap.mpr ⟨id, hid, ?_⟩
  rw [hsvc]
  exact hc

theorem truthy_of_mem_given {arg raw : Json} (h : raw ∈ given arg) : arg.truthy = true := by
  unfold given loopOver at h
  grind

/-- What is asked for is in the session. -/
theorem Asked.mem_scope {domainsArg servicesArg : Json} {companions : Bool}
    {scope : List Text × List Text} (h : Asked rt config domainsArg servicesArg companions t)
    (hscope : sessionScope rt config domainsArg servicesArg companions = .ok scope) :
    t ∈ scope.1 := by
  obtain ⟨ls, services, ld, domains, hls, hs, hld, hd, rfl⟩ := sessionScope_eq_ok hscope
  have hdomains : given domainsArg = ld := by rw [given, hld]
  have hservices : given servicesArg = ls := by rw [given, hls]
  cases h with
  | domain hraw hn =>
    rw [if_neg (by simp [truthy_of_mem_given hraw])]
    exact List.mem_append_right _ (mem_customDomains hd (hdomains ▸ hraw) hn).1
  | companion hraw hn hc hm =>
    rw [if_neg (by simp [truthy_of_mem_given hraw])]
    exact List.mem_append_right _ ((mem_customDomains hd (hdomains ▸ hraw) hn).2 hc _ hm)
  | service hid hsvc hm hstar =>
    rw [if_neg (by simp [truthy_of_mem_given hid])]
    refine List.mem_append_left _ (List.mem_flatMap.mpr ⟨_, ?_, hm⟩)
    exact mem_customServices hs (hservices ▸ hid) hsvc
  | permanent hnd hns hp =>
    rw [if_pos (by simp [hnd, hns])]
    exact List.mem_append_left _ hp
  | permanentService hnd hns hid hsvc hm hstar =>
    rw [if_pos (by simp [hnd, hns])]
    exact List.mem_append_right _ (mem_getAllDomainsForServices hid hsvc hm)

/-- It is validated, and of the catalogues nothing has a numeric tail. -/
theorem Asked.validated {domainsArg servicesArg : Json} {companions : Bool}
    (hp : ∀ p ∈ config.permanentDomains, Validated p)
    (h : Asked rt config domainsArg servicesArg companions t) : Validated t ∧
      (NoNumericTail rt config domainsArg servicesArg → ¬ NumericTail t) := by
  cases h with
  | @domain raw d hraw hn =>
    refine ⟨?_, fun hno => hno.given _ hraw _ hn⟩
    cases raw with
    | str raw => exact validated_of_normalizeText hn
    | _ => cases hn
  | companion hraw hn hc hm => exact (getCompanionDomains_entry hm).imp_right fun h _ => h
  | service hid hsvc hm hstar =>
    exact ((serviceRegistry_entry _ (getService_mem hsvc) _ hm).domain hstar).imp_right fun h _ => h
  | permanent hnd hns hm => exact ⟨hp _ hm, fun hno => hno.permanent hnd hns _ hm⟩
  | permanentService hnd hns hid hsvc hm hstar =>
    exact ((serviceRegistry_entry _ (getService_mem hsvc) _ hm).domain hstar).imp_right fun h _ => h

/-! ## From the session to the rules -/

theorem Validated.chomp_chomp (h : Validated t) : chomp (chomp t) = chomp t := by
  apply chomp_of_not
  intro hlast
  obtain ⟨-, c, hc, hend⟩ := h.ends
  rw [hlast, Option.mem_some_iff] at hc
  rw [← hc] at hend
  revert hend
  decide

/-- A numeric last label is also that of every name above. -/
theorem NumericTail.of_under {m : Text} (h : NumericTail t)
    (hunder : Text.under (chomp t) (chomp m) = true) : NumericTail m := by
  obtain ⟨label, hl, hdigits⟩ := h
  obtain ⟨front, hfront⟩ := (Text.under_iff_suffix _ _).mp hunder
  have hne : labelsOf (chomp m) ≠ [] := List.splitOn_ne_nil _ _
  have hlast : (labelsOf (chomp t)).getLast? = (labelsOf (chomp m)).getLast? := by
    rw [labelsOf, ← hfront]
    exact List.getLast?_append_of_ne_nil _ hne
  exact ⟨label, hlast ▸ hl, hdigits⟩

theorem NumericTail.not_essential (h : NumericTail t) : ¬ Essential (chomp t) := by
  rintro ⟨name, hm, hunder⟩
  have hnames : ∀ e ∈ essentialSystemDomains, chomp e = e ∧ ¬ NumericTail e := by decide
  obtain ⟨hchomp, hnot⟩ := hnames name hm
  rw [← hchomp] at hunder
  exact hnot (h.of_under hunder)

/-- The list whose rules are in force. -/
def inForceList (rt : Runtime) (config : AppConfig) (session : SessionState) : List Text :=
  (if config.blockDoh then dohBootstrapDomains else []) ++
    getAllActiveBlockedDomains rt config session

theorem inForceList_plain (hp : ∀ p ∈ config.permanentDomains, Plain p)
    (hs : ∀ d ∈ session.sessionDomains, Plain d) : ∀ d ∈ inForceList rt config session, Plain d := by
  intro d hd
  rcases List.mem_append.mp hd with hd | hd
  · split at hd
    · exact dohBootstrapDomains_plain d hd
    · cases hd
  · rcases mem_getAllActiveBlockedDomains.mp hd with hd | hd
    · exact (permanentlyBlocked_cases hd).elim (hp d) id
    · unfold sessionBlocked at hd
      split at hd
      · exact (List.mem_append.mp hd).elim (hs d) getAllDomainsForServices_plain
      · cases hd

/-- A validated entry whose last label is no number is blocked, whatever else is listed. -/
theorem blocks_of_mem {s : DomainSinkhole} {l : List Text} (hmode : s.allowlistMode = false)
    (htrees : s.blockedTrees = rulesOf rt l) (hlower : LowerLaws rt) (hvalid : Validated t)
    (hnum : ¬ NumericTail t) (hm : t ∈ l) : Blocks rt s t := by
  intro q hunder hess
  rw [hvalid.cleanDomain_eq] at hunder
  have hcovered : Covered s.blockedTrees (cleanDomain rt q) := by
    rw [htrees, covered_rulesOf]
    refine ⟨t, hm, chomp t, (renormalize hvalid).2 hnum, ?_⟩
    rwa [hvalid.chomp_chomp]
  have hne : cleanDomain rt q ≠ [] := by
    intro hnil
    rw [hnil, Text.under_iff_suffix] at hunder
    have htwo := hvalid.chomped.two
    have hle := hunder.length_le
    rw [labelsOf] at htwo
    simp at hle
    omega
  rw [isBlocked_of_clean (hlower.cleanDomain_cleanDomain q)]
  exact ⟨hne, hess, by simp [hmode, hcovered]⟩

section Rules

variable {s : DomainSinkhole} {l : List Text} (hmode : s.allowlistMode = false)
  (htrees : s.blockedTrees = rulesOf rt l) (hplain : ∀ d ∈ l, Plain d) (hvalid : Validated t)

include hmode htrees hplain hvalid

/-- The rule of a domain with a numeric tail is lost, and no other one stands in for it. -/
theorem isBlocked_of_numericTail (hnum : NumericTail t) : (s.isBlocked rt t).1 = false := by
  rw [Bool.eq_false_iff]
  intro hblocked
  have hclean : cleanDomain rt (chomp t) = chomp t := hvalid.clean_chomp.cleanDomain
  have htwice : cleanDomain rt (cleanDomain rt t) = cleanDomain rt t := by
    rw [hvalid.cleanDomain_eq, hclean]
  obtain ⟨-, -, hcovered⟩ := (isBlocked_of_clean htwice).mp hblocked
  rw [hmode, htrees, hvalid.cleanDomain_eq] at hcovered
  obtain ⟨entry, he, norm, hn, hunder⟩ := covered_rulesOf.mp (by simpa using hcovered)
  exact (hplain entry he).not_numericTail hn (hnum.of_under hunder)

/-- A validated entry among plain ones is blocked unless it has a numeric tail. -/
theorem blocks_iff (hlower : LowerLaws rt) (hm : t ∈ l) : Blocks rt s t ↔ ¬ NumericTail t := by
  constructor
  · intro hblocks hnum
    have hblocked : (s.isBlocked rt t).1 = true := by
      apply hblocks t (Text.under_refl _)
      rw [hvalid.cleanDomain_eq]
      exact hnum.not_essential
    rw [isBlocked_of_numericTail hmode htrees hplain hvalid hnum] at hblocked
    cases hblocked
  · exact fun hnum => blocks_of_mem hmode htrees hlower hvalid hnum hm

end Rules

end FocusGuard

import FocusGuard.Dns.Matching
import FocusGuard.Service.LockSafety

/-!
# The evaluator and the sinkhole

`evaluate_domain` takes the answer of `is_blocked`, a pair, as a condition. A pair is true,
so the evaluator reports every name as blocked, and agrees with the sinkhole exactly on the
names that the sinkhole does block.
-/

namespace FocusGuard

open PolicyEngine

variable {rt : Runtime} {name : Text}

/-- Dot-joined non-empty labels of letters, digits and hyphens, the last one not numeric. -/
structure IsDomainName (t : Text) : Prop where
  label_ne_nil : ∀ label ∈ labelsOf t, label ≠ []
  label_chars : ∀ label ∈ labelsOf t, ∀ c ∈ label,
    Text.isAsciiChar c = true ∧ (c.isAlphanum = true ∨ c = '-')
  not_numeric : ∀ label ∈ (labelsOf t).getLast?, ¬ label.all Char.isDigit = true

/-- The evaluator says `BLOCKED` exactly when the sinkhole blocks, and `ALLOWED` otherwise. -/
def DecidersAgree (rt : Runtime) (e : PolicyEngine) (name : Text) : Prop :=
  ((e.evaluateDomain rt name).1 = ("BLOCKED" : Text) ↔
    (e.sinkhole.isBlocked rt name).1 = true) ∧
  ((e.sinkhole.isBlocked rt name).1 = false →
    (e.evaluateDomain rt name).1 = ("ALLOWED" : Text))

/-! ## Names -/

theorem IsDomainName.chars (h : IsDomainName name) {c : Char} (hc : c ∈ name) :
    Text.isAsciiChar c = true ∧ (c.isAlphanum = true ∨ c = '-' ∨ c = '.') := by
  rw [← Text.join_splitOn '.' name] at hc
  rcases Text.mem_join hc with rfl | ⟨label, hl, hcl⟩
  · decide
  · obtain ⟨hascii, hchar | hchar⟩ := h.label_chars label hl c hcl
    · exact ⟨hascii, .inl hchar⟩
    · exact ⟨hascii, .inr (.inl hchar)⟩

theorem IsDomainName.not_blank (h : IsDomainName name) {c : Char} (hc : c ∈ name) (hdot : c ≠ '.') :
    ¬ isDomainBlank c = true := by
  obtain ⟨-, hchar⟩ := h.chars hc
  simp only [isDomainBlank, List.mem_cons, List.not_mem_nil, or_false, decide_eq_true_eq]
  rintro (rfl | rfl | rfl | rfl | rfl) <;> revert hchar hdot <;> decide

/-- A domain name neither begins nor ends with a dot, so that nothing is stripped. -/
theorem IsDomainName.cleanDomain_eq (h : IsDomainName name) :
    cleanDomain rt name = name.map Char.toLower := by
  have hdecoded : Decoded name := fun c hc => .inl (h.chars hc).1
  rw [cleanDomain_of_decoded hdecoded, Text.stripBy_eq_self]
  · intro c hc
    refine h.not_blank (List.mem_of_mem_head? hc) ?_
    rintro rfl
    obtain ⟨rest, rfl⟩ := List.head?_eq_some_iff.mp hc
    exact h.label_ne_nil [] (by simp [labelsOf, List.splitOn_cons_eq_if_modifyHead]) rfl
  · intro c hc
    refine h.not_blank (List.mem_of_getLast? hc) ?_
    rintro rfl
    obtain ⟨rest, rfl⟩ := List.getLast?_eq_some_iff.mp hc
    exact h.label_ne_nil [] (by simp [labelsOf, Text.splitOn_append_cons]) rfl

/-! ## The evaluator -/

/-- Every name is reported as blocked, whatever the policy. -/
theorem evaluateDomain_blocked (e : PolicyEngine) (name : Text) :
    (e.evaluateDomain rt name).1 = ("BLOCKED" : Text) := by
  unfold evaluateDomain
  simp only [tupleTruth, if_true]
  split
  · split
    · rfl
    · split <;> rfl
  · split <;> rfl

theorem decidersAgree_iff_isBlocked (e : PolicyEngine) :
    DecidersAgree rt e name ↔ (e.sinkhole.isBlocked rt name).1 = true := by
  unfold DecidersAgree
  rw [evaluateDomain_blocked]
  cases (e.sinkhole.isBlocked rt name).1 with
  | true => simp
  | false => simp

/-- In blocklist mode the two deciders agree on a domain name exactly when a rule in force
covers it and it is no essential system domain or under one. -/
theorem decidersAgree_iff {d : Daemon} (hd : Daemon.Reached rt d)
    (hmode : d.engine.config.allowlistMode = false) (hn : IsDomainName name) :
    DecidersAgree rt d.engine name ↔
      Covered d.engine.sinkhole.blockedTrees (name.map Char.toLower) ∧
        ¬ Essential (name.map Char.toLower) := by
  have hsink : d.engine.sinkhole.allowlistMode = false := hd.inv.allowlistMode.trans hmode
  have hdecoded : Decoded name := fun c hc => .inl (hn.chars hc).1
  have hne : name.map Char.toLower ≠ [] := by
    rintro hnil
    obtain rfl := List.map_eq_nil_iff.mp hnil
    exact hn.label_ne_nil [] (by simp [labelsOf]) rfl
  rw [decidersAgree_iff_isBlocked, isBlocked_iff hsink hdecoded, hn.cleanDomain_eq]
  simp only [ne_eq, hne, not_false_eq_true, true_and]
  exact and_comm

section Example

theorem isDomainName_debian : IsDomainName ("debian.org" : Text) :=
  ⟨by decide, by decide, by decide⟩

theorem essential_debian : Essential ("debian.org" : Text) := ⟨"debian.org", by decide, by decide⟩

theorem decidersAgree_iff_debian : ∃ d : Daemon, d.engine.session = morningSession ∧
    (DecidersAgree asciiRuntime d.engine "debian.org" ↔
      Covered d.engine.sinkhole.blockedTrees (("debian.org" : Text).map Char.toLower) ∧
        ¬ Essential (("debian.org" : Text).map Char.toLower)) := by
  obtain ⟨d, hd, hsession, hconfig⟩ := exists_morning_daemon asciiRuntime
  exact ⟨d, hsession, decidersAgree_iff hd (by rw [hconfig]) isDomainName_debian⟩

/-- An essential system domain is reported as blocked while the sinkhole lets it through. -/
theorem deciders_disagree_on_debian : ∃ d : Daemon, Daemon.Reached asciiRuntime d ∧
    d.engine.config.allowlistMode = false ∧
    (d.engine.evaluateDomain asciiRuntime "debian.org").1 = ("BLOCKED" : Text) ∧
    (d.engine.sinkhole.isBlocked asciiRuntime "debian.org").1 = false := by
  obtain ⟨d, hd, -, hconfig⟩ := exists_morning_daemon asciiRuntime
  have hmode : d.engine.config.allowlistMode = false := by rw [hconfig]
  have hsink : d.engine.sinkhole.allowlistMode = false := hd.inv.allowlistMode.trans hmode
  refine ⟨d, hd, hmode, evaluateDomain_blocked _ _, ?_⟩
  have hdecoded : Decoded ("debian.org" : Text) := fun c hc => .inl (isDomainName_debian.chars hc).1
  rw [← Bool.not_eq_true, isBlocked_iff hsink hdecoded, isDomainName_debian.cleanDomain_eq]
  rintro ⟨-, hess, -⟩
  exact hess essential_debian

end Example

end FocusGuard

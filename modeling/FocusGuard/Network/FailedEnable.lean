import FocusGuard.Network.FirewallRuns

/-!
# What a failed enabling leaves behind

Setting a chain up begins by emptying it and nothing is taken back, so a call that is stopped later
leaves what it has done by then. The tables are as before only where the chain could not be
created, where it was not emptied, or where the rules that got appended are just those it had held.

## Main results

* `setUpChain_stopped`: what a stopped set-up leaves of its table.
* `failed_enable`: when a call that returns `False` has changed nothing.
* `failed_enable_flushes`: a repeated enabling that fails and leaves the redirection empty.
-/

namespace FocusGuard

open ChainTable NetworkGatewayManager BypassResistanceManager

/-- The command cannot be started. -/
def TableEnv.Raises (env : TableEnv) (cmd : IptablesCommand) : Prop :=
  ∃ message, env.fault cmd = some (.raises message)

/-- The parent jumps to the chain. -/
def Jumps {builtin : Finset Text} (t : ChainTable Text Rule builtin) (parent chain : Text) : Prop :=
  ∃ l, t.lookup parent = some l ∧ jumpTo chain ∈ l

/-- The rules in front of the first one that cannot be appended. -/
def appended (env : TableEnv) (chain : Text) (rules : List Rule) : List Rule :=
  rules.takeWhile fun r => env.fault (.append chain r) = none

/-- Nothing stops the commands that set the chain up. -/
structure SetsUp {builtin : Finset Text} (env : TableEnv) (t : ChainTable Text Rule builtin)
    (chain parent : Text) (rules : List Rule) : Prop where
  new : ¬ env.Raises (.new chain)
  flush : ¬ env.Raises (.flush chain)
  created : t.lookup chain = none → env.fault (.new chain) = none
  append : ∀ r ∈ rules, env.fault (.append chain r) = none
  check : ¬ env.Raises (.check parent (jumpTo chain))
  jump : (env.fault (.check parent (jumpTo chain)) = none ∧ Jumps t parent chain) ∨
    env.fault (.insertFirst parent (jumpTo chain)) = none

/-- Commands that are stopped leave the table as it was. -/
inductive LeavesTable {builtin : Finset Text} (env : TableEnv) (t : ChainTable Text Rule builtin)
    (chain : Text) (rules : List Rule) : Prop where
  | unstarted : env.Raises (.new chain) → LeavesTable env t chain rules
  | uncreated : t.lookup chain = none → env.fault (.new chain) ≠ none →
      LeavesTable env t chain rules
  | unflushed {l : List Rule} : t.lookup chain = some l → env.Raises (.flush chain) →
      LeavesTable env t chain rules
  | unfilled {l : List Rule} : t.lookup chain = some l → env.fault (.flush chain) ≠ none →
      appended env chain rules = [] → LeavesTable env t chain rules
  | refilled : env.fault (.flush chain) = none →
      t.lookup chain = some (appended env chain rules) → LeavesTable env t chain rules

/-- Commands that go through find what they install. -/
structure Reinstalls {builtin : Finset Text} (env : TableEnv) (t : ChainTable Text Rule builtin)
    (chain parent : Text) (rules : List Rule) : Prop where
  flush : env.fault (.flush chain) = none
  content : t.lookup chain = some rules
  check : env.fault (.check parent (jumpTo chain)) = none
  jump : Jumps t parent chain

/-- A stopped redirection changes neither table: it is stopped in the first one and leaves that, or
it reinstalls that and leaves the second one. -/
def LeavesFirewall (env : HostEnv) (f : Firewall) (dnsPort : Int) : Prop :=
  (¬ SetsUp env.nat f.nat chainRedirect "PREROUTING" (redirectRules dnsPort) ∧
    LeavesTable env.nat f.nat chainRedirect (redirectRules dnsPort)) ∨
  (SetsUp env.nat f.nat chainRedirect "PREROUTING" (redirectRules dnsPort) ∧
    Reinstalls env.nat f.nat chainRedirect "PREROUTING" (redirectRules dnsPort) ∧
    LeavesTable env.filter f.filter chainFilter filterRules)

variable {rt : Runtime} {builtin : Finset Text} {t u : ChainTable Text Rule builtin}
  {env : TableEnv} {chain parent : Text} {l rules : List Rule} {cmd : IptablesCommand}

theorem set_eq_self_iff : t.set chain l = t ↔ t.lookup chain = some l := by
  constructor
  · intro h
    rw [← h, lookup_set]
  · exact set_lookup

/-! ## One command -/

theorem iptables_raises {check : Bool} (h : env.Raises cmd) :
    ∃ e, iptables env check cmd t = (.error e, t) := by
  obtain ⟨message, hm⟩ := h
  unfold iptables
  rw [hm]
  exact ⟨_, rfl⟩

/-- A command that may be refused goes on, with its effect or without. -/
theorem iptables_unchecked (h : ¬ env.Raises cmd) : ∃ done, iptables env false cmd t =
    (.ok done, if env.fault cmd = none then t.attempt Rule.target cmd else t) := by
  cases hf : env.fault cmd with
  | none => exact ⟨_, by rw [if_pos rfl, iptables_attempt hf]⟩
  | some fault =>
    cases fault with
    | raises message => exact absurd ⟨message, hf⟩ h
    | exits =>
      unfold iptables
      rw [hf]
      exact ⟨false, rfl⟩

/-- A command that must not be refused has its effect or stops the call. -/
theorem iptables_stops (h : env.fault cmd ≠ none ∨ t.run Rule.target cmd = none) :
    ∃ e, iptables env true cmd t = (.error e, t) := by
  unfold iptables
  cases hf : env.fault cmd with
  | none =>
    have hrun : t.run Rule.target cmd = none := h.resolve_left fun hne => hne hf
    simp only [hrun]
    exact ⟨_, rfl⟩
  | some fault =>
    cases fault with
    | raises message => exact ⟨_, rfl⟩
    | exits => exact ⟨_, rfl⟩

/-- A command that may be refused, and is. -/
theorem iptables_refused (h : ¬ env.Raises cmd)
    (hrun : env.fault cmd = none → t.run Rule.target cmd = none) :
    iptables env false cmd t = (.ok false, t) := by
  unfold iptables
  cases hf : env.fault cmd with
  | none =>
    simp only [hrun hf]
    rfl
  | some fault =>
    cases fault with
    | raises message => exact absurd ⟨message, hf⟩ h
    | exits => rfl

/-! ## The commands of a set-up -/

/-- The appends end with the first one that fails. -/
theorem appendRules_some (hl : t.lookup chain = some l) :
    ((∀ r ∈ rules, env.fault (.append chain r) = none) ∧
      appendRules env chain rules t = (.ok (), t.set chain (l ++ rules))) ∨
    ((∃ r ∈ rules, env.fault (.append chain r) ≠ none) ∧ ∃ e,
      appendRules env chain rules t = (.error e, t.set chain (l ++ appended env chain rules))) := by
  induction rules generalizing t l with
  | nil =>
    left
    rw [List.append_nil, set_lookup hl]
    exact ⟨by simp, rfl⟩
  | cons rule rules ih =>
    by_cases hf : env.fault (.append chain rule) = none
    · have hrun : t.run Rule.target (.append chain rule) = some (t.set chain (l ++ [rule])) := by
        simp [ChainTable.run, hl]
      have hcons : appended env chain (rule :: rules) = rule :: appended env chain rules := by
        simp [appended, hf]
      rw [appendRules, Exec.bind_of_ok (iptables_of_run hf hrun)]
      rcases ih (t := t.set chain (l ++ [rule])) lookup_set with
        ⟨hall, heq⟩ | ⟨⟨r, hr, hne⟩, e, heq⟩
      · left
        rw [heq, set_set, List.append_assoc]
        exact ⟨List.forall_mem_cons.mpr ⟨hf, hall⟩, rfl⟩
      · right
        rw [heq, set_set, List.append_assoc, hcons]
        exact ⟨⟨r, List.mem_cons_of_mem _ hr, hne⟩, e, rfl⟩
    · right
      obtain ⟨e, he⟩ : ∃ e, iptables env true (.append chain rule) t = (.error e, t) :=
        iptables_stops (.inl hf)
      have hnil : appended env chain (rule :: rules) = [] := by simp [appended, hf]
      rw [appendRules, Exec.bind_of_error he, hnil, List.append_nil, set_lookup hl]
      exact ⟨⟨rule, List.mem_cons_self, hf⟩, e, rfl⟩

theorem appendRules_none (hl : t.lookup chain = none) (hrules : rules ≠ []) :
    ∃ e, appendRules env chain rules t = (.error e, t) := by
  obtain ⟨rule, rest, rfl⟩ := List.exists_cons_of_ne_nil hrules
  have hrun : t.run Rule.target (.append chain rule) = none := by simp [ChainTable.run, hl]
  obtain ⟨e, he⟩ : ∃ e, iptables env true (.append chain rule) t = (.error e, t) :=
    iptables_stops (.inr hrun)
  exact ⟨e, by rw [appendRules, Exec.bind_of_error he]⟩

/-- The chain is jumped to in the end, or the call is stopped. -/
theorem ensureJump_cases (hparent : parent ∈ builtin) :
    (env.Raises (.check parent (jumpTo chain)) ∧
      ∃ e, ensureJump env chain parent t = (.error e, t)) ∨
    (env.fault (.check parent (jumpTo chain)) = none ∧ Jumps t parent chain ∧
      ensureJump env chain parent t = (.ok (), t)) ∨
    (¬ env.Raises (.check parent (jumpTo chain)) ∧
      ¬ (env.fault (.check parent (jumpTo chain)) = none ∧ Jumps t parent chain) ∧
      ((env.fault (.insertFirst parent (jumpTo chain)) = none ∧ ∃ l, t.lookup parent = some l ∧
          ensureJump env chain parent t = (.ok (), t.set parent (jumpTo chain :: l))) ∨
        (env.fault (.insertFirst parent (jumpTo chain)) ≠ none ∧
          ∃ e, ensureJump env chain parent t = (.error e, t)))) := by
  obtain ⟨l, hl⟩ := Option.isSome_iff_exists.mp (t.lookup_isSome_of_builtin hparent)
  have hjumps : Jumps t parent chain ↔ jumpTo chain ∈ l := by simp [Jumps, hl]
  have hinsert : t.run Rule.target (.insertFirst parent (jumpTo chain)) =
      some (t.set parent (jumpTo chain :: l)) := by simp [ChainTable.run, hl]
  by_cases hraises : env.Raises (.check parent (jumpTo chain))
  · obtain ⟨e, he⟩ : ∃ e, iptables env false (.check parent (jumpTo chain)) t = (.error e, t) :=
      iptables_raises hraises
    exact .inl ⟨hraises, e, by rw [ensureJump, Exec.bind_of_error he]⟩
  right
  by_cases hfound : env.fault (.check parent (jumpTo chain)) = none ∧ Jumps t parent chain
  · have hcheck : t.run Rule.target (.check parent (jumpTo chain)) = some t := by
      simp [ChainTable.run, hl, hjumps.mp hfound.2]
    refine .inl ⟨hfound.1, hfound.2, ?_⟩
    rw [ensureJump, Exec.bind_of_ok (iptables_of_run hfound.1 hcheck)]
    rfl
  · -- the check is refused, and the jump is inserted
    have hcheck : iptables env false (.check parent (jumpTo chain)) t = (.ok false, t) := by
      refine iptables_refused hraises fun hf => ?_
      have hnot : jumpTo chain ∉ l := fun hm => hfound ⟨hf, hjumps.mpr hm⟩
      simp [ChainTable.run, hl, hnot]
    refine .inr ⟨hraises, hfound, ?_⟩
    rw [ensureJump, Exec.bind_of_ok hcheck]
    by_cases hf : env.fault (.insertFirst parent (jumpTo chain)) = none
    · refine .inl ⟨hf, l, hl, ?_⟩
      exact Exec.bind_of_ok (iptables_of_run hf hinsert)
    · obtain ⟨e, he⟩ : ∃ e, iptables env true (.insertFirst parent (jumpTo chain)) t =
        (.error e, t) := iptables_stops (.inl hf)
      exact .inr ⟨hf, e, Exec.bind_of_error he⟩

/-- What the chain holds when the first rule is appended to it. -/
def Readied (env : TableEnv) (old : Option (List Rule)) (chain : Text) (k : List Rule) : Prop :=
  match old with
  | none => env.fault (.new chain) = none ∧ k = []
  | some l => k = if env.fault (.flush chain) = none then [] else l

/-- The first two commands leave the chain empty, as it was, or not there. -/
theorem setUpChain_readied (hn : ¬ env.Raises (.new chain)) (hf : ¬ env.Raises (.flush chain)) :
    (t.lookup chain = none ∧ env.fault (.new chain) ≠ none ∧
      setUpChain env chain parent rules t =
        (appendRules env chain rules >>= fun _ => ensureJump env chain parent) t) ∨
    ∃ k, Readied env (t.lookup chain) chain k ∧
      setUpChain env chain parent rules t =
        (appendRules env chain rules >>= fun _ => ensureJump env chain parent) (t.set chain k) := by
  obtain ⟨done, hnew⟩ : ∃ done, iptables env false (.new chain) t = (.ok done, _) :=
    iptables_unchecked hn
  generalize hu : (if env.fault (.new chain) = none then t.attempt Rule.target (.new chain)
    else t) = u at hnew
  obtain ⟨done', hflush⟩ : ∃ done', iptables env false (.flush chain) u = (.ok done', _) :=
    iptables_unchecked hf
  have hrun : setUpChain env chain parent rules t = _ :=
    (Exec.bind_of_ok hnew).trans (Exec.bind_of_ok hflush)
  rw [hrun]
  cases hl : t.lookup chain with
  | none =>
    by_cases hfault : env.fault (.new chain) = none
    · right
      refine ⟨[], ⟨hfault, rfl⟩, ?_⟩
      rw [if_pos hfault, attempt_new, hl] at hu
      subst hu
      simp [attempt, ChainTable.run]
    · left
      rw [if_neg hfault] at hu
      subst hu
      simp [attempt, ChainTable.run, hl, hfault]
  | some l =>
    right
    have hsame : u = t := by
      rw [← hu, attempt_new, hl]
      split
      · exact set_lookup hl
      · rfl
    refine ⟨_, rfl, ?_⟩
    rw [hsame]
    split
    · simp [attempt, ChainTable.run, hl]
    · rw [set_lookup hl]

/-- Put together, the rules in the chain are those it held before. -/
theorem leavesTable_iff (hn : ¬ env.Raises (.new chain)) (hf : ¬ env.Raises (.flush chain))
    {k : List Rule} (hk : Readied env (t.lookup chain) chain k) :
    t.set chain (k ++ appended env chain rules) = t ↔ LeavesTable env t chain rules := by
  rw [set_eq_self_iff]
  unfold Readied at hk
  constructor
  · intro h
    rw [h] at hk
    dsimp only at hk
    by_cases hflush : env.fault (.flush chain) = none
    · rw [if_pos hflush] at hk
      rw [hk, List.nil_append] at h
      exact .refilled hflush h
    · rw [if_neg hflush] at hk
      exact .unfilled h hflush (List.self_eq_append_right.mp hk)
  · intro h
    cases h with
    | unstarted hr => exact absurd hr hn
    | uncreated hl hne =>
      rw [hl] at hk
      exact absurd hk.1 hne
    | unflushed hl hr => exact absurd hr hf
    | unfilled hl hflush hnil =>
      rw [hl] at hk ⊢
      dsimp only at hk
      rw [hk, if_neg hflush, hnil, List.append_nil]
    | refilled hflush hl =>
      rw [hl] at hk ⊢
      dsimp only at hk
      rw [hk, if_pos hflush, List.nil_append]

/-- Appended as a whole, the rules are those that were there exactly if the chain was emptied. -/
theorem refilled_iff {k : List Rule} (hk : Readied env (t.lookup chain) chain k)
    (hrules : rules ≠ []) : t.set chain (k ++ rules) = t ↔
      env.fault (.flush chain) = none ∧ t.lookup chain = some rules := by
  rw [set_eq_self_iff]
  unfold Readied at hk
  constructor
  · intro h
    rw [h] at hk
    dsimp only at hk
    by_cases hflush : env.fault (.flush chain) = none
    · rw [if_pos hflush] at hk
      rw [hk, List.nil_append] at h
      exact ⟨hflush, h⟩
    · rw [if_neg hflush] at hk
      exact absurd (List.self_eq_append_right.mp hk) hrules
  · rintro ⟨hflush, hl⟩
    rw [hl] at hk ⊢
    dsimp only at hk
    rw [hk, if_pos hflush, List.nil_append]

/-- Where the flush raises, only the first command has been run. -/
theorem setUpChain_flush_raises (hn : ¬ env.Raises (.new chain)) (hf : env.Raises (.flush chain)) :
    ∃ e t', setUpChain env chain parent rules t = (.error e, t') ∧
      (t' = t ↔ LeavesTable env t chain rules) := by
  obtain ⟨done, hnew⟩ : ∃ done, iptables env false (.new chain) t = (.ok done, _) :=
    iptables_unchecked hn
  obtain ⟨e, he⟩ : ∃ e, iptables env false (.flush chain) (if env.fault (.new chain) = none then
      t.attempt Rule.target (.new chain) else t) = (.error e, _) := iptables_raises hf
  have hrun : setUpChain env chain parent rules t = (.error e, _) :=
    (Exec.bind_of_ok hnew).trans (Exec.bind_of_error he)
  refine ⟨e, _, hrun, ?_⟩
  cases hl : t.lookup chain with
  | none =>
    by_cases hfault : env.fault (.new chain) = none
    · rw [if_pos hfault, attempt_new, set_eq_self_iff, hl]
      refine ⟨nofun, fun h => ?_⟩
      cases h with
      | unstarted hr => exact absurd hr hn
      | uncreated _ hne => exact absurd hfault hne
      | unflushed hl' _ => cases hl.symm.trans hl'
      | unfilled hl' _ _ => cases hl.symm.trans hl'
      | refilled _ hl' => cases hl.symm.trans hl'
    · rw [if_neg hfault]
      exact ⟨fun _ => .uncreated hl hfault, fun _ => rfl⟩
  | some l =>
    refine ⟨fun _ => .unflushed hl hf, fun _ => ?_⟩
    rw [attempt_new, hl, Option.getD_some, set_lookup hl, ite_self]

/-- With all the rules in the chain it is left to the jump whether the call is stopped. -/
theorem ensureJump_filled {k : List Rule} (hparent : parent ∈ builtin) (hne : chain ≠ parent)
    (hrules : rules ≠ []) (hn : ¬ env.Raises (.new chain)) (hf : ¬ env.Raises (.flush chain))
    (hk : Readied env (t.lookup chain) chain k)
    (hall : ∀ r ∈ rules, env.fault (.append chain r) = none) :
    (SetsUp env t chain parent rules ∧ ∃ t',
      ensureJump env chain parent (t.set chain (k ++ rules)) = (.ok (), t') ∧
        (t' = t ↔ Reinstalls env t chain parent rules)) ∨
    (¬ SetsUp env t chain parent rules ∧ ∃ e t',
      ensureJump env chain parent (t.set chain (k ++ rules)) = (.error e, t') ∧
        (t' = t ↔ LeavesTable env t chain rules)) := by
  have happended : appended env chain rules = rules := by
    rw [appended, List.takeWhile_eq_self_iff]
    simpa using hall
  have hleaves : t.set chain (k ++ rules) = t ↔ LeavesTable env t chain rules := by
    rw [← leavesTable_iff hn hf hk, happended]
  have hcreated : t.lookup chain = none → env.fault (.new chain) = none := by
    intro hl
    rw [hl] at hk
    exact hk.1
  have hkept : ∀ {b : Text}, b ≠ chain → (t.set chain (k ++ rules)).lookup b = t.lookup b :=
    fun hb => lookup_set_of_ne hb
  have hjumps : Jumps (t.set chain (k ++ rules)) parent chain ↔ Jumps t parent chain := by
    rw [Jumps, Jumps, hkept hne.symm]
  rcases ensureJump_cases (t := t.set chain (k ++ rules)) hparent with ⟨hraises, e, he⟩ |
    ⟨hcheck, hfound, hdone⟩ | ⟨hraises, hnot, ⟨hinsert, l, hl, hdone⟩ | ⟨hinsert, e, he⟩⟩
  · exact .inr ⟨fun h => h.check hraises, e, _, he, hleaves⟩
  · left
    refine ⟨⟨hn, hf, hcreated, hall, ?_, .inl ⟨hcheck, hjumps.mp hfound⟩⟩, _, hdone, ?_⟩
    · rintro ⟨message, hm⟩
      rw [hcheck] at hm
      cases hm
    · rw [refilled_iff hk hrules]
      exact ⟨fun h => ⟨h.1, h.2, hcheck, hjumps.mp hfound⟩, fun h => ⟨h.flush, h.content⟩⟩
  · left
    refine ⟨⟨hn, hf, hcreated, hall, hraises, .inr hinsert⟩, _, hdone, fun heq => ?_, fun h => ?_⟩
    · -- the parent has one more jump than before
      rw [hkept hne.symm] at hl
      have hparentRules := congrArg (lookup · parent) heq
      simp only [lookup_set, hl, Option.some.injEq] at hparentRules
      exact absurd (congrArg List.length hparentRules) (by simp)
    · exact absurd ⟨h.check, hjumps.mpr h.jump⟩ hnot
  · refine .inr ⟨fun h => ?_, e, _, he, hleaves⟩
    rw [hjumps] at hnot
    exact h.jump.elim hnot hinsert

/-- A set-up that goes through leaves the table where it installs what was there; one that is
stopped leaves it where the conditions of `LeavesTable` hold. -/
theorem setUpChain_cases (env : TableEnv) (chain parent : Text) (rules : List Rule)
    (hparent : parent ∈ builtin) (hne : chain ≠ parent) (hrules : rules ≠ []) :
    (SetsUp env t chain parent rules ∧ ∃ t', setUpChain env chain parent rules t = (.ok (), t') ∧
      (t' = t ↔ Reinstalls env t chain parent rules)) ∨
    (¬ SetsUp env t chain parent rules ∧ ∃ e t',
      setUpChain env chain parent rules t = (.error e, t') ∧
        (t' = t ↔ LeavesTable env t chain rules)) := by
  by_cases hn : env.Raises (.new chain)
  · obtain ⟨e, he⟩ : ∃ e, iptables env false (.new chain) t = (.error e, t) := iptables_raises hn
    refine .inr ⟨fun h => h.new hn, e, t, Exec.bind_of_error he, ?_⟩
    exact ⟨fun _ => .unstarted hn, fun _ => rfl⟩
  by_cases hf : env.Raises (.flush chain)
  · exact .inr ⟨fun h => h.flush hf, setUpChain_flush_raises hn hf⟩
  rcases setUpChain_readied hn hf with ⟨hl, hfault, hrun⟩ | ⟨k, hk, hrun⟩
  · obtain ⟨e, he⟩ : ∃ e, appendRules env chain rules t = (.error e, t) :=
      appendRules_none hl hrules
    refine .inr ⟨fun h => hfault (h.created hl), e, t, ?_, ?_⟩
    · rw [hrun, Exec.bind_of_error he]
    · exact ⟨fun _ => .uncreated hl hfault, fun _ => rfl⟩
  rcases appendRules_some lookup_set with ⟨hall, happend⟩ | ⟨⟨r, hr, hfault⟩, e, happend⟩
  · rw [hrun, Exec.bind_of_ok happend, set_set]
    exact ensureJump_filled hparent hne hrules hn hf hk hall
  · refine .inr ⟨fun h => hfault (h.append r hr), e, _, ?_, leavesTable_iff hn hf hk⟩
    rw [hrun, Exec.bind_of_error happend, set_set]

/-! ## Calls that return `False` -/

theorem reporting_false {success message : Text} {failure : RunError → Except PyError Text}
    {m : Exec RunError Router Unit} {r r' : Router}
    (h : reporting success failure m r = (.ok (false, message), r')) :
    ∃ e, m r = (.error e, r') := by
  unfold reporting at h
  rcases hm : m r with ⟨e | u, r₁⟩
  · rw [hm] at h
    dsimp only at h
    split at h
    · cases h
      exact ⟨e, rfl⟩
    · cases h
  · rw [hm] at h
    cases h

theorem Firewall.eq_iff {f : Firewall} {n : ChainTable Text Rule natChains}
    {k : ChainTable Text Rule filterChains} :
    (⟨n, k⟩ : Firewall) = f ↔ n = f.nat ∧ k = f.filter := by
  cases f
  simp

theorem Firewall.ne_of_lookup {f f' : Firewall} {l l' : List Rule} (h : f.nat.lookup chain = some l)
    (h' : f'.nat.lookup chain = some l') (hne : l ≠ l') : f ≠ f' := by
  rintro rfl
  exact hne (Option.some.inj (h.symm.trans h'))

theorem redirectRules_ne_nil (dnsPort : Int) : redirectRules dnsPort ≠ [] := by
  simp [redirectRules]

/-- What a redirection that returns `False` has kept. -/
theorem enableTransparentRedirection_false {henv : HostEnv} {m : NetworkGatewayManager}
    {message : Text} {r r' : Router} (hm : m.hasIptables = true)
    (h : m.enableTransparentRedirection rt henv r = (.ok (false, message), r')) :
    r'.firewall = r.firewall ↔ LeavesFirewall henv r.firewall m.dnsPort := by
  unfold enableTransparentRedirection at h
  rw [if_neg (not_not.mpr hm)] at h
  obtain ⟨e, he⟩ := reporting_false h
  obtain ⟨done, forward, hforward⟩ := enableIpForwarding_eq henv r
  rw [Exec.bind_of_ok hforward] at he
  have hcases := setUpChain_cases (t := r.firewall.nat) henv.nat chainRedirect "PREROUTING"
    (redirectRules m.dnsPort) (by decide) (by decide) (redirectRules_ne_nil _)
  unfold LeavesFirewall
  rcases hcases with ⟨hsets, n, hrun, hn⟩ | ⟨hsets, x, n, hrun, hn⟩
  · have hnat : onNat (setUpChain henv.nat chainRedirect "PREROUTING" (redirectRules m.dnsPort))
        ⟨r.firewall, forward⟩ = (.ok (), ⟨⟨n, r.firewall.filter⟩, forward⟩) := onNat_eq hrun
    have hfilter := setUpChain_cases (t := r.firewall.filter) henv.filter chainFilter "FORWARD"
      filterRules (by decide) (by decide) (by simp [filterRules])
    rcases hfilter with ⟨-, k, hrun', -⟩ | ⟨-, x, k, hrun', hk⟩
    · have hdone : onFilter (setUpChain henv.filter chainFilter "FORWARD" filterRules)
          ⟨⟨n, r.firewall.filter⟩, forward⟩ = (.ok (), ⟨⟨n, k⟩, forward⟩) := onFilter_eq hrun'
      cases he.symm.trans ((Exec.bind_of_ok hnat).trans hdone)
    · have hstopped : onFilter (setUpChain henv.filter chainFilter "FORWARD" filterRules)
          ⟨⟨n, r.firewall.filter⟩, forward⟩ = (.error x, ⟨⟨n, k⟩, forward⟩) := onFilter_eq hrun'
      have heq := he.symm.trans ((Exec.bind_of_ok hnat).trans hstopped)
      obtain rfl : r' = ⟨⟨n, k⟩, forward⟩ := (Prod.mk.inj heq).2
      rw [Firewall.eq_iff, hn, hk]
      exact ⟨fun hboth => .inr ⟨hsets, hboth⟩,
        fun hor => (hor.resolve_left fun hleft => hleft.1 hsets).2⟩
  · have hstopped : onNat (setUpChain henv.nat chainRedirect "PREROUTING"
        (redirectRules m.dnsPort)) ⟨r.firewall, forward⟩ =
          (.error x, ⟨⟨n, r.firewall.filter⟩, forward⟩) := onNat_eq hrun
    have heq := he.symm.trans (Exec.bind_of_error hstopped)
    obtain rfl : r' = ⟨⟨n, r.firewall.filter⟩, forward⟩ := (Prod.mk.inj heq).2
    rw [Firewall.eq_iff, hn, and_iff_left rfl]
    exact ⟨fun hleaves => .inl ⟨hsets, hleaves⟩,
      fun hor => (hor.resolve_right fun hright => hsets hright.1).2⟩

/-- What restrictions that return `False` have kept. -/
theorem enableTunnelRestrictions_false {henv : HostEnv} {m : BypassResistanceManager}
    {message : Text} {r r' : Router} (hm : m.hasIptables = true)
    (h : m.enableTunnelRestrictions henv r = (.ok (false, message), r')) :
    r'.firewall = r.firewall ↔
      LeavesTable henv.filter r.firewall.filter chainBypass bypassRules := by
  unfold enableTunnelRestrictions at h
  rw [if_neg (not_not.mpr hm)] at h
  obtain ⟨e, he⟩ := reporting_false h
  have hcases := setUpChain_cases (t := r.firewall.filter) henv.filter chainBypass "FORWARD"
    bypassRules (by decide) (by decide) (by simp [bypassRules, tunnelPorts])
  rcases hcases with ⟨-, k, hrun, -⟩ | ⟨-, x, k, hrun, hk⟩
  · cases he.symm.trans (onFilter_eq hrun)
  · obtain rfl := (Prod.mk.inj (he.symm.trans (onFilter_eq hrun))).2
    rw [Firewall.eq_iff, hk, and_iff_right rfl]

/-- A call that returns `False` has left the firewall as it was exactly if `iptables` is missing or
its commands were stopped before they changed anything. -/
theorem failed_enable (rt : Runtime) (henv : HostEnv) (r : Router) :
    (∀ (m : NetworkGatewayManager) (message : Text) (r' : Router),
      m.enableTransparentRedirection rt henv r = (.ok (false, message), r') →
        (r'.firewall = r.firewall ↔
          m.hasIptables = false ∨ LeavesFirewall henv r.firewall m.dnsPort)) ∧
    ∀ (m : BypassResistanceManager) (message : Text) (r' : Router),
      m.enableTunnelRestrictions henv r = (.ok (false, message), r') →
        (r'.firewall = r.firewall ↔ m.hasIptables = false ∨
          LeavesTable henv.filter r.firewall.filter chainBypass bypassRules) := by
  refine ⟨fun m message r' h => ?_, fun m message r' h => ?_⟩
  · cases hm : m.hasIptables with
    | false =>
      unfold enableTransparentRedirection at h
      rw [if_pos (by simp [hm])] at h
      cases h
      exact ⟨fun _ => .inl rfl, fun _ => rfl⟩
    | true => simpa using enableTransparentRedirection_false hm h
  · cases hm : m.hasIptables with
    | false =>
      unfold enableTunnelRestrictions at h
      rw [if_pos (by simp [hm])] at h
      cases h
      exact ⟨fun _ => .inl rfl, fun _ => rfl⟩
    | true => simpa using enableTunnelRestrictions_false hm h

section Example

/-- A host on which every command is refused. -/
def unprivilegedHost : HostEnv where
  nat := ⟨fun _ => some .exits, fun _ => some "you must be root", fun _ => []⟩
  filter := ⟨fun _ => some .exits, fun _ => some "you must be root", fun _ => []⟩
  canForward := false

/-- Both calls return `False` there, and the firewall is as it was. -/
theorem failed_enable_unprivileged :
    (∃ message r', NetworkGatewayManager.enableTransparentRedirection asciiRuntime unprivilegedHost
        ⟨53, true⟩ ⟨containerHost, false⟩ = (.ok (false, message), r') ∧
      r'.firewall = containerHost) ∧
    ∃ message r', BypassResistanceManager.enableTunnelRestrictions unprivilegedHost ⟨true⟩
        ⟨containerHost, false⟩ = (.ok (false, message), r') ∧ r'.firewall = containerHost := by
  have hrefused : ∀ cmd : IptablesCommand, unprivilegedHost.nat.fault cmd ≠ none ∧
      unprivilegedHost.filter.fault cmd ≠ none := fun cmd => ⟨nofun, nofun⟩
  have hruns : (∃ message r', NetworkGatewayManager.enableTransparentRedirection asciiRuntime
      unprivilegedHost ⟨53, true⟩ ⟨containerHost, false⟩ = (.ok (false, message), r')) ∧
      ∃ message r', BypassResistanceManager.enableTunnelRestrictions unprivilegedHost ⟨true⟩
        ⟨containerHost, false⟩ = (.ok (false, message), r') := ⟨⟨_, _, rfl⟩, _, _, rfl⟩
  obtain ⟨⟨message, r', hrun⟩, message', r'', hrun'⟩ := hruns
  have hkept := failed_enable asciiRuntime unprivilegedHost ⟨containerHost, false⟩
  refine ⟨⟨message, r', hrun, (hkept.1 _ _ _ hrun).mpr (.inr (.inl ⟨?_, ?_⟩))⟩,
    message', r'', hrun', (hkept.2 _ _ _ hrun').mpr (.inr ?_)⟩
  · exact fun hsets => (hrefused _).1 (hsets.append _ List.mem_cons_self)
  · exact .uncreated (by decide +kernel) (hrefused _).1
  · exact .uncreated (by decide +kernel) (hrefused _).2

theorem isTransparentRedirectionActive_of_lookup {m : NetworkGatewayManager} {r : Router}
    (hm : m.hasIptables = true) (h : r.firewall.nat.lookup chainRedirect = some l) :
    isTransparentRedirectionActive m none r = true := by
  simp [isTransparentRedirectionActive, lists, hm, h]

def returnsFalse : Except PyError (Bool × Text) → Bool
  | .ok (false, _) => true
  | _ => false

theorem eq_of_returnsFalse {call : Except PyError (Bool × Text) × Router}
    (h : returnsFalse call.1 = true) : ∃ message, call = (.ok (false, message), call.2) := by
  obtain ⟨e | ⟨_ | _, message⟩, r'⟩ := call
  · cases h
  · exact ⟨message, rfl⟩
  · cases h

/-- A host on which the redirection has been enabled. -/
def redirectingHost : Router :=
  (NetworkGatewayManager.enableTransparentRedirection asciiRuntime workingHost ⟨53, true⟩
    ⟨containerHost, false⟩).2

/-- Another program takes the lock when the first rule is appended. -/
def busyHost : HostEnv where
  nat :=
    { fault := fun cmd => if cmd = .append chainRedirect (redirectRule "udp" 53) then some .exits
        else none
      stderr := fun _ => some "Another app is currently holding the xtables lock"
      failed := fun _ => [] }
  filter := workingHost.filter
  canForward := true

/-- Enabling it again returns `False` there and leaves the redirection without its rules, while it
is still said to be active. -/
theorem failed_enable_flushes : ∃ message r',
    NetworkGatewayManager.enableTransparentRedirection asciiRuntime busyHost ⟨53, true⟩
        redirectingHost = (.ok (false, message), r') ∧
      redirectingHost.firewall.nat.lookup chainRedirect = some (redirectRules 53) ∧
      r'.firewall.nat.lookup chainRedirect = some [] ∧
      r'.firewall ≠ redirectingHost.firewall ∧
      isTransparentRedirectionActive ⟨53, true⟩ none r' = true := by
  have hbefore : redirectingHost.firewall.nat.lookup chainRedirect = some (redirectRules 53) := by
    decide +kernel
  have hafter : (NetworkGatewayManager.enableTransparentRedirection asciiRuntime busyHost ⟨53, true⟩
      redirectingHost).2.firewall.nat.lookup chainRedirect = some [] := by
    decide +kernel
  have hfalse : returnsFalse (NetworkGatewayManager.enableTransparentRedirection asciiRuntime
      busyHost ⟨53, true⟩ redirectingHost).1 = true := by
    decide +kernel
  obtain ⟨message, hfalse⟩ := eq_of_returnsFalse hfalse
  refine ⟨message, _, hfalse, hbefore, hafter, ?_, ?_⟩
  · exact Firewall.ne_of_lookup hafter hbefore (redirectRules_ne_nil 53).symm
  · exact isTransparentRedirectionActive_of_lookup rfl hafter

end Example

end FocusGuard

import FocusGuard.Lib.CheckedInsertion
import FocusGuard.Network.FailedEnable

/-!
# Enabling the gateway in several processes

The commands of `enable_transparent_redirection` when other processes, the daemon or the command
line, enable it at the same time. Each command is atomic, but what a process makes of it is not: the
check for a jump and its insertion are two commands.

## Main results

* `enableScript_alone`: without other processes the commands do what the call does.
* `detach_eq_iff`: a table is restored if the chain is jumped to at most once.
* `concurrent_enable_reversible_iff`: when one disabling undoes the enablings of several processes.
-/

namespace FocusGuard

open ChainTable NetworkGatewayManager

/-- A command of a gateway process. -/
inductive GatewayCommand where
  /-- `enable_ip_forwarding()`. -/
  | ipForward
  | nat (cmd : IptablesCommand)
  | filter (cmd : IptablesCommand)
  deriving DecidableEq

/-- Whether a command succeeds, and the router after it. -/
def GatewayCommand.act (canForward : Bool) : GatewayCommand → Router → Bool × Router
  | .ipForward, r => (canForward, { r with ipForward := canForward || r.ipForward })
  | .nat cmd, r => ((r.firewall.nat.run Rule.target cmd).isSome,
      { r with firewall.nat := r.firewall.nat.attempt Rule.target cmd })
  | .filter cmd, r => ((r.firewall.filter.run Rule.target cmd).isSome,
      { r with firewall.filter := r.firewall.filter.attempt Rule.target cmd })

/-! ## Scripts -/

section Scripts

variable (on : IptablesCommand → GatewayCommand) (chain parent : Text)

/-- The appends run with `check=True`: the call ends with the first one that fails. -/
def appendScript (k : Script GatewayCommand) : List Rule → Script GatewayCommand
  | [] => k
  | rule :: rest =>
    .run (on (.append chain rule)) fun ok => if ok then appendScript k rest else .done

/-- The check for a jump, and the insertion of a jump that is not there. -/
def ensureScript (k : Script GatewayCommand) : Script GatewayCommand :=
  .run (on (.check parent (jumpTo chain))) fun present =>
    if present then k
    else .run (on (.insertFirst parent (jumpTo chain))) fun ok => if ok then k else .done

/-- A chain is set up, and then `k` runs. -/
def setUpScript (rules : List Rule) (k : Script GatewayCommand) : Script GatewayCommand :=
  .run (on (.new chain)) fun _ =>
    .run (on (.flush chain)) fun _ =>
      appendScript on chain (ensureScript on chain parent k) rules

end Scripts

/-- The commands of `enable_transparent_redirection()`. -/
def enableScript (m : NetworkGatewayManager) : Script GatewayCommand :=
  if ¬ m.hasIptables then .done
  else
    .run .ipForward fun _ =>
      setUpScript .nat chainRedirect "PREROUTING" (redirectRules m.dnsPort)
        (setUpScript .filter chainFilter "FORWARD" filterRules .done)

/-- The processes that are about to enable the redirection. -/
def enabling {P : Type} (r : Router) (managers : P → NetworkGatewayManager) :
    Race P GatewayCommand Router :=
  ⟨r, fun p => enableScript (managers p)⟩

/-! ## Without other processes -/

/-- The commands on one table of the router. -/
structure OnTable (canForward : Bool) (builtin : Finset Text) where
  on : IptablesCommand → GatewayCommand
  get : Router → ChainTable Text Rule builtin
  put : ChainTable Text Rule builtin → Router → Router
  act_on : ∀ cmd r, (on cmd).act canForward r =
    (((get r).run Rule.target cmd).isSome, put ((get r).attempt Rule.target cmd) r)
  get_put : ∀ t r, get (put t r) = t
  put_get : ∀ r, put (get r) r = r
  put_put : ∀ t t' r, put t (put t' r) = put t r

def onNatTable (canForward : Bool) : OnTable canForward natChains where
  on := .nat
  get r := r.firewall.nat
  put t r := { r with firewall.nat := t }
  act_on _ _ := rfl
  get_put _ _ := rfl
  put_get _ := rfl
  put_put _ _ _ := rfl

def onFilterTable (canForward : Bool) : OnTable canForward filterChains where
  on := .filter
  get r := r.firewall.filter
  put t r := { r with firewall.filter := t }
  act_on _ _ := rfl
  get_put _ _ := rfl
  put_get _ := rfl
  put_put _ _ _ := rfl

section Alone

variable {canForward : Bool} {builtin : Finset Text} (o : OnTable canForward builtin)
  {chain parent : Text} {l rules : List Rule} {k : Script GatewayCommand} {r : Router}

theorem alone_run (cmd : IptablesCommand) (next : Bool → Script GatewayCommand) :
    (Script.run (o.on cmd) next).alone (GatewayCommand.act canForward) r =
      (next ((o.get r).run Rule.target cmd).isSome).alone (GatewayCommand.act canForward)
        (o.put ((o.get r).attempt Rule.target cmd) r) := by
  rw [Script.alone, o.act_on]

theorem appendScript_alone (hl : (o.get r).lookup chain = some l) :
    (appendScript o.on chain k rules).alone (GatewayCommand.act canForward) r =
      k.alone (GatewayCommand.act canForward) (o.put ((o.get r).set chain (l ++ rules)) r) := by
  induction rules generalizing r l with
  | nil =>
    rw [List.append_nil, set_lookup hl, o.put_get]
    rfl
  | cons rule rules ih =>
    have hrun : (o.get r).run Rule.target (.append chain rule) =
        some ((o.get r).set chain (l ++ [rule])) := by simp [ChainTable.run, hl]
    rw [appendScript, alone_run, attempt, hrun]
    refine (ih (l := l ++ [rule]) ?_).trans ?_
    · rw [Option.getD_some, o.get_put, lookup_set]
    · rw [Option.getD_some, o.get_put, o.put_put, set_set, List.append_assoc]
      rfl

theorem ensureScript_alone (hparent : parent ∈ builtin) :
    (ensureScript o.on chain parent k).alone (GatewayCommand.act canForward) r =
      k.alone (GatewayCommand.act canForward) (o.put
        (if ((o.get r).run Rule.target (.check parent (jumpTo chain))).isSome then o.get r
          else (o.get r).attempt Rule.target (.insertFirst parent (jumpTo chain))) r) := by
  obtain ⟨l, hl⟩ := Option.isSome_iff_exists.mp ((o.get r).lookup_isSome_of_builtin hparent)
  have hcheck : (o.get r).attempt Rule.target (.check parent (jumpTo chain)) = o.get r := by
    simp only [attempt, ChainTable.run, hl, Option.bind_some]
    split
    · rfl
    · rfl
  rw [ensureScript, alone_run, hcheck, o.put_get]
  split
  · rw [o.put_get]
  · have hrun : ((o.get r).run Rule.target (.insertFirst parent (jumpTo chain))).isSome = true := by
      simp [ChainTable.run, hl]
    rw [alone_run, hrun]
    rfl

/-- The commands that set a chain up install it. -/
theorem setUpScript_alone (hparent : parent ∈ builtin) :
    (setUpScript o.on chain parent rules k).alone (GatewayCommand.act canForward) r =
      k.alone (GatewayCommand.act canForward)
        (o.put ((o.get r).install Rule.target jumpTo parent chain rules) r) := by
  rw [setUpScript, alone_run, alone_run, o.get_put, o.put_put, attempt_new_flush]
  rw [appendScript_alone o (l := []) (by rw [o.get_put, lookup_set]), o.get_put, o.put_put, set_set,
    List.nil_append, ensureScript_alone o hparent, o.get_put, o.put_put]
  rfl

end Alone

/-- Without other processes the commands do to the firewall what the call does. -/
theorem enableScript_alone (rt : Runtime) {henv : HostEnv} (hnat : henv.nat.Runs)
    (hfilter : henv.filter.Runs) (m : NetworkGatewayManager) (r : Router) :
    ((enableScript m).alone (GatewayCommand.act henv.canForward) r).firewall =
      (m.enableTransparentRedirection rt henv r).2.firewall := by
  by_cases hm : m.hasIptables = true
  · obtain ⟨message, forward, hcall⟩ := enableTransparentRedirection_eq hnat hfilter rt hm r
    rw [hcall, enableScript, if_neg (not_not.mpr hm), Script.alone]
    refine (congrArg Router.firewall
      (setUpScript_alone (onNatTable henv.canForward) (by decide))).trans ?_
    refine (congrArg Router.firewall
      (setUpScript_alone (onFilterTable henv.canForward) (by decide))).trans ?_
    rfl
  · rw [enableScript, if_pos hm, enableTransparentRedirection, if_pos hm]
    rfl

/-! ## Commands on one table -/

section Table

variable {builtin : Finset Text} {t t₀ : ChainTable Text Rule builtin} {chain parent : Text}
  {cmd : IptablesCommand} {l : List Rule}

/-- How often the parent jumps to the chain. -/
def jumps (chain parent : Text) (t : ChainTable Text Rule builtin) : Nat :=
  ((t.lookup parent).getD []).count (jumpTo chain)

/-- The commands that create, empty and fill a chain. -/
inductive Fills (chain : Text) : IptablesCommand → Prop where
  | new : Fills chain (.new chain)
  | flush : Fills chain (.flush chain)
  | append {rule : Rule} (h : rule.target ≠ some chain) : Fills chain (.append chain rule)

theorem run_check (t : ChainTable Text Rule builtin) (chain : Text) (hparent : parent ∈ builtin) :
    (t.run Rule.target (.check parent (jumpTo chain))).isSome = decide (0 < jumps chain parent t) ∧
      t.attempt Rule.target (.check parent (jumpTo chain)) = t := by
  obtain ⟨l, hl⟩ := Option.isSome_iff_exists.mp (t.lookup_isSome_of_builtin hparent)
  simp only [jumps, attempt, ChainTable.run, hl, Option.bind_some, Option.getD_some,
    List.count_pos_iff]
  by_cases hm : jumpTo chain ∈ l
  · simp [hm]
  · simp [hm]

theorem lookup_insertFirst (hparent : parent ∈ builtin) (b : Text) {rule : Rule} :
    (t.attempt Rule.target (.insertFirst parent rule)).lookup b =
      if b = parent then (t.lookup parent).map (rule :: ·) else t.lookup b := by
  obtain ⟨l, hl⟩ := Option.isSome_iff_exists.mp (t.lookup_isSome_of_builtin hparent)
  simp only [attempt, ChainTable.run, hl, Option.map_some, Option.getD_some]
  split
  · next hb => rw [hb, lookup_set]
  · next hb => exact lookup_set_of_ne hb

theorem jumps_insertFirst (hparent : parent ∈ builtin) :
    jumps chain parent (t.attempt Rule.target (.insertFirst parent (jumpTo chain))) =
      jumps chain parent t + 1 := by
  obtain ⟨l, hl⟩ := Option.isSome_iff_exists.mp (t.lookup_isSome_of_builtin hparent)
  simp [jumps, lookup_insertFirst hparent, hl]

/-- Filling a chain changes no other one. -/
theorem Fills.lookup (h : Fills chain cmd) {b : Text} (hb : b ≠ chain) :
    (t.attempt Rule.target cmd).lookup b = t.lookup b := by
  cases h with
  | new => rw [attempt_new, lookup_set_of_ne hb]
  | flush => rw [lookup_attempt_flush, if_neg hb]
  | @append rule hrule =>
    cases hl : t.lookup chain with
    | none => simp [attempt, ChainTable.run, hl]
    | some l =>
      simp only [attempt, ChainTable.run, hl, Option.map_some, Option.getD_some]
      exact lookup_set_of_ne hb

/-- Its rules do not go back to it. -/
theorem Fills.own (h : Fills chain cmd)
    (hown : ∀ l, t.lookup chain = some l → ∀ r ∈ l, Rule.target r ≠ some chain)
    (hl : (t.attempt Rule.target cmd).lookup chain = some l) :
    ∀ r ∈ l, Rule.target r ≠ some chain := by
  cases h with
  | new =>
    rw [attempt_new, lookup_set, Option.some.injEq] at hl
    cases hold : t.lookup chain with
    | none =>
      rw [← hl, hold]
      nofun
    | some old =>
      rw [← hl, hold]
      exact hown old hold
  | flush =>
    rw [lookup_attempt_flush, if_pos rfl] at hl
    obtain ⟨_, -, rfl⟩ := Option.map_eq_some_iff.mp hl
    nofun
  | @append rule hrule =>
    cases hold : t.lookup chain with
    | none =>
      simp only [attempt, ChainTable.run, hold, Option.map_none, Option.getD_none] at hl
      cases hl
    | some old =>
      simp only [attempt, ChainTable.run, hold, Option.map_some, Option.getD_some, lookup_set,
        Option.some.injEq] at hl
      intro r hr
      rcases List.mem_append.mp (hl ▸ hr) with hr | hr
      · exact hown old hold r hr
      · rwa [List.mem_singleton.mp hr]

/-! ## What the enablings leave -/

/-- The table is `t₀` with any number of jumps to the chain at the head of the parent, and possibly
the chain. -/
structure Raced (chain parent : Text) (t₀ t : ChainTable Text Rule builtin) : Prop where
  head : ∃ n, t.lookup parent = (t₀.lookup parent).map (List.replicate n (jumpTo chain) ++ ·)
  own : ∀ l, t.lookup chain = some l → ∀ r ∈ l, Rule.target r ≠ some chain
  other : ∀ b, b ≠ parent → b ≠ chain → t.lookup b = t₀.lookup b

theorem Raced.refl (hc : Unused Rule.target t₀ chain) : Raced chain parent t₀ t₀ where
  head := ⟨0, by simp⟩
  own l hl := by
    rw [hc.absent] at hl
    cases hl
  other _ _ _ := rfl

theorem Raced.fills (h : Raced chain parent t₀ t) (hne : parent ≠ chain) (hcmd : Fills chain cmd) :
    Raced chain parent t₀ (t.attempt Rule.target cmd) where
  head := by
    rw [hcmd.lookup hne]
    exact h.head
  own l hl := hcmd.own h.own hl
  other b hp hb := (hcmd.lookup hb).trans (h.other b hp hb)

theorem Raced.insertFirst (h : Raced chain parent t₀ t) (hparent : parent ∈ builtin)
    (hne : parent ≠ chain) :
    Raced chain parent t₀ (t.attempt Rule.target (.insertFirst parent (jumpTo chain))) where
  head := by
    obtain ⟨n, hn⟩ := h.head
    refine ⟨n + 1, ?_⟩
    rw [lookup_insertFirst hparent, if_pos rfl, hn, Option.map_map]
    rfl
  own l hl := by
    rw [lookup_insertFirst hparent, if_neg hne.symm] at hl
    exact h.own l hl
  other b hp hb := by
    rw [lookup_insertFirst hparent, if_neg hp]
    exact h.other b hp hb

theorem erase_replicate_append {R : Type} [DecidableEq R] {r : R} {l : List R} (hr : r ∉ l)
    (n : Nat) : (List.replicate n r ++ l).erase r = List.replicate (n - 1) r ++ l := by
  cases n with
  | zero => exact List.erase_of_not_mem hr
  | succ n => exact List.erase_cons_head r _

theorem lookup_remove_of_ne {b : Text} (hb : b ≠ chain) :
    (t.attempt Rule.target (.remove chain)).lookup b = t.lookup b := by
  simp only [attempt, ChainTable.run]
  split
  · rfl
  · split
    · exact Finmap.lookup_erase_ne hb
    · rfl

/-- One of `n` jumps is deleted and the chain emptied. -/
theorem Raced.lookup_released (h : Raced chain parent t₀ t) (hne : chain ≠ parent) {n : Nat}
    {l₀ : List Rule} (hn : t.lookup parent = some (List.replicate n (jumpTo chain) ++ l₀))
    (hnew : jumpTo chain ∉ l₀) (b : Text) :
    ((t.attempt Rule.target (.delete parent (jumpTo chain))).attempt Rule.target
      (.flush chain)).lookup b =
      if b = chain then (t.lookup chain).map fun _ => []
      else if b = parent then some (List.replicate (n - 1) (jumpTo chain) ++ l₀)
      else t₀.lookup b := by
  rw [lookup_attempt_delete_flush hne hn]
  split
  · rfl
  · next hb =>
    split
    · exact congrArg some (erase_replicate_append hnew n)
    · next hp => exact h.other b hp hb

/-- Removing a chain that is empty or absent restores a table that is the same otherwise. -/
theorem attempt_remove_eq (hc : Unused Rule.target t₀ chain)
    (hrest : ∀ b, b ≠ chain → t.lookup b = t₀.lookup b)
    (hempty : ∀ l, t.lookup chain = some l → l = []) :
    t.attempt Rule.target (.remove chain) = t₀ := by
  have href : ¬ t.Refers Rule.target chain := by
    rw [refers_iff]
    rintro ⟨b, l, hl, r, hr, htarget⟩
    by_cases hb : b = chain
    · rw [hempty l (hb ▸ hl)] at hr
      cases hr
    · rw [hrest b hb] at hl
      exact hc.target_ne hl hr htarget
  refine ext_lookup fun b => ?_
  rw [lookup_attempt_remove (fun hb => hc.ne_of_builtin hb rfl) hempty href]
  split
  · next hb => rw [hb, hc.absent]
  · next hb => exact hrest b hb

/-- Deleting a jump, and then emptying and removing the chain, restores the table if there was not
more than one jump. -/
theorem detach_eq_iff (hparent : parent ∈ builtin) (hc : Unused Rule.target t₀ chain)
    (h : Raced chain parent t₀ t) :
    t.detach Rule.target jumpTo parent chain = t₀ ↔ jumps chain parent t ≤ 1 := by
  have hne : chain ≠ parent := hc.ne_of_builtin hparent
  obtain ⟨l₀, hl₀⟩ := Option.isSome_iff_exists.mp (t₀.lookup_isSome_of_builtin hparent)
  obtain ⟨n, hn⟩ := h.head
  rw [hl₀, Option.map_some] at hn
  have hnew : jumpTo chain ∉ l₀ := fun hm => hc.target_ne hl₀ hm (target_jumpTo chain)
  have hjumps : jumps chain parent t = n := by
    simp [jumps, hn, List.count_eq_zero_of_not_mem hnew]
  have hlookup := h.lookup_released hne hn hnew
  rw [hjumps, ChainTable.detach]
  generalize (t.attempt Rule.target (.delete parent (jumpTo chain))).attempt Rule.target
    (.flush chain) = u at hlookup ⊢
  constructor
  · intro hrestored
    -- the parent keeps its jumps, whether or not the chain is removed
    have hparentLookup : (u.attempt Rule.target (.remove chain)).lookup parent =
        u.lookup parent := lookup_remove_of_ne hne.symm
    rw [hrestored, hl₀, hlookup, if_neg hne.symm, if_pos rfl, Option.some.injEq] at hparentLookup
    by_contra hmany
    refine hnew ?_
    rw [hparentLookup]
    exact List.mem_append_left _ (List.mem_replicate.mpr ⟨by omega, rfl⟩)
  · intro hone
    refine attempt_remove_eq hc (fun b hb => ?_) fun l hl => ?_
    · rw [hlookup, if_neg hb]
      split
      · next hp =>
        rw [Nat.sub_eq_zero_of_le hone, hp, hl₀]
        rfl
      · rfl
    · rw [hlookup, if_pos rfl] at hl
      obtain ⟨_, -, rfl⟩ := Option.map_eq_some_iff.mp hl
      rfl

end Table

/-! ## The gateway's jumps -/

inductive GatewayTable where
  | nat
  | filter
  deriving DecidableEq

namespace GatewayTable

/-- The check for the jump of the table. -/
def check : GatewayTable → GatewayCommand
  | nat => .nat (.check "PREROUTING" (jumpTo chainRedirect))
  | filter => .filter (.check "FORWARD" (jumpTo chainFilter))

/-- Its insertion. -/
def insert : GatewayTable → GatewayCommand
  | nat => .nat (.insertFirst "PREROUTING" (jumpTo chainRedirect))
  | filter => .filter (.insertFirst "FORWARD" (jumpTo chainFilter))

def held (r : Router) : GatewayTable → Nat
  | nat => jumps chainRedirect "PREROUTING" r.firewall.nat
  | filter => jumps chainFilter "FORWARD" r.firewall.filter

end GatewayTable

/-- The commands that neither check for a jump nor insert one. -/
inductive Prepares : GatewayCommand → Prop where
  | ipForward : Prepares .ipForward
  | nat {cmd : IptablesCommand} (h : Fills chainRedirect cmd) : Prepares (.nat cmd)
  | filter {cmd : IptablesCommand} (h : Fills chainFilter cmd) : Prepares (.filter cmd)

theorem jumps_attempt_of_fills {builtin : Finset Text} {t : ChainTable Text Rule builtin}
    {chain parent : Text} {cmd : IptablesCommand} (hne : parent ≠ chain) (h : Fills chain cmd) :
    jumps chain parent (t.attempt Rule.target cmd) = jumps chain parent t := by
  rw [jumps, h.lookup hne, jumps]

theorem nat_parent : ("PREROUTING" : Text) ∈ natChains := by decide

theorem filter_parent : ("FORWARD" : Text) ∈ filterChains := by decide

/-- The jumps of the gateway are inserted after a check. -/
def gatewayJumps (canForward : Bool) :
    CheckedInsertion (GatewayCommand.act canForward) GatewayTable where
  check := GatewayTable.check
  insert := GatewayTable.insert
  neutral := Prepares
  held k r := GatewayTable.held r k
  act_check k r := by
    cases k with
    | nat =>
      have hcheck := run_check r.firewall.nat chainRedirect nat_parent
      exact Prod.ext hcheck.1 (congrArg (onNatTable canForward |>.put · r) hcheck.2)
    | filter =>
      have hcheck := run_check r.firewall.filter chainFilter filter_parent
      exact Prod.ext hcheck.1 (congrArg (onFilterTable canForward |>.put · r) hcheck.2)
  held_insert k k' r := by
    cases k with
    | nat =>
      cases k' with
      | nat => exact jumps_insertFirst nat_parent
      | filter => rfl
    | filter =>
      cases k' with
      | nat => rfl
      | filter => exact jumps_insertFirst filter_parent
  held_neutral cmd hcmd k r := by
    cases hcmd with
    | ipForward => cases k <;> rfl
    | nat h =>
      cases k with
      | nat => exact jumps_attempt_of_fills (by decide) h
      | filter => rfl
    | filter h =>
      cases k with
      | nat => rfl
      | filter => exact jumps_attempt_of_fills (by decide) h
  check_injective k k' h := by
    cases k with
    | nat =>
      cases k' with
      | nat => rfl
      | filter => cases h
    | filter =>
      cases k' with
      | nat => cases h
      | filter => rfl
  not_neutral_check k h := by
    cases k with
    | nat =>
      cases h with
      | nat h => cases h
    | filter =>
      cases h with
      | filter h => cases h
  nonempty := ⟨⟨containerHost, false⟩⟩

section Guarded

variable {canForward : Bool} {chain parent : Text} {on : IptablesCommand → GatewayCommand}
  {k : Script GatewayCommand} {rules : List Rule}

theorem appendScript_guarded (hon : ∀ cmd, Fills chain cmd → Prepares (on cmd))
    (hk : (gatewayJumps canForward).Guarded k) (hrules : ∀ r ∈ rules, Rule.target r ≠ some chain) :
    (gatewayJumps canForward).Guarded (appendScript on chain k rules) := by
  induction rules with
  | nil => exact hk
  | cons rule rules ih =>
    refine .neutral (hon _ (.append (hrules rule List.mem_cons_self))) fun ok => ?_
    cases ok with
    | true => exact ih fun r hr => hrules r (List.mem_cons_of_mem _ hr)
    | false => exact .done

theorem setUpScript_guarded (table : GatewayTable)
    (hon : ∀ cmd, Fills chain cmd → Prepares (on cmd))
    (hcheck : on (.check parent (jumpTo chain)) = table.check)
    (hinsert : on (.insertFirst parent (jumpTo chain)) = table.insert)
    (hk : (gatewayJumps canForward).Guarded k) (hrules : ∀ r ∈ rules, Rule.target r ≠ some chain) :
    (gatewayJumps canForward).Guarded (setUpScript on chain parent rules k) := by
  refine .neutral (hon _ .new) fun _ => .neutral (hon _ .flush) fun _ =>
    appendScript_guarded hon ?_ hrules
  unfold ensureScript
  rw [hcheck, hinsert]
  refine CheckedInsertion.Guarded.ensure table hk fun ok => ?_
  cases ok with
  | true => exact hk
  | false => exact .done

theorem enableScript_guarded (canForward : Bool) (m : NetworkGatewayManager) :
    (gatewayJumps canForward).Guarded (enableScript m) := by
  obtain ⟨hredirect, hfilter, -⟩ := rules_foreign m.dnsPort
  have hredirectChain : chainRedirect ∈ focusGuardChains := by simp [focusGuardChains]
  have hfilterChain : chainFilter ∈ focusGuardChains := by simp [focusGuardChains]
  unfold enableScript
  split
  · exact .done
  · refine .neutral .ipForward fun _ => setUpScript_guarded .nat (fun _ => .nat) rfl rfl
      (setUpScript_guarded .filter (fun _ => .filter) rfl rfl .done ?_) ?_
    · exact fun r hr => isForeign_iff.mp (hfilter r hr) chainFilter hfilterChain
    · exact fun r hr => isForeign_iff.mp (hredirect r hr) chainRedirect hredirectChain

end Guarded

/-! ## Races -/

/-- Both tables are as the enablings leave them. -/
structure RacedFirewall (f : Firewall) (r : Router) : Prop where
  nat : Raced chainRedirect "PREROUTING" f.nat r.firewall.nat
  filter : Raced chainFilter "FORWARD" f.filter r.firewall.filter

theorem RacedFirewall.prepares {f : Firewall} {r : Router} (h : RacedFirewall f r)
    {cmd : GatewayCommand} (hcmd : Prepares cmd) (canForward : Bool) :
    RacedFirewall f (cmd.act canForward r).2 := by
  cases hcmd with
  | ipForward => exact ⟨h.nat, h.filter⟩
  | nat hfills => exact ⟨h.nat.fills (by decide) hfills, h.filter⟩
  | filter hfills => exact ⟨h.nat, h.filter.fills (by decide) hfills⟩

theorem RacedFirewall.insert {f : Firewall} {r : Router} (h : RacedFirewall f r)
    (table : GatewayTable) (canForward : Bool) :
    RacedFirewall f (table.insert.act canForward r).2 := by
  cases table with
  | nat => exact ⟨h.nat.insertFirst nat_parent (by decide), h.filter⟩
  | filter => exact ⟨h.nat, h.filter.insertFirst filter_parent (by decide)⟩

theorem jumps_eq_zero {builtin : Finset Text} {t : ChainTable Text Rule builtin}
    {chain parent : Text} (h : Unused Rule.target t chain) (hparent : parent ∈ builtin) :
    jumps chain parent t = 0 := by
  obtain ⟨l, hl⟩ := Option.isSome_iff_exists.mp (t.lookup_isSome_of_builtin hparent)
  rw [jumps, hl]
  exact List.count_eq_zero_of_not_mem fun hm => h.target_ne hl hm (target_jumpTo chain)

/-- One disabling undoes the concurrent enablings of several processes exactly if no process checked
for a jump while another one stood between its check for that jump and the insertion. -/
theorem concurrent_enable_reversible_iff (rt : Runtime) {P : Type} [DecidableEq P] {f : Firewall}
    (hf : f.Unclaimed) {forward : Bool} {henv : HostEnv} (hnat : henv.nat.Runs)
    (hfilter : henv.filter.Runs) {managers : P → NetworkGatewayManager}
    {evs : List (Race P GatewayCommand Router × P)} {s : Race P GatewayCommand Router}
    (hrun : Run (Race.Step (GatewayCommand.act henv.canForward)) (enabling ⟨f, forward⟩ managers)
      evs s)
    (hdone : s.Done) {m : NetworkGatewayManager} (hm : m.hasIptables = true) :
    (m.disableTransparentRedirection rt henv s.state).2.firewall = f ↔
      ∀ ev ∈ evs, ¬ (gatewayJumps henv.canForward).Overlaps ev := by
  have hredirectChain : chainRedirect ∈ focusGuardChains := by simp [focusGuardChains]
  have hfilterChain : chainFilter ∈ focusGuardChains := by simp [focusGuardChains]
  obtain ⟨hnatUnused, -⟩ := hf _ hredirectChain
  obtain ⟨-, hfilterUnused⟩ := hf _ hfilterChain
  have hguarded : ∀ p, (gatewayJumps henv.canForward).Guarded
      ((enabling ⟨f, forward⟩ managers).rest p) :=
    fun p => enableScript_guarded henv.canForward (managers p)
  have hraced : RacedFirewall f s.state :=
    CheckedInsertion.preserves (fun cmd r hcmd h => h.prepares hcmd henv.canForward)
      (fun table r h => h.insert table henv.canForward) (fun p => .guarded (hguarded p)) hrun
      ⟨.refl hnatUnused, .refl hfilterUnused⟩
  have hstart : ∀ table, (gatewayJumps henv.canForward).held table ⟨f, forward⟩ = 0 := by
    intro table
    cases table with
    | nat => exact jumps_eq_zero hnatUnused nat_parent
    | filter => exact jumps_eq_zero hfilterUnused filter_parent
  obtain ⟨message, hcall⟩ := disableTransparentRedirection_eq hnat hfilter rt hm s.state
  rw [hcall, Firewall.eq_iff, detach_eq_iff nat_parent hnatUnused hraced.nat,
    detach_eq_iff filter_parent hfilterUnused hraced.filter,
    ← CheckedInsertion.held_le_one_iff hguarded hstart hrun hdone]
  constructor
  · rintro ⟨hnatOne, hfilterOne⟩ table
    cases table with
    | nat => exact hnatOne
    | filter => exact hfilterOne
  · exact fun h => ⟨h .nat, h .filter⟩

section Example

/-- The service at its start, and the command line that runs as root. -/
inductive Caller where
  | daemon
  | cli
  deriving DecidableEq

/-- Both enable the redirection of the host. -/
def bothEnabling : Race Caller GatewayCommand Router :=
  enabling ⟨containerHost, false⟩ fun _ => ⟨53, true⟩

/-- One after the other. -/
def inTurn : List Caller := List.replicate 12 .daemon ++ List.replicate 12 .cli

/-- Each up to its check for the jump to the redirecting chain, and then on. -/
def checkingFirst : List Caller :=
  List.replicate 6 .daemon ++ List.replicate 6 .cli ++ List.replicate 6 .daemon ++
    List.replicate 6 .cli

theorem concurrent_enable_reversible_iff_inTurn :
    (NetworkGatewayManager.disableTransparentRedirection asciiRuntime workingHost ⟨53, true⟩
      (bothEnabling.play (GatewayCommand.act true) inTurn).state).2.firewall = containerHost := by
  have hnone : ∀ ev ∈ bothEnabling.events (GatewayCommand.act true) inTurn,
      ∀ table ∈ [GatewayTable.nat, .filter],
        ¬ ((ev.1.rest ev.2).head? = some table.check ∧
          ∃ q ∈ [Caller.daemon, .cli], (ev.1.rest q).head? = some table.insert) := by
    decide +kernel
  have hdone : (bothEnabling.play (GatewayCommand.act true) inTurn).Done := by
    intro p
    cases p <;> decide +kernel
  have hrun : Run (Race.Step (GatewayCommand.act true)) bothEnabling
      (bothEnabling.events (GatewayCommand.act true) inTurn)
      (bothEnabling.play (GatewayCommand.act true) inTurn) :=
    Race.run_play inTurn bothEnabling
  -- from here on the run is any run, so that nothing plays it again
  generalize bothEnabling.events (GatewayCommand.act true) inTurn = evs at hnone hrun
  generalize bothEnabling.play (GatewayCommand.act true) inTurn = s at hdone hrun ⊢
  refine (@concurrent_enable_reversible_iff asciiRuntime Caller _ containerHost
    containerHost_unclaimed false workingHost (fun _ => rfl) (fun _ => rfl) (fun _ => ⟨53, true⟩)
    evs s hrun hdone ⟨53, true⟩ rfl).mpr ?_
  rintro ev hev ⟨table, hcheck, q, hq⟩
  refine hnone ev hev table ?_ ⟨hcheck, q, ?_, hq⟩
  · cases table <;> simp
  · cases q <;> simp

/-- Both processes find no jump and insert one, and the disabling deletes only one of them. -/
theorem concurrent_enable_not_reversible : ¬ ∀ (f : Firewall)
    (managers : Caller → NetworkGatewayManager)
    (evs : List (Race Caller GatewayCommand Router × Caller))
    (s : Race Caller GatewayCommand Router), f.Unclaimed →
    Run (Race.Step (GatewayCommand.act true)) (enabling ⟨f, false⟩ managers) evs s → s.Done →
    (NetworkGatewayManager.disableTransparentRedirection asciiRuntime workingHost ⟨53, true⟩
      s.state).2.firewall = f := by
  intro h
  have hdone : (bothEnabling.play (GatewayCommand.act true) checkingFirst).Done := by
    intro p
    cases p <;> decide +kernel
  have hleft : (NetworkGatewayManager.disableTransparentRedirection asciiRuntime workingHost
      ⟨53, true⟩
      (bothEnabling.play (GatewayCommand.act true) checkingFirst).state).2.firewall.nat.lookup
        chainRedirect = some [] := by
    decide +kernel
  have hclean : containerHost.nat.lookup chainRedirect = none := by decide
  have hrun : Run (Race.Step (GatewayCommand.act true)) bothEnabling
      (bothEnabling.events (GatewayCommand.act true) checkingFirst)
      (bothEnabling.play (GatewayCommand.act true) checkingFirst) :=
    Race.run_play checkingFirst bothEnabling
  generalize bothEnabling.events (GatewayCommand.act true) checkingFirst = evs at hrun
  generalize bothEnabling.play (GatewayCommand.act true) checkingFirst = s at hdone hrun hleft
  rw [h containerHost _ evs s containerHost_unclaimed hrun hdone, hclean] at hleft
  cases hleft

end Example

end FocusGuard

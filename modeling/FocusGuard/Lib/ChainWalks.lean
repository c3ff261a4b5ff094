import FocusGuard.Lib.Chains

/-!
# Walks through tables of chains

What a table of chains does with a packet. The packet walks through the rules of a chain from the
first on; a rule ends the walk with a verdict, sends the packet through another chain, takes it
back to where it was called from, or lets it pass. A table whose chains call each other in a circle
has no outcome for some packets, so that outcomes are a relation here.

## Main definitions

* `ChainTable.Walks`: the outcome of a list of rules.
* `ChainTable.Fares`: the outcome of a chain of the table.
* `ChainTable.Extends`: a table that differs from another one by some reserved chains and by calls
  of them at the head of one chain.

## Main results

* `Walks.congr`: an outcome depends on the chains that can be reached only.
* `Extends.fares_parent`, `Extends.fares_other`: what the added chains change.
-/

/-- What a rule does with the packet. -/
inductive RuleEffect (N A : Type) where
  /-- The rule does not match, or it lets the packet go on. -/
  | pass
  | verdict (a : A)
  | call (chain : N)
  | back
  deriving DecidableEq

namespace ChainTable

variable {N R A : Type} [DecidableEq N] {builtin : Finset N}

section Walks

variable (effect : R → RuleEffect N A) (t : ChainTable N R builtin)

/-- The rules have this outcome; `none` is their end, reached or returned from. -/
inductive Walks : List R → Option A → Prop where
  | nil : Walks [] none
  | pass {r : R} {l : List R} {o : Option A} :
      effect r = .pass → Walks l o → Walks (r :: l) o
  | verdict {r : R} {l : List R} {a : A} : effect r = .verdict a → Walks (r :: l) (some a)
  | back {r : R} {l : List R} : effect r = .back → Walks (r :: l) none
  | call {r : R} {l k : List R} {c : N} {a : A} : effect r = .call c → t.lookup c = some k →
      Walks k (some a) → Walks (r :: l) (some a)
  | returned {r : R} {l k : List R} {c : N} {o : Option A} : effect r = .call c →
      t.lookup c = some k → Walks k none → Walks l o → Walks (r :: l) o

/-- A packet that enters the chain has this outcome. -/
def Fares (c : N) (o : Option A) : Prop := ∃ l, t.lookup c = some l ∧ Walks effect t l o

/-- The first verdict among the rules. -/
def firstVerdict (l : List R) : Option A :=
  l.findSome? fun r => match effect r with
    | .verdict a => some a
    | _ => none

/-- The rule neither calls a chain nor returns from its own. -/
def Leaf (r : R) : Prop := effect r = .pass ∨ ∃ a, effect r = .verdict a

end Walks

/-- The outcome is the verdict, or where there is none what `rest` says. -/
def Decides (v o : Option A) (rest : Prop) : Prop :=
  match v with
  | some a => o = some a
  | none => rest

variable {effect : R → RuleEffect N A} {t t₀ : ChainTable N R builtin} {c : N} {r : R}
  {l : List R} {o o' : Option A} {a : A}

/-! ## Rules -/

omit [DecidableEq N] in
theorem firstVerdict_cons_of_pass (h : effect r = .pass) :
    firstVerdict effect (r :: l) = firstVerdict effect l := by
  simp [firstVerdict, h]

omit [DecidableEq N] in
theorem firstVerdict_cons_of_verdict (h : effect r = .verdict a) :
    firstVerdict effect (r :: l) = some a := by
  simp [firstVerdict, h]

omit [DecidableEq N] in
/-- The first verdict is that of a rule. -/
theorem exists_of_firstVerdict (h : firstVerdict effect l = some a) :
    ∃ r ∈ l, effect r = .verdict a := by
  obtain ⟨r, hr, heq⟩ := List.exists_of_findSome?_eq_some h
  cases he : effect r with
  | verdict b =>
    rw [he] at heq
    exact ⟨r, hr, he.trans (congrArg _ (Option.some.inj heq))⟩
  | pass => simp [he] at heq
  | call c => simp [he] at heq
  | back => simp [he] at heq

/-- Rules that stay in their chain end with the first verdict. -/
theorem walks_leaf_iff (h : ∀ r ∈ l, Leaf effect r) :
    Walks effect t l o ↔ o = firstVerdict effect l := by
  induction l with
  | nil =>
    constructor
    · rintro ⟨⟩
      rfl
    · rintro rfl
      exact .nil
  | cons r l ih =>
    have hl := ih fun r hr => h r (List.mem_cons_of_mem _ hr)
    rcases h r List.mem_cons_self with hpass | ⟨a, hverdict⟩
    · rw [firstVerdict_cons_of_pass hpass, ← hl]
      constructor
      · rintro ⟨⟩
        all_goals simp_all
      · exact .pass hpass
    · rw [firstVerdict_cons_of_verdict hverdict]
      constructor
      · rintro ⟨⟩
        all_goals simp_all
      · rintro rfl
        exact .verdict hverdict

/-- A packet has one outcome at most. -/
theorem Walks.unique (h : Walks effect t l o) (h' : Walks effect t l o') : o = o' := by
  induction h generalizing o' with
  | nil =>
    cases h'
    rfl
  | pass he _ ih =>
    cases h' with
    | pass _ h' => exact ih h'
    | _ => simp_all
  | verdict he => cases h' <;> simp_all
  | back he => cases h' <;> simp_all
  | call he hk _ ih =>
    cases h' with
    | call he' hk' h' =>
      obtain rfl := RuleEffect.call.inj (he.symm.trans he')
      exact ih (Option.some.inj (hk.symm.trans hk') ▸ h')
    | returned he' hk' h' =>
      obtain rfl := RuleEffect.call.inj (he.symm.trans he')
      cases ih (Option.some.inj (hk.symm.trans hk') ▸ h')
    | _ => simp_all
  | returned he hk _ _ ih ih' =>
    cases h' with
    | call he' hk' h' =>
      obtain rfl := RuleEffect.call.inj (he.symm.trans he')
      cases ih (Option.some.inj (hk.symm.trans hk') ▸ h')
    | returned he' hk' _ h' => exact ih' h'
    | _ => simp_all

/-- A rule whose chain has this outcome. -/
theorem walks_call_iff {k : List R} (he : effect r = .call c) (hk : t.lookup c = some k)
    {v : Option A} (hv : ∀ o, Walks effect t k o ↔ o = v) :
    Walks effect t (r :: l) o ↔ Decides v o (Walks effect t l o) := by
  have hwalk : Walks effect t k v := (hv v).mpr rfl
  constructor
  · intro h
    cases h with
    | call he' hk' h' =>
      obtain rfl := RuleEffect.call.inj (he.symm.trans he')
      obtain rfl := Option.some.inj (hk.symm.trans hk')
      obtain rfl := (hv _).mp h'
      rfl
    | returned he' hk' h' h =>
      obtain rfl := RuleEffect.call.inj (he.symm.trans he')
      obtain rfl := Option.some.inj (hk.symm.trans hk')
      obtain rfl := (hv _).mp h'
      exact h
    | _ => simp_all
  · cases v with
    | some a =>
      rintro rfl
      exact .call he hk hwalk
    | none => exact .returned he hk hwalk

/-! ## Chains that cannot be reached -/

/-- The rule calls none of these chains. -/
def Avoids (effect : R → RuleEffect N A) (away : N → Prop) (r : R) : Prop :=
  ∀ c, away c → effect r ≠ .call c

section Away

variable {away : N → Prop}

private theorem Walks.transfer (hsame : ∀ c, ¬ away c → t.lookup c = t₀.lookup c)
    (hclosed : ∀ c l, ¬ away c → t₀.lookup c = some l → ∀ r ∈ l, Avoids effect away r)
    (h : Walks effect t l o) (hl : ∀ r ∈ l, Avoids effect away r) : Walks effect t₀ l o := by
  induction h with
  | nil => exact .nil
  | pass he _ ih => exact .pass he (ih fun r hr => hl r (List.mem_cons_of_mem _ hr))
  | verdict he => exact .verdict he
  | back he => exact .back he
  | @call r l k c a he hk _ ih =>
    have hc : ¬ away c := fun hc => hl r List.mem_cons_self c hc he
    rw [hsame c hc] at hk
    exact .call he hk (ih (hclosed c k hc hk))
  | @returned r l k c o he hk _ _ ih ih' =>
    have hc : ¬ away c := fun hc => hl r List.mem_cons_self c hc he
    rw [hsame c hc] at hk
    exact .returned he hk (ih (hclosed c k hc hk)) (ih' fun r hr => hl r (List.mem_cons_of_mem _ hr))

/-- Tables that agree on all chains that the rules can reach give them the same outcome. -/
theorem Walks.congr (hsame : ∀ c, ¬ away c → t.lookup c = t₀.lookup c)
    (hclosed : ∀ c l, ¬ away c → t₀.lookup c = some l → ∀ r ∈ l, Avoids effect away r)
    (hl : ∀ r ∈ l, Avoids effect away r) : Walks effect t l o ↔ Walks effect t₀ l o := by
  constructor
  · exact fun h => h.transfer hsame hclosed hl
  · refine fun h => h.transfer (fun c hc => (hsame c hc).symm) (fun c l hc hk => ?_) hl
    exact hclosed c l hc (hsame c hc ▸ hk)

end Away

/-! ## Added chains -/

/-- The table `t` is `t₀` with calls of reserved chains at the head of `parent`. -/
structure Extends (jump : N → R) (parent : N) (reserved : List N) (t₀ t : ChainTable N R builtin)
    (names : List N) : Prop where
  head : t.lookup parent = (t₀.lookup parent).map (names.map jump ++ ·)
  mem : ∀ c ∈ names, c ∈ reserved
  present : ∀ c ∈ names, (t.lookup c).isSome = true
  other : ∀ c, c ≠ parent → c ∉ reserved → t.lookup c = t₀.lookup c

/-- No rule of the table calls the parent or a reserved chain. -/
def Keeps (effect : R → RuleEffect N A) (parent : N) (reserved : List N)
    (t : ChainTable N R builtin) : Prop :=
  ∀ c l, t.lookup c = some l → ∀ r ∈ l, Avoids effect (fun b => b = parent ∨ b ∈ reserved) r

namespace Extends

variable {jump : N → R} {parent : N} {reserved names : List N}

/-- Other chains have the outcomes they had. -/
theorem fares_other (h : Extends jump parent reserved t₀ t names)
    (hkeeps : Keeps effect parent reserved t₀) (hp : c ≠ parent) (hc : c ∉ reserved) :
    Fares effect t c o ↔ Fares effect t₀ c o := by
  unfold Fares
  rw [h.other c hp hc]
  refine exists_congr fun l => and_congr_right fun hl => ?_
  exact Walks.congr (fun b hb => h.other b (fun hp => hb (.inl hp)) fun hm => hb (.inr hm))
    (fun b k _ hk => hkeeps b k hk) (hkeeps c l hl)

/-- The verdict of the added chains: that of the first one that has a verdict. -/
def verdict (effect : R → RuleEffect N A) (t : ChainTable N R builtin) (names : List N) : Option A :=
  names.findSome? fun c => firstVerdict effect ((t.lookup c).getD [])

/-- Calls of chains that do not call others. -/
theorem walks_jumps (hjump : ∀ c ∈ names, effect (jump c) = .call c)
    (hpresent : ∀ c ∈ names, (t.lookup c).isSome = true)
    (hleaf : ∀ c ∈ names, ∀ r ∈ (t.lookup c).getD [], Leaf effect r) :
    Walks effect t (names.map jump ++ l) o ↔
      Decides (verdict effect t names) o (Walks effect t l o) := by
  induction names with
  | nil => rfl
  | cons c names ih =>
    obtain ⟨k, hk⟩ := Option.isSome_iff_exists.mp (hpresent c List.mem_cons_self)
    have hkleaf := hleaf c List.mem_cons_self
    rw [hk, Option.getD_some] at hkleaf
    rw [List.map_cons, List.cons_append, walks_call_iff (hjump c List.mem_cons_self) hk
      (fun o => walks_leaf_iff hkleaf), verdict, List.findSome?_cons, hk, Option.getD_some]
    cases hv : firstVerdict effect k with
    | some a => rfl
    | none =>
      exact ih (fun b hb => hjump b (List.mem_cons_of_mem _ hb))
        (fun b hb => hpresent b (List.mem_cons_of_mem _ hb))
        fun b hb => hleaf b (List.mem_cons_of_mem _ hb)

/-- In the parent the added chains decide first. -/
theorem fares_parent (h : Extends jump parent reserved t₀ t names)
    (hkeeps : Keeps effect parent reserved t₀) (hparent : parent ∈ builtin)
    (hjump : ∀ c ∈ reserved, effect (jump c) = .call c)
    (hleaf : ∀ c ∈ names, ∀ r ∈ (t.lookup c).getD [], Leaf effect r) :
    Fares effect t parent o ↔
      Decides (verdict effect t names) o (Fares effect t₀ parent o) := by
  obtain ⟨l₀, hl₀⟩ := Option.isSome_iff_exists.mp (t₀.lookup_isSome_of_builtin hparent)
  have hhead : t.lookup parent = some (names.map jump ++ l₀) := by rw [h.head, hl₀]; rfl
  have hold : Walks effect t l₀ o ↔ Walks effect t₀ l₀ o :=
    Walks.congr (fun b hb => h.other b (fun hp => hb (.inl hp)) fun hm => hb (.inr hm))
      (fun b k _ hk => hkeeps b k hk) (hkeeps parent l₀ hl₀)
  have hwalk := walks_jumps (l := l₀) (o := o) (fun c hc => hjump c (h.mem c hc)) h.present hleaf
  rw [hold] at hwalk
  simpa [Fares, hhead, hl₀] using hwalk

end Extends

/-! ## Chains that are filled and emptied -/

/-- The table is `t₀` with calls of reserved chains at the head of `parent`, and the reserved chains
hold rules of their own. -/
structure Managed (jump : N → R) (parent : N) (reserved : List N) (own : N → R → Prop)
    (t₀ t : ChainTable N R builtin) : Prop where
  extend : ∃ names, Extends jump parent reserved t₀ t names
  owned : ∀ c ∈ reserved, ∀ l, t.lookup c = some l → ∀ r ∈ l, own c r

/-- The commands that set reserved chains up and take them down. -/
inductive Manages (jump : N → R) (parent : N) (reserved : List N) (own : N → R → Prop) :
    ChainCommand N R → Prop where
  | new {c : N} : c ∈ reserved → Manages jump parent reserved own (.new c)
  | flush {c : N} : c ∈ reserved → Manages jump parent reserved own (.flush c)
  | append {c : N} {r : R} :
      c ∈ reserved → own c r → Manages jump parent reserved own (.append c r)
  | insertFirst {c : N} :
      c ∈ reserved → Manages jump parent reserved own (.insertFirst parent (jump c))
  | check {b : N} {r : R} : Manages jump parent reserved own (.check b r)
  | delete {c : N} :
      c ∈ reserved → Manages jump parent reserved own (.delete parent (jump c))
  | remove {c : N} : c ∈ reserved → Manages jump parent reserved own (.remove c)

namespace Managed

variable {jump : N → R} {parent : N} {reserved : List N} {own : N → R → Prop}

theorem refl (h : ∀ c ∈ reserved, t.lookup c = none) :
    Managed jump parent reserved own t t where
  extend := ⟨[], by simp, by simp, by simp, fun _ _ _ => rfl⟩
  owned c hc l hl := by
    rw [h c hc] at hl
    cases hl

/-- The verdict in front of those of `t₀` is that of an own rule, in a chain that is there. -/
theorem fares {effect : R → RuleEffect N A} (h : Managed jump parent reserved own t₀ t)
    (hkeeps : Keeps effect parent reserved t₀) (hparent : parent ∈ builtin)
    (hjump : ∀ c ∈ reserved, effect (jump c) = .call c) (hleaf : ∀ c r, own c r → Leaf effect r) :
    (∃ v, (∀ a, v = some a →
        ∃ c r, (t.lookup c).isSome = true ∧ own c r ∧ effect r = .verdict a) ∧
      ∀ o, Fares effect t parent o ↔ Decides v o (Fares effect t₀ parent o)) ∧
    ∀ c ∉ reserved, c ≠ parent → ∀ o, Fares effect t c o ↔ Fares effect t₀ c o := by
  obtain ⟨⟨names, hext⟩, howned⟩ := h
  have hown : ∀ c ∈ names, ∀ r ∈ (t.lookup c).getD [], own c r := fun c hc r hr => by
    obtain ⟨l, hl⟩ := Option.isSome_iff_exists.mp (hext.present c hc)
    rw [hl, Option.getD_some] at hr
    exact howned c (hext.mem c hc) l hl r hr
  refine ⟨⟨Extends.verdict effect t names, fun a ha => ?_, fun o => ?_⟩,
    fun c hc hp o => hext.fares_other hkeeps hp hc⟩
  · obtain ⟨c, hc, hverdict⟩ := List.exists_of_findSome?_eq_some ha
    obtain ⟨r, hr, he⟩ := exists_of_firstVerdict hverdict
    exact ⟨c, r, hext.present c hc, hown c hc r hr, he⟩
  · exact hext.fares_parent hkeeps hparent hjump fun c hc r hr => hleaf c r (hown c hc r hr)

/-- A reserved chain is given other rules of its own. -/
theorem set (h : Managed jump parent reserved own t₀ t) (hparent : parent ∉ reserved)
    (hc : c ∈ reserved) (hl : ∀ r ∈ l, own c r) :
    Managed jump parent reserved own t₀ (t.set c l) := by
  obtain ⟨⟨names, hext⟩, howned⟩ := h
  have hpc : parent ≠ c := fun heq => hparent (heq ▸ hc)
  refine ⟨⟨names, ?_, hext.mem, fun b hb => ?_, fun b hbp hb => ?_⟩, fun b hb k hk => ?_⟩
  · rw [lookup_set_of_ne hpc, hext.head]
  · by_cases hbc : b = c
    · rw [hbc, lookup_set]
      rfl
    · rw [lookup_set_of_ne hbc]
      exact hext.present b hb
  · have hbc : b ≠ c := fun heq => hb (heq ▸ hc)
    rw [lookup_set_of_ne hbc, hext.other b hbp hb]
  · by_cases hbc : b = c
    · subst hbc
      rw [lookup_set] at hk
      exact Option.some.inj hk ▸ hl
    · rw [lookup_set_of_ne hbc] at hk
      exact howned b hb k hk

/-- The calls at the head of the parent are replaced by others. -/
theorem set_parent (h : Managed jump parent reserved own t₀ t) (hparent : parent ∉ reserved)
    {names : List N} {l₀ : List R} (hl₀ : t₀.lookup parent = some l₀)
    (hmem : ∀ c ∈ names, c ∈ reserved) (hpresent : ∀ c ∈ names, (t.lookup c).isSome = true) :
    Managed jump parent reserved own t₀ (t.set parent (names.map jump ++ l₀)) := by
  obtain ⟨⟨_, hext⟩, howned⟩ := h
  have hne : ∀ b, b ∈ reserved → b ≠ parent := fun b hb heq => hparent (heq ▸ hb)
  refine ⟨⟨names, ?_, hmem, fun b hb => ?_, fun b hbp hb => ?_⟩, fun b hb k hk => ?_⟩
  · rw [lookup_set, hl₀]
    rfl
  · rw [lookup_set_of_ne (hne b (hmem b hb))]
    exact hpresent b hb
  · rw [lookup_set_of_ne hbp, hext.other b hbp hb]
  · rw [lookup_set_of_ne (hne b hb)] at hk
    exact howned b hb k hk

variable [DecidableEq R] {target : R → Option N} {cmd : ChainCommand N R}

/-- Every command that manages the chains keeps the table managed; a call is inserted of a chain
that is there. -/
theorem run (h : Managed jump parent reserved own t₀ t) (hparent : parent ∈ builtin)
    (hjump : ∀ c, target (jump c) = some c) (hunused : ∀ c ∈ reserved, Unused target t₀ c)
    (hcmd : Manages jump parent reserved own cmd)
    (hpresent : ∀ c, cmd = .insertFirst parent (jump c) → (t.lookup c).isSome = true)
    {t' : ChainTable N R builtin} (hrun : t.run target cmd = some t') :
    Managed jump parent reserved own t₀ t' := by
  have hres : parent ∉ reserved := fun hm => (hunused parent hm).ne_of_builtin hparent rfl
  obtain ⟨l₀, hl₀⟩ := Option.isSome_iff_exists.mp (t₀.lookup_isSome_of_builtin hparent)
  obtain ⟨names, hext⟩ := h.extend
  have hhead : t.lookup parent = some (names.map jump ++ l₀) := by rw [hext.head, hl₀]; rfl
  cases hcmd with
  | @new c hc =>
    simp only [ChainTable.run] at hrun
    split at hrun
    · cases hrun
    · obtain rfl := Option.some.inj hrun
      exact h.set hres hc (by simp)
  | @flush c hc =>
    obtain ⟨l, -, rfl⟩ := Option.map_eq_some_iff.mp hrun
    exact h.set hres hc (by simp)
  | @append c r hc hr =>
    obtain ⟨l, hl, rfl⟩ := Option.map_eq_some_iff.mp hrun
    refine h.set hres hc fun r' hr' => ?_
    rcases List.mem_append.mp hr' with hr' | hr'
    · exact h.owned c hc l hl r' hr'
    · exact List.mem_singleton.mp hr' ▸ hr
  | @insertFirst c hc =>
    obtain ⟨l, hl, rfl⟩ := Option.map_eq_some_iff.mp hrun
    obtain rfl := Option.some.inj (hhead.symm.trans hl)
    have hnew : ∀ b ∈ c :: names, b ∈ reserved := fun b hb =>
      (List.mem_cons.mp hb).elim (fun heq => heq ▸ hc) (hext.mem b)
    refine h.set_parent hres hl₀ hnew fun b hb => ?_
    exact (List.mem_cons.mp hb).elim (fun heq => heq ▸ hpresent c rfl) (hext.present b)
  | check =>
    obtain ⟨l, -, hif⟩ := Option.bind_eq_some_iff.mp hrun
    split at hif
    · exact Option.some.inj hif ▸ h
    · cases hif
  | @delete c hc =>
    obtain ⟨l, hl, hif⟩ := Option.bind_eq_some_iff.mp hrun
    obtain rfl := Option.some.inj (hhead.symm.trans hl)
    split at hif
    · next hm =>
      have hnew : jump c ∉ l₀ := fun hr => (hunused c hc).target_ne hl₀ hr (hjump c)
      have hcall : jump c ∈ names.map jump := (List.mem_append.mp hm).resolve_right hnew
      rw [List.erase_append_left _ hcall, ← List.map_erase (jump_injective hjump)] at hif
      obtain rfl := Option.some.inj hif
      refine h.set_parent hres hl₀ (fun b hb => ?_) fun b hb => ?_
      · exact hext.mem b (List.mem_of_mem_erase hb)
      · exact hext.present b (List.mem_of_mem_erase hb)
    · cases hif
  | @remove c hc =>
    simp only [ChainTable.run] at hrun
    split at hrun
    · cases hrun
    · next hb =>
      split at hrun
      · next hempty =>
        obtain rfl := Option.some.inj hrun
        have hdrop : ∀ b, b ≠ c → (t.drop c hb).lookup b = t.lookup b :=
          fun b hne => Finmap.lookup_erase_ne hne
        -- a chain that is called cannot be removed
        have hcalled : c ∉ names := fun hm => hempty.2 (refers_iff.mpr ⟨parent, _, hhead, jump c,
          List.mem_append_left _ (List.mem_map_of_mem hm), hjump c⟩)
        have hpc : parent ≠ c := fun heq => hres (heq ▸ hc)
        refine ⟨⟨names, ?_, hext.mem, fun b hm => ?_, fun b hbp hm => ?_⟩, fun b hm k hk => ?_⟩
        · rw [hdrop parent hpc, hext.head]
        · rw [hdrop b fun heq => hcalled (heq ▸ hm)]
          exact hext.present b hm
        · rw [hdrop b fun heq => hm (heq ▸ hc), hext.other b hbp hm]
        · by_cases hbc : b = c
          · subst hbc
            have hgone : (t.drop b hb).lookup b = none := Finmap.lookup_erase _ _
            rw [hgone] at hk
            cases hk
          · rw [hdrop b hbc] at hk
            exact h.owned b hm k hk
      · cases hrun

end Managed

end ChainTable

import Mathlib.Data.Finmap

/-!
# Tables of chains

A packet filter keeps tables of named chains of rules. A rule may hand a packet to another chain,
its target. The chains that the system provides are always there; the others are created, filled
and removed by commands, each of which may be refused.

## Main definitions

* `ChainTable.run`: what a command does, where it is not refused.
* `ChainTable.Attached`: a table that differs from another one by attached chains, each with a
  jump to it at the head of one of the provided chains.

## Main results

* `Attached.install`, `Attached.detach`: attaching and detaching one chain.
* `Attached.eq_of_nil`: with nothing attached the tables are equal.
-/

/-- Chains of rules by name; those of `builtin` are always there. -/
structure ChainTable (N R : Type) [DecidableEq N] (builtin : Finset N) where
  chains : Finmap fun _ : N => List R
  builtin_mem : ∀ c ∈ builtin, c ∈ chains

/-- `-N`, `-F`, `-A`, `-I … 1`, `-C`, `-D` and `-X`. -/
inductive ChainCommand (N R : Type) where
  | new (chain : N)
  | flush (chain : N)
  | append (chain : N) (rule : R)
  | insertFirst (chain : N) (rule : R)
  | check (chain : N) (rule : R)
  | delete (chain : N) (rule : R)
  | remove (chain : N)
  deriving DecidableEq

namespace ChainTable

variable {N R : Type} [DecidableEq N] {builtin : Finset N}

def lookup (t : ChainTable N R builtin) (c : N) : Option (List R) := t.chains.lookup c

/-- The table with a chain that holds just these rules. -/
def set (t : ChainTable N R builtin) (c : N) (l : List R) : ChainTable N R builtin where
  chains := t.chains.insert c l
  builtin_mem b hb := Finmap.mem_insert.mpr (.inr (t.builtin_mem b hb))

def drop (t : ChainTable N R builtin) (c : N) (h : c ∉ builtin) : ChainTable N R builtin where
  chains := t.chains.erase c
  builtin_mem b hb := Finmap.mem_erase.mpr ⟨fun heq => h (heq ▸ hb), t.builtin_mem b hb⟩

/-- A rule of the table has the chain as its target. -/
def Refers (target : R → Option N) (t : ChainTable N R builtin) (c : N) : Prop :=
  ∃ b ∈ t.chains.keys, ∃ r ∈ (t.lookup b).getD [], target r = some c

instance (target : R → Option N) (t : ChainTable N R builtin) (c : N) :
    Decidable (t.Refers target c) :=
  inferInstanceAs (Decidable (∃ b ∈ t.chains.keys, ∃ r ∈ (t.lookup b).getD [], target r = some c))

variable {target : R → Option N} {t t₀ : ChainTable N R builtin} {c b : N} {l : List R}

/-! ## Lookups -/

/-- Tables with the same chains are equal. -/
theorem ext_lookup (h : ∀ c, t.lookup c = t₀.lookup c) : t = t₀ := by
  cases t
  cases t₀
  congr
  exact Finmap.ext_lookup h

@[simp] theorem lookup_set : (t.set c l).lookup c = some l := Finmap.lookup_insert _

theorem lookup_set_of_ne (h : b ≠ c) : (t.set c l).lookup b = t.lookup b :=
  Finmap.lookup_insert_of_ne _ h

theorem set_lookup (h : t.lookup c = some l) : t.set c l = t := by
  refine ext_lookup fun b => ?_
  by_cases hb : b = c
  · rw [hb, lookup_set, h]
  · exact lookup_set_of_ne hb

@[simp] theorem set_set {l' : List R} : (t.set c l).set c l' = t.set c l' := by
  refine ext_lookup fun b => ?_
  by_cases hb : b = c
  · rw [hb, lookup_set, lookup_set]
  · rw [lookup_set_of_ne hb, lookup_set_of_ne hb, lookup_set_of_ne hb]

theorem lookup_isSome_of_builtin (h : c ∈ builtin) : (t.lookup c).isSome = true :=
  Finmap.lookup_isSome.mpr (t.builtin_mem c h)

theorem refers_iff : t.Refers target c ↔
    ∃ b l, t.lookup b = some l ∧ ∃ r ∈ l, target r = some c := by
  constructor
  · rintro ⟨b, hb, r, hr, hc⟩
    obtain ⟨l, hl⟩ := Option.isSome_iff_exists.mp
      (Finmap.lookup_isSome.mpr (Finmap.mem_keys.mp hb))
    refine ⟨b, l, hl, r, ?_, hc⟩
    rwa [lookup, hl, Option.getD_some] at hr
  · rintro ⟨b, l, hl, r, hr, hc⟩
    refine ⟨b, Finmap.mem_keys.mpr (Finmap.lookup_isSome.mp ?_), r, ?_, hc⟩
    · exact Option.isSome_iff_exists.mpr ⟨l, hl⟩
    · rwa [hl, Option.getD_some]

/-! ## Attached chains -/

/-- The chain does not exist, and nothing refers to it. -/
structure Unused (target : R → Option N) (t : ChainTable N R builtin) (c : N) : Prop where
  absent : t.lookup c = none
  unreferenced : ¬ t.Refers target c

/-- The table `t` is `t₀` with the chains `names`, each with its content, and with a jump to each
at the head of `parent`. -/
structure Attached (jump : N → R) (parent : N) (t₀ t : ChainTable N R builtin) (names : List N)
    (content : N → List R) : Prop where
  nodup : names.Nodup
  apart : parent ∉ names
  head : t.lookup parent = (t₀.lookup parent).map (names.map jump ++ ·)
  own : ∀ c ∈ names, t.lookup c = some (content c)
  other : ∀ c, c ≠ parent → c ∉ names → t.lookup c = t₀.lookup c

theorem Unused.ne_of_builtin (h : Unused target t c) (hb : b ∈ builtin) : c ≠ b := by
  rintro rfl
  have hsome := lookup_isSome_of_builtin (t := t) hb
  rw [h.absent] at hsome
  cases hsome

theorem Unused.target_ne (h : Unused target t c) (hl : t.lookup b = some l) {r : R} (hr : r ∈ l) :
    target r ≠ some c :=
  fun hc => h.unreferenced (refers_iff.mpr ⟨b, l, hl, r, hr, hc⟩)

namespace Attached

variable {jump : N → R} {parent : N} {names : List N} {content : N → List R}

theorem refl (t : ChainTable N R builtin) : Attached jump parent t t [] content where
  nodup := List.nodup_nil
  apart := List.not_mem_nil
  head := by simp
  own := by simp
  other _ _ _ := rfl

/-- With nothing attached the tables are equal. -/
theorem eq_of_nil (h : Attached jump parent t₀ t [] content) : t = t₀ := by
  refine ext_lookup fun c => ?_
  by_cases hc : c = parent
  · simpa [hc] using h.head
  · exact h.other c hc (by simp)

/-- The parent holds the jumps, and behind them what it held. -/
theorem parent_eq (h : Attached jump parent t₀ t names content) (hl : t.lookup parent = some l) :
    ∃ l₀, t₀.lookup parent = some l₀ ∧ l = names.map jump ++ l₀ := by
  rw [h.head] at hl
  obtain ⟨l₀, hl₀, heq⟩ := Option.map_eq_some_iff.mp hl
  exact ⟨l₀, hl₀, heq.symm⟩

theorem mem_erase_iff (h : Attached jump parent t₀ t names content) :
    b ∈ names.erase c ↔ b ≠ c ∧ b ∈ names :=
  h.nodup.mem_erase_iff

end Attached

section Jumps

variable {jump : N → R} {parent : N} {names : List N} {content : N → List R}
  (hjump : ∀ c, target (jump c) = some c)

include hjump

omit [DecidableEq N] in
theorem jump_injective : Function.Injective jump := by
  intro c b heq
  have htarget := congrArg target heq
  rwa [hjump, hjump, Option.some.injEq] at htarget

/-- The rules of the first table are where they were, in their order. -/
theorem Attached.others (h : Attached jump parent t₀ t names content) {reserved : List N}
    (hnames : ∀ c ∈ names, c ∈ reserved) (hunused : ∀ c ∈ reserved, Unused target t₀ c)
    {keep : R → Bool} (hkeep : ∀ r, keep r = true ↔ ∀ c ∈ reserved, target r ≠ some c)
    (hb : b ∉ reserved) : (t.lookup b).map (List.filter keep) = t₀.lookup b := by
  have hold : ∀ l, t₀.lookup b = some l → l.filter keep = l := fun l hl =>
    List.filter_eq_self.mpr fun r hr => (hkeep r).mpr fun c hc => (hunused c hc).target_ne hl hr
  have hjumps : (names.map jump).filter keep = [] := by
    rw [List.filter_eq_nil_iff]
    intro r hr
    obtain ⟨c, hc, rfl⟩ := List.mem_map.mp hr
    exact fun hk => (hkeep _).mp hk c (hnames c hc) (hjump c)
  by_cases hp : b = parent
  · rw [hp, h.head, ← hp]
    cases hl : t₀.lookup b with
    | none => rfl
    | some l => simp [hjumps, hold l hl]
  · rw [h.other b hp fun hm => hb (hnames b hm)]
    cases hl : t₀.lookup b with
    | none => rfl
    | some l => simp [hold l hl]

theorem Attached.jump_mem_iff (h : Attached jump parent t₀ t names content)
    (hc : Unused target t₀ c) (hl : t.lookup parent = some l) : jump c ∈ l ↔ c ∈ names := by
  obtain ⟨l₀, hl₀, rfl⟩ := h.parent_eq hl
  have hnew : jump c ∉ l₀ := fun hm => hc.target_ne hl₀ hm (hjump c)
  simp [hnew, List.mem_map_of_injective (jump_injective hjump)]

variable [BEq R] [LawfulBEq R]

/-- The parent jumps at most once to a chain. -/
theorem Attached.count_jump_le (h : Attached jump parent t₀ t names content)
    (hc : Unused target t₀ c) (hl : t.lookup parent = some l) : l.count (jump c) ≤ 1 := by
  obtain ⟨l₀, hl₀, rfl⟩ := h.parent_eq hl
  have hnew : jump c ∉ l₀ := fun hm => hc.target_ne hl₀ hm (hjump c)
  rw [List.count_append, List.count_eq_zero_of_not_mem hnew,
    List.count_map_of_injective _ _ (jump_injective hjump)]
  exact List.nodup_iff_count_le_one.mp h.nodup c

end Jumps

/-! ## Commands -/

variable [DecidableEq R]

section Commands

variable (target : R → Option N)

/-- The table after a command; `none` is a refusal. -/
def run (t : ChainTable N R builtin) : ChainCommand N R → Option (ChainTable N R builtin)
  | .new c => if (t.lookup c).isSome then none else some (t.set c [])
  | .flush c => (t.lookup c).map fun _ => t.set c []
  | .append c r => (t.lookup c).map fun l => t.set c (l ++ [r])
  | .insertFirst c r => (t.lookup c).map fun l => t.set c (r :: l)
  | .check c r => (t.lookup c).bind fun l => if r ∈ l then some t else none
  | .delete c r => (t.lookup c).bind fun l => if r ∈ l then some (t.set c (l.erase r)) else none
  | .remove c =>
    if h : c ∈ builtin then none
    else if t.lookup c = some [] ∧ ¬ t.Refers target c then some (t.drop c h) else none

/-- The table after a command that may be refused. -/
def attempt (t : ChainTable N R builtin) (cmd : ChainCommand N R) : ChainTable N R builtin :=
  (t.run target cmd).getD t

end Commands

theorem attempt_new : t.attempt target (.new c) = t.set c ((t.lookup c).getD []) := by
  cases h : t.lookup c with
  | none => simp [attempt, run, h]
  | some l => simp [attempt, run, h, set_lookup h]

/-- Creating and emptying a chain leaves it empty, whether or not it was there. -/
theorem attempt_new_flush :
    (t.attempt target (.new c)).attempt target (.flush c) = t.set c [] := by
  rw [attempt_new]
  simp [attempt, run]

theorem lookup_attempt_flush : (t.attempt target (.flush c)).lookup b =
    if b = c then (t.lookup c).map fun _ => [] else t.lookup b := by
  cases h : t.lookup c with
  | none => simp +contextual [attempt, run, h]
  | some l =>
    simp only [attempt, run, h, Option.map_some, Option.getD_some]
    split
    · next hb => rw [hb, lookup_set]
    · next hb => exact lookup_set_of_ne hb

/-- A rule that is not there need not be deleted. -/
theorem lookup_attempt_delete {r : R} : (t.attempt target (.delete c r)).lookup b =
    if b = c then (t.lookup c).map (List.erase · r) else t.lookup b := by
  cases h : t.lookup c with
  | none => simp +contextual [attempt, run, h]
  | some l =>
    simp only [attempt, run, h, Option.bind_some, Option.map_some]
    by_cases hr : r ∈ l
    · rw [if_pos hr, Option.getD_some]
      split
      · next hb => rw [hb, lookup_set]
      · next hb => exact lookup_set_of_ne hb
    · rw [if_neg hr, Option.getD_none, List.erase_of_not_mem hr]
      split
      · next hb => rw [hb, h]
      · rfl

/-- The first two commands of a detaching: the parent loses the rule and the chain its rules. -/
theorem lookup_attempt_delete_flush {parent : N} {r : R} (hne : c ≠ parent)
    (hl : t.lookup parent = some l) :
    ((t.attempt target (.delete parent r)).attempt target (.flush c)).lookup b =
      if b = c then (t.lookup c).map fun _ => []
      else if b = parent then some (l.erase r) else t.lookup b := by
  rw [lookup_attempt_flush, lookup_attempt_delete, lookup_attempt_delete, if_neg hne, hl,
    Option.map_some]

/-- A chain that is empty or absent is gone once it is removed, if nothing refers to it. -/
theorem lookup_attempt_remove (hb : c ∉ builtin) (hempty : ∀ l, t.lookup c = some l → l = [])
    (href : ¬ t.Refers target c) : (t.attempt target (.remove c)).lookup b =
      if b = c then none else t.lookup b := by
  cases hc : t.lookup c with
  | none =>
    have hsame : t.attempt target (.remove c) = t := by simp [attempt, run, hc]
    rw [hsame]
    split
    · next heq => rw [heq, hc]
    · rfl
  | some l =>
    obtain rfl := hempty l hc
    simp only [attempt, run, dif_neg hb, if_pos (And.intro hc href), Option.getD_some]
    split
    · next heq => rw [heq]; exact Finmap.lookup_erase _ _
    · next hne => exact Finmap.lookup_erase_ne hne

/-! ## Attaching and detaching -/

section Attach

variable (target : R → Option N) (jump : N → R) (parent : N)

/-- The chain holds the rules, and the parent jumps to it. -/
def install (t : ChainTable N R builtin) (c : N) (rules : List R) : ChainTable N R builtin :=
  let t := t.set c rules
  if (t.run target (.check parent (jump c))).isSome then t
  else t.attempt target (.insertFirst parent (jump c))

/-- The jump is deleted, and the chain emptied and removed. -/
def detach (t : ChainTable N R builtin) (c : N) : ChainTable N R builtin :=
  ((t.attempt target (.delete parent (jump c))).attempt target (.flush c)).attempt target
    (.remove c)

end Attach

namespace Attached

variable {jump : N → R} {parent : N} {names : List N} {content : N → List R}
  (hparent : parent ∈ builtin) (hjump : ∀ c, target (jump c) = some c)

include hparent hjump

/-- Installing a chain that is attached replaces its rules; another one is attached first. -/
theorem install (h : Attached jump parent t₀ t names content) (hc : Unused target t₀ c)
    (rules : List R) : Attached jump parent t₀ (t.install target jump parent c rules)
      (if c ∈ names then names else c :: names) (Function.update content c rules) := by
  have hne : c ≠ parent := hc.ne_of_builtin hparent
  obtain ⟨l, hl⟩ := Option.isSome_iff_exists.mp (t.lookup_isSome_of_builtin hparent)
  have hset : (t.set c rules).lookup parent = some l := (lookup_set_of_ne hne.symm).trans hl
  have hown : ∀ b ∈ names, (t.set c rules).lookup b = some (Function.update content c rules b) := by
    intro b hb
    by_cases heq : b = c
    · rw [heq, lookup_set, Function.update_self]
    · rw [lookup_set_of_ne heq, h.own b hb, Function.update_of_ne heq]
  by_cases hm : c ∈ names
  · have hinstall : t.install target jump parent c rules = t.set c rules := by
      simp [ChainTable.install, run, hset, (h.jump_mem_iff hjump hc hl).mpr hm]
    rw [hinstall, if_pos hm]
    refine ⟨h.nodup, h.apart, ?_, hown, fun b hp hb => ?_⟩
    · rw [lookup_set_of_ne hne.symm, h.head]
    · have hbc : b ≠ c := fun heq => hb (heq ▸ hm)
      rw [lookup_set_of_ne hbc, h.other b hp hb]
  · have hinstall : t.install target jump parent c rules =
        (t.set c rules).set parent (jump c :: l) := by
      simp [ChainTable.install, run, attempt, hset, mt (h.jump_mem_iff hjump hc hl).mp hm]
    rw [hinstall, if_neg hm]
    refine ⟨List.nodup_cons.mpr ⟨hm, h.nodup⟩, ?_, ?_, fun b hb => ?_, fun b hp hb => ?_⟩
    · exact fun hp => (List.mem_cons.mp hp).elim hne.symm h.apart
    · obtain ⟨l₀, hl₀, rfl⟩ := h.parent_eq hl
      rw [lookup_set, hl₀]
      rfl
    · rcases List.mem_cons.mp hb with rfl | hb
      · rw [lookup_set_of_ne hne, lookup_set, Function.update_self]
      · have hbp : b ≠ parent := by
          rintro rfl
          exact h.apart hb
        rw [lookup_set_of_ne hbp, hown b hb]
    · rw [List.mem_cons, not_or] at hb
      rw [lookup_set_of_ne hp, lookup_set_of_ne hb.1, h.other b hp hb.2]

omit hparent in
/-- Deleting the jump to a chain leaves the other ones. -/
theorem erase_jump (h : Attached jump parent t₀ t names content) (hc : Unused target t₀ c)
    {l : List R} (hl : t.lookup parent = some l) : ∃ l₀, t₀.lookup parent = some l₀ ∧
      l.erase (jump c) = (names.erase c).map jump ++ l₀ := by
  obtain ⟨l₀, hl₀, rfl⟩ := h.parent_eq hl
  refine ⟨l₀, hl₀, ?_⟩
  by_cases hm : c ∈ names
  · rw [List.erase_append_left _ (List.mem_map_of_mem hm), List.map_erase (jump_injective hjump)]
  · have hnot : jump c ∉ names.map jump ++ l₀ := mt (h.jump_mem_iff hjump hc hl).mp hm
    rw [List.erase_of_not_mem hnot, List.erase_of_not_mem hm]

omit [DecidableEq R] hparent in
/-- Once the parent has lost the jump and the chain its rules, nothing refers to the chain. -/
theorem not_refers (h : Attached jump parent t₀ t names content) (hc : Unused target t₀ c)
    (hcontent : ∀ b ∈ names, ∀ r ∈ content b, target r ≠ some c) {u : ChainTable N R builtin}
    {l₀ : List R} (hl₀ : t₀.lookup parent = some l₀)
    (hu : ∀ b, u.lookup b = if b = c then (t.lookup c).map fun _ => []
      else if b = parent then some ((names.erase c).map jump ++ l₀) else t.lookup b) :
    ¬ u.Refers target c := by
  rw [refers_iff]
  rintro ⟨b, k, hk, r, hr, htarget⟩
  rw [hu] at hk
  split_ifs at hk with hbc hbp
  · obtain ⟨_, -, rfl⟩ := Option.map_eq_some_iff.mp hk
    cases hr
  · obtain rfl := Option.some.inj hk
    rcases List.mem_append.mp hr with hr | hr
    · obtain ⟨d, hd, rfl⟩ := List.mem_map.mp hr
      rw [hjump, Option.some.injEq] at htarget
      exact (h.mem_erase_iff.mp hd).1 htarget
    · exact hc.target_ne hl₀ hr htarget
  · by_cases hb : b ∈ names
    · rw [h.own b hb, Option.some.injEq] at hk
      exact hcontent b hb r (hk ▸ hr) htarget
    · rw [h.other b hbp hb] at hk
      exact hc.target_ne hk hr htarget

/-- Detaching a chain that no attached rule refers to takes it away. -/
theorem detach (h : Attached jump parent t₀ t names content) (hc : Unused target t₀ c)
    (hcontent : ∀ b ∈ names, ∀ r ∈ content b, target r ≠ some c) :
    Attached jump parent t₀ (t.detach target jump parent c) (names.erase c) content := by
  have hne : c ≠ parent := hc.ne_of_builtin hparent
  obtain ⟨l, hl⟩ := Option.isSome_iff_exists.mp (t.lookup_isSome_of_builtin hparent)
  obtain ⟨l₀, hl₀, herase⟩ := h.erase_jump hjump hc hl
  -- after the first two commands the parent has lost the jump and the chain its rules
  generalize ht : (t.attempt target (.delete parent (jump c))).attempt target (.flush c) = u
  have hu : ∀ b, u.lookup b = if b = c then (t.lookup c).map fun _ => []
      else if b = parent then some ((names.erase c).map jump ++ l₀) else t.lookup b := by
    intro b
    rw [← ht, lookup_attempt_delete_flush hne hl, herase]
  have hempty : ∀ l, u.lookup c = some l → l = [] := by
    intro l hl
    rw [hu, if_pos rfl] at hl
    obtain ⟨_, -, rfl⟩ := Option.map_eq_some_iff.mp hl
    rfl
  have hfinal : ∀ b, (t.detach target jump parent c).lookup b = if b = c then none
      else if b = parent then some ((names.erase c).map jump ++ l₀) else t.lookup b := by
    intro b
    rw [ChainTable.detach, ht, lookup_attempt_remove (fun hb => hc.ne_of_builtin hb rfl) hempty
      (h.not_refers hjump hc hcontent hl₀ hu), hu]
    split <;> rfl
  refine ⟨h.nodup.erase c, fun hp => h.apart (List.mem_of_mem_erase hp), ?_, fun b hb => ?_,
    fun b hp hb => ?_⟩
  · rw [hfinal, if_neg hne.symm, if_pos rfl, hl₀, Option.map_some]
  · have hb' := h.mem_erase_iff.mp hb
    have hbp : b ≠ parent := by
      rintro rfl
      exact h.apart hb'.2
    rw [hfinal, if_neg hb'.1, if_neg hbp, h.own b hb'.2]
  · rw [hfinal, if_neg hp]
    split
    · next heq => rw [heq, hc.absent]
    · next hbc => exact h.other b hp fun hm => hb (h.mem_erase_iff.mpr ⟨hbc, hm⟩)

end Attached

end ChainTable

import FocusGuard.Lib.Scripts
import Mathlib.Tactic.Tauto

/-!
# Checking before inserting

Processes that insert an entry only after a check has not found it. Where check and insertion are
two commands, the check of another process can fall between them, and the entry is inserted twice.

## Main definitions

* `CheckedInsertion`: the two commands of each entry, and how often a state holds it.
* `CheckedInsertion.Overlaps`: a check while another process stands in front of its insertion.

## Main results

* `contested_run`: an entry is contested exactly if it was, or an event overlapped.
* `held_le_one_iff`: at the end of a race no entry is held twice exactly if no event overlapped.
-/

/-- A check finds an entry that is held, and an insertion adds to what is held. A neutral command
does neither. -/
structure CheckedInsertion {C S : Type} (act : C → S → Bool × S) (K : Type) [DecidableEq K] where
  check : K → C
  insert : K → C
  neutral : C → Prop
  held : K → S → Nat
  act_check : ∀ k s, act (check k) s = (decide (0 < held k s), s)
  held_insert : ∀ k k' s, held k' (act (insert k) s).2 = held k' s + if k' = k then 1 else 0
  held_neutral : ∀ cmd, neutral cmd → ∀ k s, held k (act cmd s).2 = held k s
  check_injective : Function.Injective check
  not_neutral_check : ∀ k, ¬ neutral (check k)
  nonempty : Nonempty S

namespace CheckedInsertion

variable {P C S K : Type} [DecidableEq P] [DecidableEq K] {act : C → S → Bool × S}
  (I : CheckedInsertion act K)

/-- An entry is inserted only right after a check that has not found it. -/
inductive Guarded : Script C → Prop where
  | done : Guarded .done
  | neutral {cmd : C} {next : Bool → Script C} (hcmd : I.neutral cmd)
      (hnext : ∀ ok, Guarded (next ok)) : Guarded (.run cmd next)
  | ensure (k : K) {found : Script C} {inserted : Bool → Script C} (hfound : Guarded found)
      (hinserted : ∀ ok, Guarded (inserted ok)) :
      Guarded (.run (I.check k) fun present =>
        if present then found else .run (I.insert k) inserted)

/-- What is left of a guarded script, between its commands. -/
inductive Standing : Script C → Prop where
  | guarded {script : Script C} (h : I.Guarded script) : Standing script
  | pending (k : K) {inserted : Bool → Script C} (hinserted : ∀ ok, I.Guarded (inserted ok)) :
      Standing (.run (I.insert k) inserted)

/-- The insertion of the entry is next. -/
def Pending (k : K) (script : Script C) : Prop := script.head? = some (I.insert k)

/-- An entry is held twice, or will be. -/
def Contested (k : K) (r : Race P C S) : Prop :=
  2 ≤ I.held k r.state ∨ (1 ≤ I.held k r.state ∧ ∃ p, I.Pending k (r.rest p)) ∨
    ∃ p q, p ≠ q ∧ I.Pending k (r.rest p) ∧ I.Pending k (r.rest q)

/-- The event is a check while a process stands in front of its insertion of the entry. -/
def OverlapsAt (k : K) (ev : Race P C S × P) : Prop :=
  (ev.1.rest ev.2).head? = some (I.check k) ∧ ∃ q, I.Pending k (ev.1.rest q)

/-- The event is such a check, of some entry. -/
def Overlaps (ev : Race P C S × P) : Prop := ∃ k, I.OverlapsAt k ev

/-- What is left to every process is left of a guarded script. -/
def AllStanding (r : Race P C S) : Prop := ∀ p, I.Standing (r.rest p)

variable {I} {k k' : K} {cmd : C} {r r' : Race P C S} {ev : Race P C S × P}
  {evs : List (Race P C S × P)} {script : Script C}

/-! ## Commands -/

theorem check_ne_insert : I.check k ≠ I.insert k' := by
  intro heq
  obtain ⟨s⟩ := I.nonempty
  have hheld := I.held_insert k' k' s
  rw [← heq, I.act_check, if_pos rfl] at hheld
  exact absurd hheld (Nat.ne_of_lt (Nat.lt_succ_self _))

theorem insert_injective (h : I.insert k = I.insert k') : k = k' := by
  obtain ⟨s⟩ := I.nonempty
  by_contra hne
  have hheld := I.held_insert k k s
  rw [h, I.held_insert, if_neg hne, if_pos rfl] at hheld
  omega

theorem not_neutral_insert : ¬ I.neutral (I.insert k) := by
  intro h
  obtain ⟨s⟩ := I.nonempty
  have hheld := I.held_insert k k s
  rw [I.held_neutral _ h, if_pos rfl] at hheld
  omega

theorem Guarded.not_pending (h : I.Guarded script) : ¬ I.Pending k script := by
  intro hpending
  cases h with
  | done => cases hpending
  | neutral hcmd => exact not_neutral_insert (Option.some.inj hpending ▸ hcmd)
  | ensure => exact check_ne_insert (Option.some.inj hpending)

/-! ## One step -/

variable (I) in
/-- What a step of a process can be. -/
inductive Move (r r' : Race P C S) (p : P) : Prop where
  | neutral (cmd : C) (hhead : (r.rest p).head? = some cmd) (hneutral : I.neutral cmd)
      (hheld : ∀ k, I.held k r'.state = I.held k r.state)
      (hpending : ∀ k q, I.Pending k (r'.rest q) ↔ I.Pending k (r.rest q))
  | check (k : K) (hhead : (r.rest p).head? = some (I.check k)) (hstate : r'.state = r.state)
      (hpending : ∀ k' q, I.Pending k' (r'.rest q) ↔
        I.Pending k' (r.rest q) ∨ q = p ∧ k' = k ∧ I.held k r.state = 0)
  | insert (k : K) (hhead : (r.rest p).head? = some (I.insert k))
      (hheld : ∀ k', I.held k' r'.state = I.held k' r.state + if k' = k then 1 else 0)
      (hpending : ∀ k' q, I.Pending k' (r'.rest q) ↔ I.Pending k' (r.rest q) ∧ q ≠ p)

theorem AllStanding.update (h : I.AllStanding r) {p : P} (s : S) (hs : I.Standing script) :
    I.AllStanding ⟨s, Function.update r.rest p script⟩ := by
  intro q
  dsimp only
  by_cases hq : q = p
  · rw [hq, Function.update_self]
    exact hs
  · rw [Function.update_of_ne hq]
    exact h q

theorem pending_update {f : P → Script C} {p q : P} : I.Pending k (Function.update f p script q) ↔
    (q = p ∧ I.Pending k script) ∨ (q ≠ p ∧ I.Pending k (f q)) := by
  by_cases hq : q = p
  · rw [hq, Function.update_self]
    simp
  · rw [Function.update_of_ne hq]
    simp [hq]

/-- A process that is guarded before and after its step is not pending. -/
theorem pending_update_of_guarded {p : P} (hbefore : I.Guarded (r.rest p)) (h : I.Guarded script)
    (k : K) (q : P) : I.Pending k (Function.update r.rest p script q) ↔ I.Pending k (r.rest q) := by
  rw [pending_update]
  by_cases hq : q = p
  · subst hq
    simp [h.not_pending, hbefore.not_pending]
  · simp [hq]

theorem step_move (hstanding : I.AllStanding r) (h : Race.Step act r ev r') :
    I.AllStanding r' ∧ ev.1 = r ∧ I.Move r r' ev.2 := by
  obtain ⟨hev, ⟨cmd, hhead⟩, rfl⟩ := h
  generalize ev.2 = p at hhead ⊢
  have hp := hstanding p
  generalize hrest : r.rest p = script at hp hhead
  cases hp with
  | guarded hguarded =>
    cases hguarded with
    | done => cases hhead
    | @neutral cmd next hcmd hnext =>
      have hbefore : I.Guarded (r.rest p) := hrest ▸ .neutral hcmd hnext
      rw [Race.next_of_run hrest]
      exact ⟨AllStanding.update hstanding _ (.guarded (hnext _)), hev,
        .neutral cmd (by rw [hrest]; rfl) hcmd (fun k => I.held_neutral cmd hcmd k r.state)
          (pending_update_of_guarded hbefore (hnext _))⟩
    | @ensure k found inserted hfound hinserted =>
      have hbefore : I.Guarded (r.rest p) := hrest ▸ .ensure k hfound hinserted
      rw [Race.next_of_run hrest, I.act_check]
      by_cases hheld : 0 < I.held k r.state
      · rw [decide_eq_true hheld]
        refine ⟨AllStanding.update hstanding _ (.guarded hfound), hev,
          .check k (by rw [hrest]; rfl) rfl fun k' q => ?_⟩
        refine (pending_update_of_guarded hbefore hfound k' q).trans (or_iff_left ?_).symm
        omega
      · rw [decide_eq_false hheld]
        refine ⟨AllStanding.update hstanding _ (.pending k hinserted), hev,
          .check k (by rw [hrest]; rfl) rfl fun k' q => ?_⟩
        have hpending : I.Pending k' (.run (I.insert k) inserted) ↔ k' = k := by
          refine ⟨fun h => (insert_injective (Option.some.inj h)).symm, ?_⟩
          rintro rfl
          rfl
        refine pending_update.trans ?_
        rw [if_neg Bool.false_ne_true, hpending]
        have hnot := hbefore.not_pending (k := k')
        by_cases hq : q = p
        · subst hq
          simp [hnot]
          omega
        · simp [hq]
  | @pending k inserted hinserted =>
    rw [Race.next_of_run hrest]
    refine ⟨AllStanding.update hstanding _ (.guarded (hinserted _)), hev,
      .insert k (by rw [hrest]; rfl) (fun k' => I.held_insert k k' r.state) fun k' q => ?_⟩
    refine pending_update.trans ?_
    simp [(hinserted _).not_pending, and_comm]

/-! ## Contested entries -/

omit [DecidableEq P] in
theorem contested_congr (hheld : I.held k r'.state = I.held k r.state)
    (hpending : ∀ q, I.Pending k (r'.rest q) ↔ I.Pending k (r.rest q)) :
    I.Contested k r' ↔ I.Contested k r := by
  simp only [Contested, hheld, hpending]

omit [DecidableEq P] in
/-- A process that gets pending contests an entry if there is another one. -/
theorem contested_of_pending {p : P} (hzero : I.held k r.state = 0)
    (hheld : I.held k r'.state = I.held k r.state) (hself : ¬ I.Pending k (r.rest p))
    (hpending : ∀ q, I.Pending k (r'.rest q) ↔ I.Pending k (r.rest q) ∨ q = p) :
    I.Contested k r' ↔ I.Contested k r ∨ ∃ q, I.Pending k (r.rest q) := by
  unfold Contested
  simp only [hheld, hpending]
  constructor
  · rintro (htwo | ⟨hone, -⟩ | ⟨q, q', hne, hq | rfl, hq'⟩)
    · omega
    · omega
    · exact .inr ⟨q, hq⟩
    · exact .inr ⟨q', hq'.resolve_right hne.symm⟩
  · rintro ((htwo | ⟨hone, -⟩ | ⟨q, q', hne, hq, hq'⟩) | ⟨q, hq⟩)
    · omega
    · omega
    · exact .inr (.inr ⟨q, q', hne, .inl hq, .inl hq'⟩)
    · refine .inr (.inr ⟨q, p, ?_, .inl hq, .inr rfl⟩)
      rintro rfl
      exact hself hq

/-- Where a pending process inserts, what was pending is held. -/
theorem contested_of_insert {p : P} (hp : I.Pending k (r.rest p))
    (hheld : I.held k r'.state = I.held k r.state + 1)
    (hpending : ∀ q, I.Pending k (r'.rest q) ↔ I.Pending k (r.rest q) ∧ q ≠ p) :
    I.Contested k r' ↔ I.Contested k r := by
  unfold Contested
  simp only [hheld, hpending]
  constructor
  · rintro (htwo | ⟨-, q, hq, hne⟩ | ⟨q, q', hne, ⟨hq, -⟩, hq', -⟩)
    · exact .inr (.inl ⟨by omega, p, hp⟩)
    · exact .inr (.inr ⟨q, p, hne, hq, hp⟩)
    · exact .inr (.inr ⟨q, q', hne, hq, hq'⟩)
  · rintro (htwo | ⟨hone, -⟩ | ⟨q, q', hne, hq, hq'⟩)
    · exact .inl (by omega)
    · exact .inl (by omega)
    · by_cases heq : q = p
      · exact .inr (.inl ⟨by omega, q', hq', fun h => hne (heq.trans h.symm)⟩)
      · exact .inr (.inl ⟨by omega, q, hq, heq⟩)

/-- An entry gets contested by an overlapping check, and stays so. -/
theorem contested_step (hstanding : I.AllStanding r) (h : Race.Step act r ev r') (k : K) :
    I.Contested k r' ↔ I.Contested k r ∨ I.OverlapsAt k ev := by
  obtain ⟨-, hev, hmove⟩ := step_move hstanding h
  unfold OverlapsAt
  rw [hev]
  cases hmove with
  | neutral cmd hhead hneutral hheld hpending =>
    have hcheck : ¬ (r.rest ev.2).head? = some (I.check k) := by
      rw [hhead, Option.some.injEq]
      rintro rfl
      exact I.not_neutral_check k hneutral
    rw [contested_congr (hheld k) (hpending k), or_iff_left fun h => hcheck h.1]
  | check k₀ hhead hstate hpending =>
    have hcheck : (r.rest ev.2).head? = some (I.check k) ↔ k = k₀ := by
      rw [hhead, Option.some.injEq]
      exact ⟨fun h => (I.check_injective h).symm, fun h => congrArg _ h.symm⟩
    have hself : ¬ I.Pending k (r.rest ev.2) := by
      unfold Pending
      rw [hhead, Option.some.injEq]
      exact check_ne_insert
    have hheld : I.held k r'.state = I.held k r.state := congrArg (I.held k) hstate
    rw [hcheck]
    by_cases hk : k = k₀ ∧ I.held k₀ r.state = 0
    · obtain ⟨rfl, hzero⟩ := hk
      rw [contested_of_pending hzero hheld hself fun q => by
        rw [hpending, and_iff_left ⟨rfl, hzero⟩], and_iff_right rfl]
    · rw [contested_congr hheld fun q => by rw [hpending, or_iff_left fun h => hk h.2]]
      refine (or_iff_left_of_imp ?_).symm
      rintro ⟨rfl, q, hq⟩
      have hpos : I.held k r.state ≠ 0 := fun hzero => hk ⟨rfl, hzero⟩
      exact .inr (.inl ⟨by omega, q, hq⟩)
  | insert k₀ hhead hheld hpending =>
    have hcheck : ¬ (r.rest ev.2).head? = some (I.check k) := by
      rw [hhead, Option.some.injEq]
      exact check_ne_insert.symm
    have hself : I.Pending k (r.rest ev.2) ↔ k = k₀ := by
      unfold Pending
      rw [hhead, Option.some.injEq]
      exact ⟨fun h => (insert_injective h).symm, fun h => congrArg _ h.symm⟩
    rw [or_iff_left fun h => hcheck h.1]
    by_cases hk : k = k₀
    · refine contested_of_insert (hself.mpr hk) ?_ (hpending k)
      rw [hheld, if_pos hk]
    · refine contested_congr ?_ fun q => ?_
      · rw [hheld, if_neg hk, Nat.add_zero]
      · rw [hpending]
        refine and_iff_left_of_imp ?_
        rintro hq rfl
        exact hk (hself.mp hq)

theorem contested_run (hstanding : I.AllStanding r) (h : Run (Race.Step act) r evs r') (k : K) :
    I.AllStanding r' ∧ (I.Contested k r' ↔ I.Contested k r ∨ ∃ ev ∈ evs, I.OverlapsAt k ev) := by
  induction h with
  | nil => simp [hstanding]
  | cons hstep _ ih =>
    obtain ⟨hstanding', hrun⟩ := ih (step_move hstanding hstep).1
    refine ⟨hstanding', hrun.trans ?_⟩
    rw [contested_step hstanding hstep k, or_assoc, List.exists_mem_cons_iff]

/-- What the neutral commands and the insertions preserve holds after every race. -/
theorem preserves {Q : S → Prop} (hneutral : ∀ cmd s, I.neutral cmd → Q s → Q (act cmd s).2)
    (hinsert : ∀ k s, Q s → Q (act (I.insert k) s).2) (hstanding : I.AllStanding r)
    (h : Run (Race.Step act) r evs r') (hr : Q r.state) : Q r'.state := by
  induction h with
  | nil => exact hr
  | @cons r r₁ _ ev _ hstep _ ih =>
    obtain ⟨hstanding', -, hmove⟩ := step_move hstanding hstep
    refine ih hstanding' ?_
    obtain ⟨-, -, rfl⟩ := hstep
    cases hmove with
    | neutral cmd hhead hcmd =>
      rw [Race.state_next hhead]
      exact hneutral cmd _ hcmd hr
    | check k hhead hstate => exact hstate ▸ hr
    | insert k hhead =>
      rw [Race.state_next hhead]
      exact hinsert k _ hr

/-- At the end of a race no entry is held twice exactly if no event overlapped. -/
theorem held_le_one_iff (hguarded : ∀ p, I.Guarded (r.rest p)) (hstart : ∀ k, I.held k r.state = 0)
    (h : Run (Race.Step act) r evs r') (hdone : r'.Done) :
    (∀ k, I.held k r'.state ≤ 1) ↔ ∀ ev ∈ evs, ¬ I.Overlaps ev := by
  have hfresh : ∀ k, ¬ I.Contested k r := by
    rintro k (htwo | ⟨hone, -⟩ | ⟨p, q, -, hp, -⟩)
    · rw [hstart] at htwo
      omega
    · rw [hstart] at hone
      omega
    · exact (hguarded p).not_pending hp
  have hend : ∀ k, I.Contested k r' ↔ 2 ≤ I.held k r'.state := by
    have hnone : ∀ k p, ¬ I.Pending k (r'.rest p) := by
      intro k p hpending
      rw [Pending, hdone p] at hpending
      cases hpending
    intro k
    simp [Contested, hnone]
  have hrun : ∀ k, 2 ≤ I.held k r'.state ↔ ∃ ev ∈ evs, I.OverlapsAt k ev := by
    intro k
    rw [← hend, (contested_run (fun p => .guarded (hguarded p)) h k).2, or_iff_right (hfresh k)]
  constructor
  · rintro hheld ev hev ⟨k, hoverlaps⟩
    have htwo := (hrun k).mpr ⟨ev, hev, hoverlaps⟩
    exact absurd (hheld k) (by omega)
  · intro hnone k
    by_contra hheld
    obtain ⟨ev, hev, hoverlaps⟩ := (hrun k).mp (by omega)
    exact hnone ev hev ⟨k, hoverlaps⟩

end CheckedInsertion

import Mathlib.Logic.Basic
import Mathlib.Data.List.Basic

/-!
# Finite runs of a labelled transition system

A run records the events it takes, so that a hypothesis about a run can speak of every
event in it. `Run.invariant` is the one induction that every safety theorem over runs uses.
-/

/-- `Run step s es t`: the events `es`, taken in this order, lead from `s` to `t`. -/
inductive Run {S A : Type} (step : S → A → S → Prop) : S → List A → S → Prop where
  | nil (s : S) : Run step s [] s
  | cons {s t u : S} {e : A} {es : List A} :
      step s e t → Run step t es u → Run step s (e :: es) u

namespace Run

variable {S A : Type} {step : S → A → S → Prop} {s t u : S} {e : A} {es fs : List A}

theorem single (h : step s e t) : Run step s [e] t := .cons h (.nil t)

theorem append (h : Run step s es t) (h' : Run step t fs u) : Run step s (es ++ fs) u := by
  induction h with
  | nil => exact h'
  | cons hs _ ih => exact .cons hs (ih h')

/-- Every run over `es ++ fs` passes through a state between the two parts. -/
theorem split (h : Run step s (es ++ fs) u) : ∃ t, Run step s es t ∧ Run step t fs u := by
  induction es generalizing s with
  | nil => exact ⟨s, .nil s, h⟩
  | cons e es ih =>
    cases h with
    | cons hs hr =>
      obtain ⟨t, h₁, h₂⟩ := ih hr
      exact ⟨t, .cons hs h₁, h₂⟩

/-- What each permitted event preserves holds at the end of every run of permitted events. -/
theorem invariant {I : S → Prop} {ok : A → Prop}
    (hstep : ∀ s e t, ok e → I s → step s e t → I t)
    (h : Run step s es t) (hok : ∀ e ∈ es, ok e) (hs : I s) : I t := by
  induction h with
  | nil => exact hs
  | cons hst _ ih =>
    refine ih (fun e he => hok e (List.mem_cons_of_mem _ he)) ?_
    exact hstep _ _ _ (hok _ List.mem_cons_self) hs hst

theorem preserves {I : S → Prop} (hstep : ∀ s e t, I s → step s e t → I t)
    (h : Run step s es t) (hs : I s) : I t := by
  induction h with
  | nil => exact hs
  | cons hst _ ih => exact ih (hstep _ _ _ hs hst)

/-- An invariant may speak of the events so far. -/
theorem history {I : List A → S → Prop}
    (hstep : ∀ es s e t, I es s → step s e t → I (es ++ [e]) t)
    (h : Run step s es t) (hs : I [] s) : I es t := by
  suffices ∀ past, I past s → I (past ++ es) t from this [] hs
  clear hs
  induction h with
  | nil =>
    intro past hpast
    rwa [List.append_nil]
  | cons hst _ ih =>
    intro past hpast
    rw [List.append_cons]
    exact ih _ (hstep _ _ _ _ hpast hst)

/-- A relation to a state that is folded over the events. -/
theorem fold {T : Type} {f : T → A → T} {R : T → S → Prop} {ok : A → Prop}
    (hstep : ∀ a s e t, ok e → R a s → step s e t → R (f a e) t) {a : T}
    (h : Run step s es t) (hok : ∀ e ∈ es, ok e) (hs : R a s) : R (es.foldl f a) t := by
  induction h generalizing a with
  | nil => exact hs
  | cons hst _ ih =>
    refine ih (fun e he => hok e (List.mem_cons_of_mem _ he)) ?_
    exact hstep _ _ _ _ (hok _ List.mem_cons_self) hs hst

/-- A run may be replayed in any system that has its steps. -/
theorem mono {step' : S → A → S → Prop} (hstep : ∀ s e t, step s e t → step' s e t)
    (h : Run step s es t) : Run step' s es t := by
  induction h with
  | nil s => exact .nil s
  | cons hs _ ih => exact .cons (hstep _ _ _ hs) ih

/-- A simulation that holds at the start of a run holds at its end. -/
theorem simulate {T : Type} {step' : T → A → T → Prop} {R : S → T → Prop}
    (hstep : ∀ s e t s', R s s' → step s e t → ∃ t', step' s' e t' ∧ R t t')
    {s' : T} (h : Run step s es t) (hR : R s s') : ∃ t', Run step' s' es t' ∧ R t t' := by
  induction h generalizing s' with
  | nil => exact ⟨s', .nil s', hR⟩
  | cons hs _ ih =>
    obtain ⟨t', hs', hR'⟩ := hstep _ _ _ _ hR hs
    obtain ⟨u', hr', hR''⟩ := ih hR'
    exact ⟨u', .cons hs' hr', hR''⟩

/-- So does one that takes a run for each step. -/
theorem simulateRuns {T B : Type} {step' : T → B → T → Prop} {R : S → T → Prop}
    (hstep : ∀ s e t s', R s s' → step s e t → ∃ fs t', Run step' s' fs t' ∧ R t t')
    {s' : T} (h : Run step s es t) (hR : R s s') : ∃ fs t', Run step' s' fs t' ∧ R t t' := by
  induction h generalizing s' with
  | nil => exact ⟨[], s', .nil s', hR⟩
  | cons hs _ ih =>
    obtain ⟨fs, t', hr, hR'⟩ := hstep _ _ _ _ hR hs
    obtain ⟨fs', u', hr', hR''⟩ := ih hR'
    exact ⟨fs ++ fs', u', hr.append hr', hR''⟩

end Run

/-! ## Two systems side by side -/

/-- Every step is a step of one of the two systems. -/
inductive Interleaved {S T A B : Type} (step : S → A → S → Prop) (step' : T → B → T → Prop) :
    S × T → A ⊕ B → S × T → Prop where
  | left {s s' : S} {t : T} {a : A} :
      step s a s' → Interleaved step step' (s, t) (.inl a) (s', t)
  | right {s : S} {t t' : T} {b : B} :
      step' t b t' → Interleaved step step' (s, t) (.inr b) (s, t')

namespace Run

variable {S T A B : Type} {step : S → A → S → Prop} {step' : T → B → T → Prop} {p p' : S × T}
  {es : List (A ⊕ B)}

/-- A run of both is a run of the first. -/
theorem left (h : Run (Interleaved step step') p es p') :
    Run step p.1 (es.filterMap Sum.getLeft?) p'.1 := by
  induction h with
  | nil p => exact .nil p.1
  | cons hs _ ih =>
    cases hs with
    | left hs => exact .cons hs ih
    | right => exact ih

/-- A run of both is a run of the second. -/
theorem right (h : Run (Interleaved step step') p es p') :
    Run step' p.2 (es.filterMap Sum.getRight?) p'.2 := by
  induction h with
  | nil p => exact .nil p.2
  | cons hs _ ih =>
    cases hs with
    | left => exact ih
    | right hs => exact .cons hs ih

end Run

/-- The states that some run of permitted events reaches from an initial state. -/
def Reachable {S A : Type} (initial : S → Prop) (step : S → A → S → Prop) (ok : A → Prop)
    (t : S) : Prop :=
  ∃ s es, initial s ∧ Run step s es t ∧ ∀ e ∈ es, ok e

namespace Reachable

variable {S A : Type} {initial : S → Prop} {step : S → A → S → Prop} {ok : A → Prop}
  {s t : S} {es : List A}

theorem init (h : initial s) : Reachable initial step ok s :=
  ⟨s, [], h, .nil s, by simp⟩

theorem run (h : Reachable initial step ok s) (hr : Run step s es t)
    (hok : ∀ e ∈ es, ok e) : Reachable initial step ok t := by
  obtain ⟨s₀, es₀, h₀, hr₀, hok₀⟩ := h
  refine ⟨s₀, es₀ ++ es, h₀, hr₀.append hr, fun e he => ?_⟩
  rcases List.mem_append.mp he with he | he
  · exact hok₀ e he
  · exact hok e he

theorem invariant {I : S → Prop} (hinit : ∀ s, initial s → I s)
    (hstep : ∀ s e t, ok e → I s → step s e t → I t)
    (h : Reachable initial step ok t) : I t := by
  obtain ⟨s, es, h₀, hr, hok⟩ := h
  exact hr.invariant hstep hok (hinit s h₀)

end Reachable

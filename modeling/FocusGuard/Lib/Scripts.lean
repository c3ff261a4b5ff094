import FocusGuard.Lib.Runs
import Mathlib.Logic.Function.Basic

/-!
# Scripts on a shared state

A script runs commands one after the other. A command succeeds or fails, and which command is next
may depend on that. Several processes run their scripts on one state; a command is one step, and
nothing else of another process is between its outcome and its effect.

## Main definitions

* `Script.alone`: the state after a script that nothing interrupts.
* `Race.Step`: one command of one process.
-/

/-- Commands to run, by the success of those before. -/
inductive Script (C : Type) where
  | done
  | run (cmd : C) (next : Bool → Script C)

namespace Script

variable {C S : Type}

/-- The command that is run next. -/
def head? : Script C → Option C
  | .done => none
  | .run cmd _ => some cmd

/-- The state after the whole script. -/
def alone (act : C → S → Bool × S) : Script C → S → S
  | .done, s => s
  | .run cmd next, s => (next (act cmd s).1).alone act (act cmd s).2

theorem eq_done_of_head? {script : Script C} (h : script.head? = none) : script = .done := by
  cases script with
  | done => rfl
  | run cmd next => cases h

end Script

/-- The state, and what each process has left to run. -/
structure Race (P C S : Type) where
  state : S
  rest : P → Script C

namespace Race

variable {P C S : Type} [DecidableEq P] (act : C → S → Bool × S)

/-- The race after the next command of a process, if it has one. -/
def next (r : Race P C S) (p : P) : Race P C S :=
  match r.rest p with
  | .done => r
  | .run cmd next =>
    let result := act cmd r.state
    ⟨result.2, Function.update r.rest p (next result.1)⟩

/-- The process of the event, in the race of the event, runs its next command. -/
def Step (r : Race P C S) (ev : Race P C S × P) (r' : Race P C S) : Prop :=
  ev.1 = r ∧ (∃ cmd, (r.rest ev.2).head? = some cmd) ∧ r.next act ev.2 = r'

/-- No process has anything left to run. -/
def Done (r : Race P C S) : Prop := ∀ p, (r.rest p).head? = none

/-- The events of a schedule; a process that has nothing left is skipped. -/
def events : List P → Race P C S → List (Race P C S × P)
  | [], _ => []
  | p :: schedule, r =>
    if (r.rest p).head?.isSome then (r, p) :: events schedule (r.next act p)
    else events schedule r

/-- The race after a schedule. -/
def play (schedule : List P) (r : Race P C S) : Race P C S := schedule.foldl (next act) r

variable {act} {r : Race P C S} {p : P} {cmd : C} {next' : Bool → Script C}

theorem next_of_run (h : r.rest p = .run cmd next') : r.next act p =
    ⟨(act cmd r.state).2, Function.update r.rest p (next' (act cmd r.state).1)⟩ := by
  unfold next
  rw [h]

theorem state_next (h : (r.rest p).head? = some cmd) :
    (r.next act p).state = (act cmd r.state).2 := by
  cases hrest : r.rest p with
  | done =>
    rw [hrest] at h
    cases h
  | run cmd' next' =>
    rw [hrest] at h
    obtain rfl := Option.some.inj h
    rw [next_of_run hrest]

theorem next_of_done (h : (r.rest p).head? = none) : r.next act p = r := by
  unfold next
  rw [Script.eq_done_of_head? h]

/-- What a schedule plays is a run. -/
theorem run_play (schedule : List P) (r : Race P C S) :
    Run (Step act) r (r.events act schedule) (r.play act schedule) := by
  induction schedule generalizing r with
  | nil => exact .nil r
  | cons p schedule ih =>
    unfold events
    split
    · next h =>
      exact .cons ⟨rfl, Option.isSome_iff_exists.mp h, rfl⟩ (ih (r.next act p))
    · next h =>
      have hdone : r.next act p = r := next_of_done (Option.not_isSome_iff_eq_none.mp h)
      have hplay : r.play act (p :: schedule) = r.play act schedule := by
        rw [play, List.foldl_cons, hdone]
        rfl
      rw [hplay]
      exact ih r

end Race

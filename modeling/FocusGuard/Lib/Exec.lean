import Mathlib.Logic.Basic

/-!
# Computations with state and exceptions

`Exec ε σ α` is a program that reads and writes a state `σ` and either returns an `α` or
raises an `ε`. The state reached before an exception is kept, as it is in a language whose
objects are mutated in place.

## Main definitions

* `Exec.Triple P m Q E`: from `P`, a normal result satisfies `Q` and an exception `E`.
* `Exec.Preserves I m`: `I` holds after `m` however `m` ends.
* `Exec.Simulates view m m'`: `m'` does on a view of the state what `m` does on the state.

The rules below follow the combinators, so that a triple about a program is proved by
walking through its text once.
-/

/-- A program over the state `σ` that may raise `ε`; the state survives the exception. -/
def Exec (ε σ α : Type) : Type := σ → Except ε α × σ

namespace Exec

variable {ε σ τ α β : Type}

instance : Monad (Exec ε σ) where
  pure a := fun s => (.ok a, s)
  bind m f := fun s => match m s with
    | (.ok a, t) => f a t
    | (.error e, t) => (.error e, t)

def get : Exec ε σ σ := fun s => (.ok s, s)

def modify (f : σ → σ) : Exec ε σ Unit := fun s => (.ok (), f s)

def throw (e : ε) : Exec ε σ α := fun s => (.error e, s)

def ofExcept (r : Except ε α) : Exec ε σ α := fun s => (r, s)

/-- Run the handler on what was raised, in the state it was raised in. -/
def tryCatch (m : Exec ε σ α) (handler : ε → Exec ε σ α) : Exec ε σ α := fun s => match m s with
  | (.ok a, t) => (.ok a, t)
  | (.error e, t) => handler e t

/-- Run a program on a component of the state. -/
def focus (view : σ → τ) (put : τ → σ → σ) (m : Exec ε τ α) : Exec ε σ α := fun s =>
  let r := m (view s)
  (r.1, put r.2 s)

/-! ## Running -/

@[simp] theorem pure_apply (a : α) (s : σ) : (pure a : Exec ε σ α) s = (.ok a, s) := rfl

theorem bind_apply (m : Exec ε σ α) (f : α → Exec ε σ β) (s : σ) :
    (m >>= f) s = match m s with
      | (.ok a, t) => f a t
      | (.error e, t) => (.error e, t) := rfl

theorem bind_of_ok {m : Exec ε σ α} {f : α → Exec ε σ β} {s t : σ} {a : α}
    (h : m s = (.ok a, t)) : (m >>= f) s = f a t := by
  rw [bind_apply, h]

theorem bind_of_error {m : Exec ε σ α} {f : α → Exec ε σ β} {s t : σ} {e : ε}
    (h : m s = (.error e, t)) : (m >>= f) s = (.error e, t) := by
  rw [bind_apply, h]

/-- A sequence that ends normally does so in both parts. -/
theorem bind_eq_ok {m : Exec ε σ α} {f : α → Exec ε σ β} {s u : σ} {b : β} :
    (m >>= f) s = (.ok b, u) ↔ ∃ a t, m s = (.ok a, t) ∧ f a t = (.ok b, u) := by
  constructor
  · intro h
    rcases hm : m s with ⟨e | a, t⟩
    · rw [bind_of_error hm] at h
      cases h
    · rw [bind_of_ok hm] at h
      exact ⟨a, t, rfl, h⟩
  · rintro ⟨a, t, hm, h⟩
    rw [bind_of_ok hm, h]

theorem bind_assoc {γ : Type} (m : Exec ε σ α) (f : α → Exec ε σ β) (g : β → Exec ε σ γ) :
    m >>= f >>= g = m >>= fun a => f a >>= g := by
  funext s
  rw [bind_apply, bind_apply, bind_apply]
  match m s with
  | (.ok a, t) => rfl
  | (.error e, t) => rfl

theorem bind_pure (m : Exec ε σ α) : m >>= pure = m := by
  funext s
  rw [bind_apply]
  match m s with
  | (.ok a, t) => rfl
  | (.error e, t) => rfl

theorem bind_pure_unit (m : Exec ε σ Unit) : (m >>= fun _ => pure ()) = m := bind_pure m

@[simp] theorem get_apply (s : σ) : (get : Exec ε σ σ) s = (.ok s, s) := rfl

@[simp] theorem modify_apply (f : σ → σ) (s : σ) :
    (modify f : Exec ε σ Unit) s = (.ok (), f s) := rfl

@[simp] theorem throw_apply (e : ε) (s : σ) : (throw e : Exec ε σ α) s = (.error e, s) := rfl

@[simp] theorem ofExcept_apply (r : Except ε α) (s : σ) :
    (ofExcept r : Exec ε σ α) s = (r, s) := rfl

theorem ofExcept_eq_ok {r : Except ε α} {s t : σ} {a : α} :
    ofExcept r s = (.ok a, t) ↔ r = .ok a ∧ t = s := by
  simp [eq_comm]

@[simp] theorem focus_apply (view : σ → τ) (put : τ → σ → σ) (m : Exec ε τ α) (s : σ) :
    focus view put m s = ((m (view s)).1, put (m (view s)).2 s) := rfl

theorem focus_eq_ok {view : σ → τ} {put : τ → σ → σ} {m : Exec ε τ α} {s u : σ} {a : α} :
    focus view put m s = (.ok a, u) ↔ ∃ t, m (view s) = (.ok a, t) ∧ u = put t s := by
  rw [focus_apply]
  constructor
  · intro h
    obtain ⟨hm, rfl⟩ := Prod.mk.inj h
    exact ⟨_, Prod.ext hm rfl, rfl⟩
  · rintro ⟨t, hm, rfl⟩
    rw [hm]

/-! ## Triples -/

/-- From `P`, a normal end satisfies `Q` and an exceptional end satisfies `E`. -/
def Triple (P : σ → Prop) (m : Exec ε σ α) (Q : α → σ → Prop) (E : ε → σ → Prop) : Prop :=
  ∀ s, P s → match m s with
    | (.ok a, t) => Q a t
    | (.error e, t) => E e t

/-- `I` holds after `m` however `m` ends. -/
def Preserves (I : σ → Prop) (m : Exec ε σ α) : Prop :=
  Triple I m (fun _ => I) (fun _ => I)

namespace Triple

variable {P : σ → Prop} {Q : α → σ → Prop} {E : ε → σ → Prop}
  {R : β → σ → Prop} {m : Exec ε σ α} {f : α → Exec ε σ β}

theorem of_ok (h : Triple P m Q E) {s t : σ} {a : α} (hs : P s) (hm : m s = (.ok a, t)) :
    Q a t := by
  have := h s hs
  rwa [hm] at this

theorem of_error (h : Triple P m Q E) {s t : σ} {e : ε} (hs : P s)
    (hm : m s = (.error e, t)) : E e t := by
  have := h s hs
  rwa [hm] at this

/-- What holds of the last state, however the program ends. -/
theorem of_state {I : σ → Prop} (h : ∀ s, P s → I (m s).2) :
    Triple P m (fun _ => I) (fun _ => I) := by
  intro s hs
  have hm := h s hs
  match hms : m s with
  | (.ok a, t) => rwa [hms] at hm
  | (.error e, t) => rwa [hms] at hm

theorem imp (h : Triple P m Q E) {P' : σ → Prop} {Q' : α → σ → Prop} {E' : ε → σ → Prop}
    (hP : ∀ s, P' s → P s) (hQ : ∀ a s, Q a s → Q' a s) (hE : ∀ e s, E e s → E' e s) :
    Triple P' m Q' E' := by
  intro s hs
  have hm := h s (hP s hs)
  match hms : m s with
  | (.ok a, t) =>
    rw [hms] at hm
    exact hQ a t hm
  | (.error e, t) =>
    rw [hms] at hm
    exact hE e t hm

theorem pure {a : α} (h : ∀ s, P s → Q a s) : Triple P (Pure.pure a : Exec ε σ α) Q E :=
  fun s hs => h s hs

theorem throw {e : ε} (h : ∀ s, P s → E e s) : Triple P (Exec.throw e : Exec ε σ α) Q E :=
  fun s hs => h s hs

theorem modify {g : σ → σ} {Q : Unit → σ → Prop} (h : ∀ s, P s → Q () (g s)) :
    Triple P (Exec.modify g : Exec ε σ Unit) Q E :=
  fun s hs => h s hs

theorem ofExcept {r : Except ε α} (hok : ∀ a s, r = .ok a → P s → Q a s)
    (herr : ∀ e s, r = .error e → P s → E e s) :
    Triple P (Exec.ofExcept r : Exec ε σ α) Q E := by
  intro s hs
  cases r with
  | ok a => exact hok a s rfl hs
  | error e => exact herr e s rfl hs

theorem bind (hm : Triple P m Q E) (hf : ∀ a, Triple (Q a) (f a) R E) :
    Triple P (m >>= f) R E := by
  intro s hs
  rw [bind_apply]
  match h : m s with
  | (.ok a, t) => exact hf a t (hm.of_ok hs h)
  | (.error e, t) => exact hm.of_error hs h

/-- Reading the state makes it known to the rest of the program. -/
theorem get_bind {f : σ → Exec ε σ β} (h : ∀ s, P s → Triple (· = s) (f s) R E) :
    Triple P (Exec.get >>= f) R E := fun s hs => h s hs s rfl

theorem ite {c : Prop} [Decidable c] {m' : Exec ε σ α} (hm : c → Triple P m Q E)
    (hm' : ¬ c → Triple P m' Q E) : Triple P (if c then m else m') Q E := by
  by_cases hc : c
  · rw [if_pos hc]
    exact hm hc
  · rw [if_neg hc]
    exact hm' hc

/-- A program that only touches a component is reasoned about on that component. -/
theorem focus {view : σ → τ} {put : τ → σ → σ} {m : Exec ε τ α} {p : τ → Prop}
    {q : α → τ → Prop} {e : ε → τ → Prop} (s₀ : σ) (h : Triple p m q e)
    (hp : p (view s₀)) (hQ : ∀ a t, q a t → Q a (put t s₀))
    (hE : ∀ x t, e x t → E x (put t s₀)) :
    Triple (· = s₀) (Exec.focus view put m) Q E := by
  rintro s rfl
  rw [focus_apply]
  match hm : m (view s) with
  | (.ok a, t) => exact hQ a t (h.of_ok hp hm)
  | (.error x, t) => exact hE x t (h.of_error hp hm)

end Triple

theorem Preserves.after {I : σ → Prop} {m : Exec ε σ α} (h : Preserves I m) {s : σ}
    (hs : I s) : I (m s).2 := by
  match hm : m s with
  | (.ok a, t) => exact h.of_ok hs hm
  | (.error e, t) => exact h.of_error hs hm

/-! ## Normal results -/

/-- A normal result satisfies `P`. -/
def Ensures (P : α → Prop) (m : Exec ε σ α) : Prop := ∀ s a, (m s).1 = .ok a → P a

namespace Ensures

variable {P : β → Prop} {m : Exec ε σ α} {f : α → Exec ε σ β}

theorem pure {P : α → Prop} {a : α} (h : P a) : Ensures P (Pure.pure a : Exec ε σ α) := by
  rintro s _ ⟨⟩
  exact h

/-- The last part decides. -/
theorem seq (hf : ∀ a, Ensures P (f a)) : Ensures P (m >>= f) := by
  intro s b hb
  rw [bind_apply] at hb
  rcases hm : m s with ⟨e | a, t⟩
  · rw [hm] at hb
    cases hb
  · rw [hm] at hb
    exact hf a t b hb

theorem ite {P : α → Prop} {c : Prop} [Decidable c] {m' : Exec ε σ α} (hm : Ensures P m)
    (hm' : Ensures P m') : Ensures P (if c then m else m') := by
  split
  · exact hm
  · exact hm'

end Ensures

/-! ## Simulation -/

/-- `m'` does on the view of a state what `m` does on the state. -/
def Simulates (view : σ → τ) (m : Exec ε σ α) (m' : Exec ε τ α) : Prop :=
  ∀ s, m' (view s) = ((m s).1, view (m s).2)

namespace Simulates

variable {view : σ → τ} {m : Exec ε σ α} {m' : Exec ε τ α}

theorem pure (a : α) : Simulates view (Pure.pure a : Exec ε σ α) (Pure.pure a) := fun _ => rfl

theorem ofExcept (r : Except ε α) : Simulates view (Exec.ofExcept r) (Exec.ofExcept r) :=
  fun _ => rfl

theorem modify {f : σ → σ} {g : τ → τ} (h : ∀ s, g (view s) = view (f s)) :
    Simulates view (Exec.modify f : Exec ε σ Unit) (Exec.modify g) :=
  fun s => congrArg (Prod.mk (Except.ok ())) (h s)

theorem bind {f : α → Exec ε σ β} {f' : α → Exec ε τ β} (hm : Simulates view m m')
    (hf : ∀ a, Simulates view (f a) (f' a)) : Simulates view (m >>= f) (m' >>= f') := by
  intro s
  rw [bind_apply, bind_apply, hm s]
  rcases m s with ⟨e | a, t⟩
  · rfl
  · exact hf a t

theorem get_bind {f : σ → Exec ε σ β} {f' : τ → Exec ε τ β}
    (h : ∀ s, Simulates view (f s) (f' (view s))) :
    Simulates view (Exec.get >>= f) (Exec.get >>= f') :=
  fun s => h s s

theorem ite {c : Prop} [Decidable c] {n : Exec ε σ α} {n' : Exec ε τ α}
    (hm : c → Simulates view m m') (hn : ¬ c → Simulates view n n') :
    Simulates view (if c then m else n) (if c then m' else n') := by
  split
  · next h => exact hm h
  · next h => exact hn h

theorem focus {υ ω : Type} {inner : υ → ω} {get : σ → υ} {put : υ → σ → σ} {get' : τ → ω}
    {put' : ω → τ → τ} {m : Exec ε υ α} {m' : Exec ε ω α} (hm : Simulates inner m m')
    (hget : ∀ s, get' (view s) = inner (get s))
    (hput : ∀ t s, put' (inner t) (view s) = view (put t s)) :
    Simulates view (Exec.focus get put m) (Exec.focus get' put' m') := by
  intro s
  simp only [focus_apply, hget, hm (get s), hput]

end Simulates

end Exec

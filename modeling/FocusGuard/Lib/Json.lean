import FocusGuard.Lib.Text
import Mathlib.Data.Rat.Defs

/-!
# JSON values

The values `json.loads` produces, with Python's truth value, `dict.get` and iteration on
them. Objects keep their members in order; a key that occurs once is found wherever it is.
-/

inductive Json where
  | null
  | bool (b : Bool)
  | int (n : Int)
  | float (q : ℚ)
  | str (t : Text)
  | arr (items : List Json)
  | obj (members : List (Text × Json))

namespace Json

/-- `bool(x)`. -/
def truthy : Json → Bool
  | .null => false
  | .bool b => b
  | .int n => n ≠ 0
  | .float q => q ≠ 0
  | .str t => t ≠ []
  | .arr l => l.length ≠ 0
  | .obj l => l.length ≠ 0

/-- `d.get(key)` on the members of an object. -/
def lookup (members : List (Text × Json)) (key : Text) : Option Json :=
  (members.find? fun m => m.1 = key).map Prod.snd

/-- The elements a `for` loop over the value visits; `none` where it is not iterable. -/
def elements? : Json → Option (List Json)
  | .str t => some (t.map fun c => .str [c])
  | .arr l => some l
  | .obj l => some (l.map fun m => .str m.1)
  | _ => none

def text? : Json → Option Text
  | .str t => some t
  | _ => none

def int? : Json → Option Int
  | .int n => some n
  | _ => none

def bool? : Json → Option Bool
  | .bool b => some b
  | _ => none

def arr? : Json → Option (List Json)
  | .arr l => some l
  | _ => none

/-- The members of an object; no other value has any. -/
def members : Json → List (Text × Json)
  | .obj l => l
  | _ => []

def texts? (j : Json) : Option (List Text) := j.arr?.bind fun l => l.mapM text?

/-- A value that is either absent (`None`) or a text. -/
def optText? : Json → Option (Option Text)
  | .null => some none
  | .str t => some (some t)
  | _ => none

def ofTexts (l : List Text) : Json := .arr (l.map .str)

def ofOptText : Option Text → Json
  | none => .null
  | some t => .str t

@[simp] theorem texts?_ofTexts (l : List Text) : (ofTexts l).texts? = some l := by
  have h : (l.map Json.str).mapM text? = some l := by
    induction l with
    | nil => rfl
    | cons a l ih => simp [List.mapM_cons, ih, text?]
  simpa [texts?, ofTexts, arr?] using h

@[simp] theorem optText?_ofOptText (t : Option Text) : (ofOptText t).optText? = some t := by
  cases t <;> rfl

theorem lookup_eq_none {key : Text} {l : List (Text × Json)} (h : ∀ m ∈ l, m.1 ≠ key) :
    lookup l key = none := by
  have hf : (l.find? fun m => m.1 = key) = none := by
    rw [List.find?_eq_none]
    intro m hm
    simpa using h m hm
  rw [lookup, hf]
  rfl

end Json

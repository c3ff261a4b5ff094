import FocusGuard.Lib.Bytes
import FocusGuard.Lib.Calendar
import FocusGuard.Lib.Exec
import FocusGuard.Lib.Json

/-!
# What the program takes from Python and from the host

`PyError` is the exceptions the code raises or lets through. `Runtime` holds the functions
whose definition is outside the repository: Unicode tables beyond ASCII, the IDNA codec
beyond ASCII, HMAC-SHA256, the local time zone. No law is assumed of any of them. Wherever
Python's behaviour is fixed on the texts the program meets (ASCII and the replacement
character), it is defined here and the parameter is not consulted.
-/

namespace FocusGuard

/-- Exceptions, with the text they carry where the program words it. -/
inductive PyError where
  /-- `LockedSessionError(expires_at_iso, remaining_seconds)`, in microseconds. -/
  | lockedSession (expiresAtIso : Text) (remaining : Int)
  | invalidDomain (message : Text)
  | valueError (message : Text)
  | typeError
  | attributeError
  | overflowError
  | osError
  | unicodeError
  | structError
  deriving DecidableEq

/-- A clock-independent part of the interpreter and of the host. -/
structure Runtime where
  /-- `str.lower()` on texts with a character that is neither ASCII nor U+FFFD. -/
  lowerUnicode : Text → Text
  /-- `c.isdigit()` for a character beyond ASCII. -/
  isDigitUnicode : Char → Bool
  /-- The decimal value (`\d`, `int()`) of a character beyond ASCII. -/
  decimalUnicode : Char → Option Nat
  /-- The `idna` codec on texts with a character beyond ASCII. -/
  idnaUnicode : Text → Option Text
  /-- Whether `urlsplit` rejects a network location that has brackets or is not ASCII. -/
  rejectsNetloc : Text → Bool
  /-- `datetime.fromisoformat` on texts of another shape than `isoformat()` writes. -/
  fromIsoOther : Text → Option Calendar.Stamp
  /-- The local UTC offset, in microseconds. -/
  localOffset : Int → Int
  /-- `json.dumps(value, sort_keys=True).encode("utf-8")`. -/
  dumps : Json → Bytes
  hmacSha256 : Bytes → Bytes → Bytes
  /-- `str(e)` of an exception the interpreter words. -/
  builtinMessage : PyError → Text
  /-- `str(x)` of a value that is not a text. -/
  strOther : Json → Text

/-- A host without Unicode tables, in UTC; it rejects what is not ASCII. -/
def asciiRuntime : Runtime where
  lowerUnicode t := t
  isDigitUnicode _ := false
  decimalUnicode _ := none
  idnaUnicode _ := none
  rejectsNetloc _ := true
  fromIsoOther _ := none
  localOffset _ := 0
  dumps _ := []
  hmacSha256 key _ := key
  builtinMessage _ := []
  strOther _ := []

namespace Runtime

variable (rt : Runtime)

/-- `str.lower()`. -/
def lower (t : Text) : Text :=
  if t.all fun c => Text.isAsciiChar c ∨ c = Text.replacement then t.map Char.toLower
  else rt.lowerUnicode t

/-- `str(x)`. -/
def str : Json → Text
  | .str t => t
  | value => rt.strOther value

def isDigit (c : Char) : Bool :=
  if Text.isAsciiChar c then c.isDigit else rt.isDigitUnicode c

/-- The value of a decimal digit. -/
def decimal (c : Char) : Option Nat :=
  if Text.isAsciiChar c then Calendar.digitVal c else rt.decimalUnicode c

/-- `t.isdigit()`. -/
def isdigit (t : Text) : Bool := t ≠ [] ∧ t.all rt.isDigit

/-- `int(t)` for a text of digits; `none` is a `ValueError`. -/
def int (t : Text) : Option Nat :=
  (t.mapM rt.decimal).map fun ds => ds.foldl (fun n d => n * 10 + d) 0

/-- `t.encode("idna").decode("ascii")`; ASCII labels of legal length stay as they are. -/
def idna (t : Text) : Option Text :=
  if Text.isAscii t then
    let labels := t.splitOn '.'
    if (labels.dropLast.all fun l => 0 < l.length ∧ l.length < 64) ∧
        (labels.getLast?.all fun l => l.length < 64) then some t
    else none
  else (rt.idnaUnicode t).filter Text.isAscii

/-- `datetime.fromisoformat(t)`; `none` is a `ValueError`. -/
def fromisoformat (t : Text) : Option Calendar.Stamp :=
  match Calendar.parseIso t with
  | some s => some s
  | none => if t = [] then none else rt.fromIsoOther t

@[simp] theorem fromisoformat_nil : rt.fromisoformat [] = none := rfl

/-- The text of an instant is read back, whatever else the interpreter reads. -/
@[simp] theorem fromisoformat_isoformat (t : Calendar.Instant) :
    rt.fromisoformat (Calendar.isoformat t) = some (.aware t.micros) := by
  rw [fromisoformat, Calendar.parseIso_isoformat]

theorem lower_of_ascii {t : Text}
    (h : ∀ c ∈ t, Text.isAsciiChar c = true ∨ c = Text.replacement) :
    rt.lower t = t.map Char.toLower := by
  rw [lower, if_pos]
  simpa [List.all_eq_true] using h

end Runtime

end FocusGuard

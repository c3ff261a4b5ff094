import FocusGuard.Lib.Bytes
import FocusGuard.Lib.Dict
import FocusGuard.Lib.Json

/-!
# JSON texts

What `json.dumps` writes and `json.loads` reads, both with their defaults: `", "` and `": "`
between the parts, and nothing but ASCII. A reader takes a text to a value and what stands behind
it. Reading a value is bounded by a number of steps, and no value takes more of them than its text
has characters. The limits of the interpreter, on nesting and on the digits of an integer, are not
modelled.

## Main definitions

* `Json.dumps`, `Json.loads`: the two functions.
* `Text.encode`, `Bytes.decode`: UTF-8.
-/

/-- What `json.dumps` writes: characters from the blank to the tilde. -/
def Text.Printable (t : Text) : Prop := ∀ c ∈ t, 32 ≤ c.toNat ∧ c.toNat ≤ 126

/-- How floats are written, and what is read from a literal with a fraction or an exponent and from
`NaN`, `Infinity` and `-Infinity`. -/
structure Floats where
  repr : ℚ → Text
  printable : ∀ q, (repr q).Printable
  read : Text → Json

instance Floats.instInhabited : Inhabited Floats :=
  ⟨⟨fun _ => [], fun _ _ hc => absurd hc List.not_mem_nil, .str⟩⟩

namespace Json

variable (fl : Floats)

/-! ## Writing -/

/-- The escapes of one letter. -/
def escapes : List (Char × Char) := [
  ('"', '"'), ('\\', '\\'), ('\n', 'n'), ('\r', 'r'), ('\t', 't'), (Char.ofNat 8, 'b'),
  (Char.ofNat 12, 'f')]

/-- A code unit as `\uXXXX`. -/
def unicodeEscape (n : Nat) : Text :=
  ['\\', 'u', Nat.digitChar (n / 4096 % 16), Nat.digitChar (n / 256 % 16),
    Nat.digitChar (n / 16 % 16), Nat.digitChar (n % 16)]

/-- A character of a string; beyond U+FFFF it takes a pair of surrogates. -/
def escapeChar (c : Char) : Text :=
  match escapes.find? fun e => e.1 = c with
  | some e => ['\\', e.2]
  | none =>
    if 32 ≤ c.toNat ∧ c.toNat ≤ 126 then [c]
    else if c.toNat < 0x10000 then unicodeEscape c.toNat
    else unicodeEscape (0xD800 + (c.toNat - 0x10000) / 0x400) ++
      unicodeEscape (0xDC00 + (c.toNat - 0x10000) % 0x400)

def dumpsStr (t : Text) : Text := '"' :: (t.flatMap escapeChar ++ ['"'])

def dumpsInt (n : Int) : Text :=
  if n < 0 then '-' :: Nat.toDigits 10 n.natAbs else Nat.toDigits 10 n.natAbs

mutual

/-- `json.dumps(value)`. -/
def dumps : Json → Text
  | .null => "null".toList
  | .bool true => "true".toList
  | .bool false => "false".toList
  | .int n => dumpsInt n
  | .float q => fl.repr q
  | .str t => dumpsStr t
  | .arr [] => ['[', ']']
  | .arr (v :: l) => '[' :: (dumps v ++ dumpsItems l)
  | .obj [] => ['{', '}']
  | .obj ((key, v) :: l) => '{' :: (dumpsStr key ++ ([':', ' '] ++ (dumps v ++ dumpsMembers l)))

/-- The items behind the first, and the end of the array. -/
def dumpsItems : List Json → Text
  | [] => [']']
  | v :: l => [',', ' '] ++ (dumps v ++ dumpsItems l)

def dumpsMembers : List (Text × Json) → Text
  | [] => ['}']
  | (key, v) :: l => [',', ' '] ++ (dumpsStr key ++ ([':', ' '] ++ (dumps v ++ dumpsMembers l)))

end

/-! ## Reading -/

def isWhite (c : Char) : Bool := c = ' ' ∨ c = '\t' ∨ c = '\n' ∨ c = '\r'

def skipWhite (t : Text) : Text := t.dropWhile isWhite

def hexVal (c : Char) : Option Nat :=
  if c.isDigit then some (c.toNat - 48)
  else if 'a' ≤ c ∧ c ≤ 'f' then some (c.toNat - 87)
  else if 'A' ≤ c ∧ c ≤ 'F' then some (c.toNat - 55)
  else none

/-- Four hexadecimal digits. -/
def hex4 : Text → Option (Nat × Text)
  | a :: b :: c :: d :: t => do
    let a ← hexVal a
    let b ← hexVal b
    let c ← hexVal c
    let d ← hexVal d
    some (((a * 16 + b) * 16 + c) * 16 + d, t)
  | _ => none

/-- A low surrogate, written as an escape. -/
def lowSurrogate : Text → Option (Nat × Text)
  | '\\' :: 'u' :: t => (hex4 t).filter fun p => 0xDC00 ≤ p.1 ∧ p.1 ≤ 0xDFFF
  | _ => none

/-- The character of a code unit, with the low surrogate behind a high one. A surrogate without its
partner is no character; the replacement character stands for it. -/
def codePoint (n : Nat) (t : Text) : Char × Text :=
  if 0xD800 ≤ n ∧ n ≤ 0xDBFF then
    match lowSurrogate t with
    | some (low, t) => (Char.ofNat (0x10000 + (n - 0xD800) * 0x400 + (low - 0xDC00)), t)
    | none => (Text.replacement, t)
  else if 0xDC00 ≤ n ∧ n ≤ 0xDFFF then (Text.replacement, t)
  else (Char.ofNat n, t)

/-- What an escape stands for, read behind its backslash. -/
def unescape : Text → Option (Char × Text)
  | [] => none
  | c :: t =>
    if c = 'u' then (hex4 t).map fun p => codePoint p.1 p.2
    else ((('/', '/') :: escapes).find? fun e => e.2 = c).map fun e => (e.1, t)

/-- A character of a string. Control characters have to be escaped. -/
def scanChar (c : Char) (t : Text) : Option (Char × Text) :=
  if c = '\\' then unescape t
  else if c.toNat < 32 then none
  else some (c, t)

/-- The string behind an opening quote, in at most so many characters. -/
def scanString : Nat → Text → Option (Text × Text)
  | 0, _ => none
  | _ + 1, [] => none
  | n + 1, c :: t =>
    if c = '"' then some ([], t)
    else do
      let (a, t) ← scanChar c t
      let (s, t) ← scanString n t
      some (a :: s, t)

/-- An optional sign. -/
def scanSign (signs : List Char) : Text → Text × Text
  | [] => ([], [])
  | c :: t => if c ∈ signs then ([c], t) else ([], c :: t)

/-- `0|[1-9][0-9]*`. -/
def scanWhole : Text → Option (Text × Text)
  | [] => none
  | c :: t =>
    if c = '0' then some ([c], t)
    else if c.isDigit then some (c :: t.takeWhile Char.isDigit, t.dropWhile Char.isDigit)
    else none

/-- `(\.[0-9]+)?`. -/
def scanFraction : Text → Text × Text
  | [] => ([], [])
  | c :: t =>
    if c = '.' ∧ t.takeWhile Char.isDigit ≠ [] then
      (c :: t.takeWhile Char.isDigit, t.dropWhile Char.isDigit)
    else ([], c :: t)

/-- `([eE][-+]?[0-9]+)?`. -/
def scanExponent : Text → Text × Text
  | [] => ([], [])
  | c :: t =>
    let (sign, digits) := scanSign ['-', '+'] t
    if (c = 'e' ∨ c = 'E') ∧ digits.takeWhile Char.isDigit ≠ [] then
      (c :: (sign ++ digits.takeWhile Char.isDigit), digits.dropWhile Char.isDigit)
    else ([], c :: t)

def intOf (sign digits : Text) : Int :=
  if sign = [] then Nat.ofDigitChars 10 digits 0 else - Nat.ofDigitChars 10 digits 0

/-- An integer, or a float where there is a fraction or an exponent. -/
def scanNumber (t : Text) : Option (Json × Text) :=
  let (sign, t) := scanSign ['-'] t
  match scanWhole t with
  | none => none
  | some (whole, t) =>
    let (fraction, t) := scanFraction t
    let (exponent, t) := scanExponent t
    if fraction = [] ∧ exponent = [] then some (.int (intOf sign whole), t)
    else some (fl.read (sign ++ (whole ++ (fraction ++ exponent))), t)

def words : List (Text × Json) := [
  ("null", .null), ("true", .bool true), ("false", .bool false), ("NaN", fl.read "NaN"),
  ("Infinity", fl.read "Infinity"), ("-Infinity", fl.read "-Infinity")]

def scanWord (t : Text) : Option (Json × Text) :=
  ((words fl).find? fun w => w.1.isPrefixOf t).map fun w => (w.2, t.drop w.1.length)

/-- A dictionary is built member by member: a key that comes again takes the last value. -/
def ofMembers (members : List (Text × Json)) : Json :=
  .obj (members.foldl (fun d m => Dict.put m.1 m.2 d) [])

/-- The mark behind a value: whether another one comes, and what stands behind the mark. -/
def scanMark (close : Char) (t : Text) : Option (Bool × Text) :=
  match skipWhite t with
  | [] => none
  | c :: t =>
    if c = ',' then some (true, skipWhite t)
    else if c = close then some (false, t)
    else none

def scanColon (t : Text) : Option Text :=
  match skipWhite t with
  | [] => none
  | c :: t => if c = ':' then some (skipWhite t) else none

/-- A key and its colon. -/
def scanKey : Text → Option (Text × Text)
  | [] => none
  | c :: t =>
    if c = '"' then do
      let (key, t) ← scanString t.length t
      let t ← scanColon t
      some (key, t)
    else none

mutual

/-- A value, in at most so many steps. -/
def scanValue : Nat → Text → Option (Json × Text)
  | 0, _ => none
  | _ + 1, [] => none
  | n + 1, c :: t =>
    if c = '"' then (scanString t.length t).map fun p => (.str p.1, p.2)
    else if c = '[' then
      if (skipWhite t).head? = some ']' then some (.arr [], (skipWhite t).tail)
      else (scanItems n (skipWhite t)).map fun p => (.arr p.1, p.2)
    else if c = '{' then
      if (skipWhite t).head? = some '}' then some (.obj [], (skipWhite t).tail)
      else (scanMembers n (skipWhite t)).map fun p => (ofMembers p.1, p.2)
    else (scanNumber fl (c :: t)).or (scanWord fl (c :: t))

/-- The items from here to the end of the array. -/
def scanItems : Nat → Text → Option (List Json × Text)
  | 0, _ => none
  | n + 1, t => do
    let (v, t) ← scanValue n t
    let (more, t) ← scanMark ']' t
    if more then (scanItems n t).map fun p => (v :: p.1, p.2) else some ([v], t)

def scanMembers : Nat → Text → Option (List (Text × Json) × Text)
  | 0, _ => none
  | n + 1, t => do
    let (key, t) ← scanKey t
    let (v, t) ← scanValue n t
    let (more, t) ← scanMark '}' t
    if more then (scanMembers n t).map fun p => ((key, v) :: p.1, p.2) else some ([(key, v)], t)

end

/-- `json.loads(text)`; `none` is a `JSONDecodeError`. -/
def loads (t : Text) : Option Json := do
  let (v, t) ← scanValue fl (t.length + 1) (skipWhite t)
  if skipWhite t = [] then some v else none

end Json

/-! ## UTF-8 -/

/-- `t.encode("utf-8")`. -/
def Text.encode (t : Text) : Bytes := t.flatMap String.utf8EncodeChar

/-- `data.decode("utf-8")`; `none` is a `UnicodeDecodeError`. -/
def Bytes.decode (data : Bytes) : Option Text := data.toByteArray.utf8Decode?.map Array.toList

@[simp] theorem Bytes.decode_encode (t : Text) : Bytes.decode t.encode = some t := by
  have h : t.encode.toByteArray = t.utf8Encode := rfl
  rw [Bytes.decode, h, List.utf8Decode?_utf8Encode]
  rfl

@[simp] theorem Text.encode_append (t u : Text) : (t ++ u).encode = t.encode ++ u.encode :=
  List.flatMap_append

import FocusGuard.Lib.Text
import Mathlib.Tactic.IntervalCases
import Mathlib.Tactic.Linarith

/-!
# UTC instants and their ISO 8601 text

Instants are microseconds since 1970-01-01T00:00:00Z. Days are turned into proleptic
Gregorian dates with the era decomposition (400 years are 146097 days), and the text of an
instant is the one of `datetime.isoformat()`, which leaves the fraction out when it is zero.

## Main results

* `Calendar.daysFromCivil_civilFromDays`: the date of a day determines the day.
* `Calendar.parseIso_isoformat`: reading the text of an instant gives the instant back.
-/

namespace Calendar

structure Civil where
  year : Int
  month : Int
  day : Int
  deriving DecidableEq, Repr

/-- Century, four-year cycle, year and day of the year of a day within its era. The last
century and the last year of a cycle are one day longer than the others. -/
def splitEra (doe : Int) : Int × Int × Int × Int :=
  let c := min (doe / 36524) 3
  let r := doe - c * 36524
  let q := r / 1461
  let r := r - q * 1461
  let y := min (r / 365) 3
  (c, q, y, r - y * 365)

/-- The date of day `z` after 1970-01-01. Years start in March inside an era, so that the
leap day is the last day of its year. -/
def civilFromDays (z : Int) : Civil :=
  let z := z + 719468
  let era := z / 146097
  let (c, q, y, doy) := splitEra (z % 146097)
  let mp := (5 * doy + 2) / 153
  let m := if mp < 10 then mp + 3 else mp - 9
  { year := 400 * era + 100 * c + 4 * q + y + (if m ≤ 2 then 1 else 0)
    month := m
    day := doy - (153 * mp + 2) / 5 + 1 }

def daysFromCivil (c : Civil) : Int :=
  let y := if c.month ≤ 2 then c.year - 1 else c.year
  let era := y / 400
  let yoe := y % 400
  let mp := if c.month > 2 then c.month - 3 else c.month + 9
  let doy := (153 * mp + 2) / 5 + c.day - 1
  let doe := yoe * 365 + yoe / 4 - yoe / 100 + doy
  era * 146097 + doe - 719468

theorem splitEra_spec {doe c q y doy : Int} (h0 : 0 ≤ doe) (h1 : doe < 146097)
    (h : splitEra doe = (c, q, y, doy)) :
    doe = 36524 * c + 1461 * q + 365 * y + doy ∧ 0 ≤ c ∧ c ≤ 3 ∧ 0 ≤ q ∧ q ≤ 24 ∧
      0 ≤ y ∧ y ≤ 3 ∧ 0 ≤ doy ∧ doy ≤ 365 := by
  simp only [splitEra, Prod.mk.injEq] at h
  obtain ⟨rfl, rfl, rfl, rfl⟩ := h
  have hc : 0 ≤ min (doe / 36524) 3 ∧ min (doe / 36524) 3 ≤ 3 ∧
      0 ≤ doe - min (doe / 36524) 3 * 36524 ∧
      doe - min (doe / 36524) 3 * 36524 ≤ 36524 := by omega
  generalize min (doe / 36524) 3 = c at hc ⊢
  generalize hr : doe - c * 36524 = r at hc ⊢
  omega

/-- The date of a day determines the day. -/
theorem daysFromCivil_civilFromDays (z : Int) : daysFromCivil (civilFromDays z) = z := by
  unfold civilFromDays daysFromCivil
  obtain ⟨c, q, y, doy, hsplit⟩ : ∃ c q y doy,
      splitEra ((z + 719468) % 146097) = (c, q, y, doy) := ⟨_, _, _, _, rfl⟩
  obtain ⟨hdoe, hc0, hc3, hq0, hq24, hy0, hy3, hd0, hd365⟩ :=
    splitEra_spec (by omega) (by omega) hsplit
  simp only [hsplit]
  generalize hera : (z + 719468) / 146097 = era
  have hz : z + 719468 = era * 146097 + (z + 719468) % 146097 := by omega
  have hmp : 0 ≤ (5 * doy + 2) / 153 ∧ (5 * doy + 2) / 153 ≤ 11 := by omega
  generalize (5 * doy + 2) / 153 = mp at hmp ⊢
  -- the year, with the months counted from March, splits into its era again
  have hera' : (400 * era + 100 * c + 4 * q + y) / 400 = era := by omega
  have hyoe : (400 * era + 100 * c + 4 * q + y) % 400 = 100 * c + 4 * q + y := by omega
  have hleap : (100 * c + 4 * q + y) / 4 = 25 * c + q := by omega
  have hcent : (100 * c + 4 * q + y) / 100 = c := by omega
  by_cases hlt : mp < 10
  · have hm : ¬ mp + 3 ≤ 2 := by omega
    rw [if_pos hlt, if_neg hm, if_neg hm, if_pos (by omega), add_zero, hera', hyoe, hleap,
      hcent]
    omega
  · have hm : mp - 9 ≤ 2 := by omega
    rw [if_neg hlt, if_pos hm, if_pos hm, if_neg (by omega), add_sub_cancel_right, hera',
      hyoe, hleap, hcent]
    omega

/-- Months and days of a date, ready to be printed with two digits. -/
theorem civilFromDays_bounds (z : Int) :
    1 ≤ (civilFromDays z).month ∧ (civilFromDays z).month ≤ 12 ∧
      1 ≤ (civilFromDays z).day ∧ (civilFromDays z).day ≤ 31 := by
  unfold civilFromDays
  obtain ⟨c, q, y, doy, hsplit⟩ : ∃ c q y doy,
      splitEra ((z + 719468) % 146097) = (c, q, y, doy) := ⟨_, _, _, _, rfl⟩
  have hspec := splitEra_spec (by omega) (by omega) hsplit
  simp only [hsplit]
  split <;> omega

/-! ## Instants -/

def microsPerDay : Int := 86400000000

/-- The years that a `datetime` can have. -/
def representable (u : Int) : Bool :=
  1 ≤ (civilFromDays (u / microsPerDay)).year ∧ (civilFromDays (u / microsPerDay)).year ≤ 9999

/-- A timezone-aware UTC `datetime`, in microseconds since the epoch. -/
structure Instant where
  micros : Int
  inRange : representable micros = true
  deriving DecidableEq

/-- The result of arithmetic on a `datetime`; `none` is an `OverflowError`. -/
def ofMicros (u : Int) : Option Instant :=
  if h : representable u = true then some ⟨u, h⟩ else none

/-- What `datetime.fromisoformat` reads: aware stamps are converted to UTC microseconds. -/
inductive Stamp where
  | aware (micros : Int)
  | naive (micros : Int)
  deriving DecidableEq

/-- The instant of a stamp, a naive one in UTC. -/
def Stamp.micros : Stamp → Int
  | .aware u => u
  | .naive u => u

/-! ## Fixed-width decimal digits -/

def digitVal (c : Char) : Option Nat :=
  if 48 ≤ c.toNat ∧ c.toNat ≤ 57 then some (c.toNat - 48) else none

/-- The last `w` decimal digits of `n`, most significant first. -/
def pad : Nat → Nat → Text
  | 0, _ => []
  | w + 1, n => Nat.digitChar (n / 10 ^ w) :: pad w (n % 10 ^ w)

/-- Read exactly `w` digits onto the value read so far. -/
def readDigits : Nat → Nat → Text → Option (Nat × Text)
  | 0, acc, t => some (acc, t)
  | _ + 1, _, [] => none
  | w + 1, acc, c :: t => (digitVal c).bind fun d => readDigits w (acc * 10 + d) t

theorem digitVal_digitChar {d : Nat} (h : d < 10) : digitVal (Nat.digitChar d) = some d := by
  interval_cases d <;> rfl

theorem readDigits_pad {w n : Nat} (h : n < 10 ^ w) (acc : Nat) (t : Text) :
    readDigits w acc (pad w n ++ t) = some (acc * 10 ^ w + n, t) := by
  induction w generalizing n acc with
  | zero =>
    obtain rfl : n = 0 := by simpa using h
    simp [readDigits, pad]
  | succ w ih =>
    have hd : n / 10 ^ w < 10 := by
      rw [Nat.div_lt_iff_lt_mul (by positivity)]
      simpa [pow_succ, Nat.mul_comm] using h
    rw [pad, List.cons_append, readDigits, digitVal_digitChar hd, Option.bind_some,
      ih (Nat.mod_lt _ (by positivity))]
    have hn := Nat.div_add_mod n (10 ^ w)
    congr 2
    rw [pow_succ]
    linarith [hn, Nat.mul_comm (10 ^ w) (n / 10 ^ w)]

def expect (c : Char) : Text → Option Text
  | [] => none
  | d :: t => if d = c then some t else none

theorem expect_cons (c : Char) (t : Text) : expect c (c :: t) = some t := if_pos rfl

/-- The optional fraction of a second, six digits long. -/
def readFraction : Text → Option (Nat × Text)
  | '.' :: t => readDigits 6 0 t
  | t => some (0, t)

/-! ## ISO 8601 text -/

def dateText (c : Civil) : Text :=
  pad 4 c.year.toNat ++ '-' :: (pad 2 c.month.toNat ++ '-' :: pad 2 c.day.toNat)

/-- Hours, minutes, seconds and the fraction, of the microseconds since midnight. -/
def clockText (r : Nat) : Text :=
  pad 2 (r / 3600000000) ++ ':' :: (pad 2 (r / 60000000 % 60) ++ ':' ::
    (pad 2 (r / 1000000 % 60) ++ (if r % 1000000 = 0 then [] else '.' :: pad 6 (r % 1000000))))

/-- `datetime.isoformat()` of an aware UTC instant. -/
def isoformat (t : Instant) : Text :=
  dateText (civilFromDays (t.micros / microsPerDay)) ++
    'T' :: (clockText (t.micros % microsPerDay).toNat ++ ("+00:00" : Text))

/-- A date is valid when it is the date of the day it denotes. -/
def parseDate (t : Text) : Option (Int × Text) := do
  let (y, t) ← readDigits 4 0 t
  let t ← expect '-' t
  let (mo, t) ← readDigits 2 0 t
  let t ← expect '-' t
  let (d, t) ← readDigits 2 0 t
  let day := daysFromCivil ⟨y, mo, d⟩
  if 1 ≤ y ∧ civilFromDays day = ⟨y, mo, d⟩ then some (day, t) else none

def parseClock (t : Text) : Option (Nat × Text) := do
  let (hh, t) ← readDigits 2 0 t
  let t ← expect ':' t
  let (mi, t) ← readDigits 2 0 t
  let t ← expect ':' t
  let (ss, t) ← readDigits 2 0 t
  let (us, t) ← readFraction t
  if hh < 24 ∧ mi < 60 ∧ ss < 60 then some (((hh * 60 + mi) * 60 + ss) * 1000000 + us, t)
  else none

/-- The stamps of the form `YYYY-MM-DDTHH:MM:SS[.ffffff][+00:00]`. -/
def parseIso (t : Text) : Option Stamp := do
  let (day, t) ← parseDate t
  let t ← expect 'T' t
  let (r, t) ← parseClock t
  let u := day * microsPerDay + r
  if t = [] then some (.naive u)
  else if t = ("+00:00" : Text) then some (.aware u) else none

variable {α : Type}

theorem readDigits_pad_bind {w n : Nat} (h : n < 10 ^ w) (t : Text)
    (f : Nat × Text → Option α) : (readDigits w 0 (pad w n ++ t) >>= f) = f (n, t) := by
  rw [readDigits_pad h, Nat.zero_mul, Nat.zero_add]
  rfl

theorem expect_bind (c : Char) (t : Text) (f : Text → Option α) :
    (expect c (c :: t) >>= f) = f t := by
  rw [expect_cons]
  rfl

theorem parseDate_dateText {z : Int} {c : Civil} (hc : civilFromDays z = c) (hy : 1 ≤ c.year)
    (hy' : c.year ≤ 9999) (t : Text) : parseDate (dateText c ++ t) = some (z, t) := by
  obtain ⟨hm, hm', hd, hd'⟩ := civilFromDays_bounds z
  rw [hc] at hm hm' hd hd'
  unfold parseDate dateText
  simp only [List.append_assoc, List.cons_append]
  rw [readDigits_pad_bind (by omega), expect_bind, readDigits_pad_bind (by omega), expect_bind,
    readDigits_pad_bind (by omega)]
  have heq : (⟨(c.year.toNat : Nat), (c.month.toNat : Nat), (c.day.toNat : Nat)⟩ : Civil) = c := by
    rw [show ((c.year.toNat : Nat) : Int) = c.year by omega,
      show ((c.month.toNat : Nat) : Int) = c.month by omega,
      show ((c.day.toNat : Nat) : Int) = c.day by omega]
  have hday : daysFromCivil c = z := by rw [← hc, daysFromCivil_civilFromDays]
  dsimp only
  rw [heq, hday, if_pos ⟨by omega, hc⟩]

theorem readFraction_bind {n : Nat} (h : n < 1000000) {t : Text} (ht : t.head? ≠ some '.')
    (f : Nat × Text → Option α) :
    (readFraction ((if n = 0 then [] else '.' :: pad 6 n) ++ t) >>= f) = f (n, t) := by
  by_cases hn : n = 0
  · subst hn
    have hr : readFraction t = some (0, t) := by
      unfold readFraction
      split
      · exact absurd rfl ht
      · rfl
    rw [if_pos rfl, List.nil_append, hr]
    rfl
  · rw [if_neg hn, List.cons_append]
    exact readDigits_pad_bind (by simpa using h) t f

theorem parseClock_clockText {r : Nat} (hr : r < 86400000000) {t : Text}
    (ht : t.head? ≠ some '.') : parseClock (clockText r ++ t) = some (r, t) := by
  unfold parseClock clockText
  simp only [List.append_assoc, List.cons_append]
  rw [readDigits_pad_bind (by omega), expect_bind, readDigits_pad_bind (by omega), expect_bind,
    readDigits_pad_bind (by omega), readFraction_bind (Nat.mod_lt _ (by omega)) ht]
  dsimp only
  rw [if_pos ⟨by omega, by omega, by omega⟩]
  congr 2
  omega

/-- Reading the text of an instant gives the instant back. -/
theorem parseIso_isoformat (t : Instant) : parseIso (isoformat t) = some (.aware t.micros) := by
  have hrange := t.inRange
  simp only [representable, decide_eq_true_eq] at hrange
  have hclock : (t.micros % microsPerDay).toNat < 86400000000 := by
    unfold microsPerDay
    omega
  unfold parseIso isoformat
  rw [parseDate_dateText rfl hrange.1 hrange.2, Option.bind_eq_bind, Option.bind_some]
  dsimp only
  rw [expect_bind, parseClock_clockText hclock (by decide), Option.bind_eq_bind, Option.bind_some]
  dsimp only
  rw [if_neg (by decide), if_pos rfl]
  congr 2
  unfold microsPerDay
  omega

end Calendar

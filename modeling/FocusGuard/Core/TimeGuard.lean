import FocusGuard.Runtime

/-!
# Durations, end times and remaining time

`focusguard/core/time_guard.py`. Clock readings are arguments: a function that reads the
clock again is given the next reading.
-/

namespace FocusGuard

open Calendar

variable (rt : Runtime)

/-- The `:02d` format. -/
def twoDigits (n : Nat) : Text :=
  if n < 10 then '0' :: Nat.toDigits 10 n else Nat.toDigits 10 n

/-- `HH:MM:SS`, for a number of microseconds that is not negative. -/
def formatRemainingSeconds (remaining : Int) : Text :=
  let sec := (max 0 (remaining / 1000000)).toNat
  twoDigits (sec / 3600) ++ ':' :: (twoDigits (sec % 3600 / 60) ++ ':' :: twoDigits (sec % 60))

/-- One optional group `(?:(\d+)u)?` of the duration grammar, for a unit letter. -/
def durationGroup (unit : Char → Bool) (t : Text) : Option Text × Text :=
  let digits := t.takeWhile fun c => (rt.decimal c).isSome
  match t.dropWhile fun c => (rt.decimal c).isSome with
  | c :: rest => if digits ≠ [] ∧ unit c then (some digits, rest) else (none, t)
  | [] => (none, t)

/-- `DURATION_REGEX.match(t)`: the three groups, when the whole text is consumed. Letter
case is ignored, and ſ matches `s` then. -/
def matchDuration (t : Text) : Option (Option Text × Option Text × Option Text) :=
  let (hours, t) := durationGroup rt (fun c => c = 'h' ∨ c = 'H') t
  let (minutes, t) := durationGroup rt (fun c => c = 'm' ∨ c = 'M') t
  let (seconds, t) := durationGroup rt (fun c => c = 's' ∨ c = 'S' ∨ c = Char.ofNat 0x17F) t
  if t = [] then some (hours, minutes, seconds) else none

/-- `int(group or 0)`. -/
def groupValue : Option Text → Nat
  | none => 0
  | some t => (rt.int t).getD 0

/-- `int(t)`, raising on a digit that has no decimal value. -/
def intOrRaise (t : Text) : Except PyError Nat :=
  match rt.int t with
  | some n => .ok n
  | none =>
    .error (.valueError (("invalid literal for int() with base 10: '" : Text) ++ t ++ ("'" : Text)))

def invalidDuration (durationStr : Text) : PyError :=
  .valueError (("Invalid duration format '" : Text) ++ durationStr ++
    ("'. Examples: '4h', '45m', '1h30m'." : Text))

def parseDurationToSeconds (durationStr : Text) : Except PyError Nat :=
  let clean := rt.lower (Text.strip durationStr)
  if clean = [] then .error (.valueError "Duration string cannot be empty.")
  else if rt.isdigit clean then
    match intOrRaise rt clean with
    | .error e => .error e
    | .ok mins =>
      if mins ≤ 0 then .error (.valueError "Duration must be greater than 0.")
      else .ok (mins * 60)
  else
    match matchDuration rt clean with
    | some (hours, minutes, seconds) =>
      if hours = none ∧ minutes = none ∧ seconds = none then
        .error (invalidDuration durationStr)
      else
        let total := groupValue rt hours * 3600 + groupValue rt minutes * 60 +
          groupValue rt seconds
        if total ≤ 0 then .error (.valueError "Duration must be greater than 0.")
        else .ok total
    | none => .error (invalidDuration durationStr)

/-- `d` seconds after `t`, or an `OverflowError`. -/
def addSeconds (t : Instant) (d : Nat) : Except PyError Instant :=
  match ofMicros (t.micros + d * 1000000) with
  | some u => .ok u
  | none => .error .overflowError

def toInstant (u : Int) : Except PyError Instant :=
  match ofMicros u with
  | some t => .ok t
  | none => .error .overflowError

/-- The first case of `parse_until_to_utc`: a full ISO stamp, in UTC when it names no zone.
`none` stands for the `ValueError` the code swallows, a stamp in the past included. -/
def parseUntilIso (clean : Text) (now : Instant) : Except PyError (Option Instant) :=
  match rt.fromisoformat clean with
  | none => .ok none
  | some (.naive u) | some (.aware u) =>
    match toInstant u with
    | .error e => .error e
    | .ok dt => .ok (if dt.micros ≤ now.micros then none else some dt)

def invalidTime (untilStr : Text) : PyError :=
  .valueError (("Invalid time values in '" : Text) ++ untilStr ++ ("'." : Text))

def cannotParseTime (untilStr : Text) : PyError :=
  .valueError (("Cannot parse end time '" : Text) ++ untilStr ++
    ("'. Use HH:MM (e.g. '23:30') or full ISO format (e.g. '2026-09-10T23:30:00')." : Text))

/-- The second case: `HH:MM[:SS]` on the local clock, tomorrow when it has passed today.
`localNow` and `zoneNow` are the two further readings the code takes. -/
def parseUntilClock (untilStr clean : Text) (localNow zoneNow : Instant) :
    Except PyError Instant :=
  let timeParts := clean.splitOn ':'
  if (timeParts.length = 2 ∨ timeParts.length = 3) ∧ timeParts.all rt.isdigit then
    match timeParts.mapM (intOrRaise rt) with
    | .error e => .error e
    | .ok parts =>
      let hour := parts.getD 0 0
      let minute := parts.getD 1 0
      let second := parts.getD 2 0
      if ¬ (hour ≤ 23 ∧ minute ≤ 59 ∧ second ≤ 59) then .error (invalidTime untilStr)
      else
        let local' := localNow.micros + rt.localOffset localNow.micros
        let target := local' / microsPerDay * microsPerDay +
          ((hour * 60 + minute) * 60 + second : Nat) * 1000000
        let target := if target ≤ local' then target + microsPerDay else target
        if ¬ representable target then .error .overflowError
        else toInstant (target - rt.localOffset zoneNow.micros)
  else .error (cannotParseTime untilStr)

def parseUntilToUtc (untilStr : Text) (now localNow zoneNow : Instant) :
    Except PyError Instant :=
  match parseUntilIso rt (Text.strip untilStr) now with
  | .error e => .error e
  | .ok (some dt) => .ok dt
  | .ok none => parseUntilClock rt untilStr (Text.strip untilStr) localNow zoneNow

end FocusGuard

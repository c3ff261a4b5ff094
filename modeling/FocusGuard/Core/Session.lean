import FocusGuard.Core.TimeGuard
import FocusGuard.Storage.State

/-!
# The locked session

`focusguard/core/session.py`. Timestamps are stored as text; comparing a reading with a
stored text raises when the text is no timestamp or has no time zone.
-/

namespace FocusGuard

open Calendar

variable (rt : Runtime)

def SessionState.isLocked (s : SessionState) : Bool := s.status = .locked

/-- A stored timestamp as an aware stamp, as far as it can be compared with a reading. -/
def awareMicros (t : Text) : Except PyError Int :=
  match rt.fromisoformat t with
  | none =>
    .error (.valueError (("Invalid isoformat string: '" : Text) ++ t ++ ("'" : Text)))
  | some (.naive _) => .error .typeError
  | some (.aware u) => .ok u

/-- `get_remaining_seconds(now)`, in microseconds. -/
def getRemainingSeconds (s : SessionState) (now : Instant) : Except PyError Int :=
  if ¬ s.isLocked ∨ s.expiresAtUtc.getD [] = [] then .ok 0
  else
    match awareMicros rt (s.expiresAtUtc.getD []) with
    | .error e => .error e
    | .ok expiresAt => .ok (max 0 (expiresAt - now.micros))

def lockedError (s : SessionState) (remaining : Int) : PyError :=
  .lockedSession (s.expiresAtUtc.getD []) remaining

/-- Whether the clock stands before the recorded creation time. -/
def rolledBack (s : SessionState) (now : Instant) : Except PyError Bool :=
  if s.createdAtUtc.getD [] = [] then .ok false
  else
    match awareMicros rt (s.createdAtUtc.getD []) with
    | .error e => .error e
    | .ok createdAt => .ok (now.micros < createdAt)

/-- `check_expiration(now)`: marks an expired session as such and says so. -/
def checkExpiration (now : Instant) : Exec PyError SessionState (Bool × Text) := fun s =>
  if ¬ s.isLocked then (.ok (false, "Not locked"), s)
  else
    match rolledBack rt s now with
    | .error e => (.error e, s)
    | .ok true => (.ok (false, "Clock rollback detected: remaining in locked mode."), s)
    | .ok false =>
      match awareMicros rt (s.expiresAtUtc.getD []) with
      | .error e => (.error e, s)
      | .ok expiresAt =>
        if expiresAt ≤ now.micros then
          (.ok (true, "Focus session reached expiration time and completed successfully."),
            { s with status := .expired })
        else (.ok (false, "Session still active"), s)

/-- `release_expired()`. -/
def releaseExpired : Exec PyError SessionState Unit := Exec.modify fun _ => {}

/-- `assert_not_locked()`: raises while time remains; afterwards it runs the expiry check,
which takes a reading of its own. -/
def assertNotLocked (clock : Nat → Instant) : Exec PyError SessionState Unit := do
  let s ← Exec.get
  if s.isLocked then
    let rem ← Exec.ofExcept (getRemainingSeconds rt s (clock 0))
    if 0 < rem then Exec.throw (lockedError s rem)
    else
      let _ ← checkExpiration rt (clock 1)
      pure ()
  else pure ()

/-- `start_session(...)`: a locked session is only replaced once no time remains. -/
def startSession (env : CallEnv) (expiresAt : Instant) (durationSeconds : Int)
    (domains services : List Text) (now : Instant) : Exec PyError SessionState Unit := do
  let s ← Exec.get
  let rem ← Exec.ofExcept (getRemainingSeconds rt s now)
  if s.isLocked ∧ 0 < rem then Exec.throw (lockedError s rem)
  else
    Exec.modify fun _ => {
      status := .locked
      sessionId := some env.sessionId
      createdAtUtc := some (isoformat now)
      expiresAtUtc := some (isoformat expiresAt)
      durationSeconds := durationSeconds
      sessionDomains := domains
      sessionServices := services
      bootId := some env.bootId }

/-- `get_summary()`. -/
def getSummary (s : SessionState) (now : Instant) : Except PyError (List (Text × Json)) :=
  match getRemainingSeconds rt s now with
  | .error e => .error e
  | .ok rem => .ok [
      ("status", .str s.status.toText),
      ("session_id", .ofOptText s.sessionId),
      ("created_at", .ofOptText s.createdAtUtc),
      ("expires_at", .ofOptText s.expiresAtUtc),
      ("duration_seconds", .int s.durationSeconds),
      ("remaining_seconds", .int (rem / 1000000)),
      ("remaining_formatted", .str (formatRemainingSeconds rem)),
      ("domains", .ofTexts s.sessionDomains),
      ("domain_count", .int s.sessionDomains.length),
      ("services", .ofTexts s.sessionServices),
      ("service_count", .int s.sessionServices.length)]

/-- `str(e)`. -/
def PyError.message : PyError → Text
  | .lockedSession expiresAtIso remaining =>
    ("LOCKED FOCUS SESSION IN PROGRESS.\n" : Text) ++
    ("Modification and cancellation are disabled until: " : Text) ++ expiresAtIso ++
    ("\nTime remaining: " : Text) ++ formatRemainingSeconds remaining ++
    ("\nAnti-impulse guard active. Stay focused!" : Text)
  | .invalidDomain m => m
  | .valueError m => m
  | e => rt.builtinMessage e

end FocusGuard

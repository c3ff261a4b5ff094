import FocusGuard.Runtime

/-!
# Persistent state and its signature

`focusguard/storage/state.py`. The state file is a JSON object that carries the configuration,
the session and an HMAC of the rest of the object; the key is a file of its own. What
`json.load` cannot read at all is one `unparsable` content, and the data directory is
taken to exist.
-/

namespace FocusGuard

/-! ## The records -/

/-- `SessionState.status`: the three values the program uses, or whatever a file says. -/
inductive Status where
  | idle
  | locked
  | expired
  | other (name : Text)
      (h : name ≠ ("IDLE" : Text) ∧ name ≠ ("LOCKED" : Text) ∧ name ≠ ("EXPIRED" : Text))
  deriving DecidableEq

def Status.toText : Status → Text
  | .idle => "IDLE"
  | .locked => "LOCKED"
  | .expired => "EXPIRED"
  | .other name _ => name

def Status.ofText (t : Text) : Status :=
  if hi : t = ("IDLE" : Text) then .idle
  else if hl : t = ("LOCKED" : Text) then .locked
  else if he : t = ("EXPIRED" : Text) then .expired
  else .other t ⟨hi, hl, he⟩

@[simp] theorem Status.ofText_toText (s : Status) : ofText s.toText = s := by
  cases s with
  | idle => rfl
  | locked => rfl
  | expired => rfl
  | other name h => exact (dif_neg h.1).trans ((dif_neg h.2.1).trans (dif_neg h.2.2))

structure SessionState where
  status : Status := .idle
  sessionId : Option Text := none
  createdAtUtc : Option Text := none
  expiresAtUtc : Option Text := none
  durationSeconds : Int := 0
  sessionDomains : List Text := []
  sessionServices : List Text := []
  bootId : Option Text := none
  deriving DecidableEq

structure AppConfig where
  permanentDomains : List Text := []
  permanentServices : List Text := []
  allowedDomains : List Text := []
  allowlistMode : Bool := false
  blockDoh : Bool := true
  blockVpns : Bool := true
  dnsPort : Int := 53
  upstreams : List (List Json) :=
    [[.str "1.1.1.1", .int 53], [.str "9.9.9.9", .int 53], [.str "1.0.0.1", .int 53]]

structure PersistentData where
  config : AppConfig := {}
  session : SessionState := {}
  hmacSignature : Option Text := none

/-! ## Records as JSON objects -/

def SessionState.toJson (s : SessionState) : Json := .obj [
  ("status", .str s.status.toText),
  ("session_id", .ofOptText s.sessionId),
  ("created_at_utc", .ofOptText s.createdAtUtc),
  ("expires_at_utc", .ofOptText s.expiresAtUtc),
  ("duration_seconds", .int s.durationSeconds),
  ("session_domains", .ofTexts s.sessionDomains),
  ("session_services", .ofTexts s.sessionServices),
  ("boot_id", .ofOptText s.bootId)]

def AppConfig.toJson (c : AppConfig) : Json := .obj [
  ("permanent_domains", .ofTexts c.permanentDomains),
  ("permanent_services", .ofTexts c.permanentServices),
  ("allowed_domains", .ofTexts c.allowedDomains),
  ("allowlist_mode", .bool c.allowlistMode),
  ("block_doh", .bool c.blockDoh),
  ("block_vpns", .bool c.blockVpns),
  ("dns_port", .int c.dnsPort),
  ("upstreams", .arr (c.upstreams.map .arr))]

/-- `raw.get(key, default)`, read as a value of one type; `none` where it has another. -/
def field {α : Type} (read : Json → Option α) (members : List (Text × Json)) (key : Text)
    (default : α) : Option α :=
  match Json.lookup members key with
  | some v => read v
  | none => some default

def SessionState.ofMembers (m : List (Text × Json)) : Option SessionState := do
  let status ← field (fun j => j.text?.map Status.ofText) m "status" .idle
  let sessionId ← field Json.optText? m "session_id" none
  let createdAtUtc ← field Json.optText? m "created_at_utc" none
  let expiresAtUtc ← field Json.optText? m "expires_at_utc" none
  let durationSeconds ← field Json.int? m "duration_seconds" 0
  let sessionDomains ← field Json.texts? m "session_domains" []
  let sessionServices ← field Json.texts? m "session_services" []
  let bootId ← field Json.optText? m "boot_id" none
  some ⟨status, sessionId, createdAtUtc, expiresAtUtc, durationSeconds, sessionDomains,
    sessionServices, bootId⟩

/-- The list-of-lists type of `upstreams`. -/
def upstreams? (j : Json) : Option (List (List Json)) := j.arr?.bind fun l => l.mapM Json.arr?

def AppConfig.ofMembers (m : List (Text × Json)) : Option AppConfig := do
  let permanentDomains ← field Json.texts? m "permanent_domains" []
  let permanentServices ← field Json.texts? m "permanent_services" []
  let allowedDomains ← field Json.texts? m "allowed_domains" []
  let allowlistMode ← field Json.bool? m "allowlist_mode" false
  let blockDoh ← field Json.bool? m "block_doh" true
  let blockVpns ← field Json.bool? m "block_vpns" true
  let dnsPort ← field Json.int? m "dns_port" 53
  let upstreams ← field upstreams? m "upstreams"
    [[.str "1.1.1.1", .int 53], [.str "9.9.9.9", .int 53]]
  some ⟨permanentDomains, permanentServices, allowedDomains, allowlistMode, blockDoh, blockVpns,
    dnsPort, upstreams⟩

/-! ## Files -/

/-- The content of `state.json`, up to `json.load`. -/
inductive FileContent where
  | unparsable
  | json (value : Json)

structure Disk where
  stateFile : Option FileContent := none
  secretFile : Option Bytes := none

/-- A `StateManager` together with the directory it works on. -/
structure StateManager where
  disk : Disk
  secret : Option Bytes := none

/-- What the host decides during one call: the successive clock readings, the fresh random
key and identifiers, and whether the state file can be written. -/
structure CallEnv where
  clock : Nat → Calendar.Instant
  token : { b : Bytes // b.length = 32 }
  sessionId : Text
  bootId : Text
  saveOk : Bool

/-- The bytes that `bytes.strip()` removes. -/
def isByteSpace (b : UInt8) : Bool := (9 ≤ b.toNat ∧ b.toNat ≤ 13) ∨ b.toNat = 32

def stripBytes (b : Bytes) : Bytes := Text.stripBy isByteSpace b

def hexDigit (n : Nat) : Char := Nat.digitChar n

def hexdigest (b : Bytes) : Text :=
  b.flatMap fun x => [hexDigit (x.toNat / 16), hexDigit (x.toNat % 16)]

variable (rt : Runtime) (env : CallEnv)

/-- `_get_secret`: the cached key, else the file's bytes stripped, else a fresh key that
replaces the file. -/
def getSecret : Exec PyError StateManager Bytes := fun m =>
  match m.secret with
  | some key => (.ok key, m)
  | none =>
    match m.disk.secretFile with
    | some file =>
      if 32 ≤ (stripBytes file).length then
        (.ok (stripBytes file), { m with secret := some (stripBytes file) })
      else
        (.ok env.token.val,
          { disk := { m.disk with secretFile := some env.token.val }, secret := some env.token.val })
    | none =>
      (.ok env.token.val,
        { disk := { m.disk with secretFile := some env.token.val }, secret := some env.token.val })

/-- The members of the object without the signature. -/
def unsigned (members : List (Text × Json)) : List (Text × Json) :=
  members.filter fun m => m.1 ≠ ("hmac_signature" : Text)

def calculateHmac (members : List (Text × Json)) : Exec PyError StateManager Text := do
  let secret ← getSecret env
  pure (hexdigest (rt.hmacSha256 secret (rt.dumps (.obj (unsigned members)))))

/-- `asdict(data)`, the signature replaced. -/
def stateMembers (data : PersistentData) (signature : Option Text) : List (Text × Json) := [
  ("config", data.config.toJson),
  ("session", data.session.toJson),
  ("hmac_signature", .ofOptText signature)]

/-- `save(data)`; an unwritable state file is an `OSError` and leaves the old file. -/
def save (data : PersistentData) : Exec PyError StateManager Unit := do
  let signature ← calculateHmac rt env (stateMembers data data.hmacSignature)
  if env.saveOk then
    Exec.modify fun m => { m with
      disk := { m.disk with stateFile := some (.json (.obj (stateMembers data (some signature)))) } }
  else Exec.throw .osError

/-- The data of a parsed state file. The outer `none` is an exception while it is read: not
an object, or a signature that `compare_digest` refuses. The inner one is a member of
another type than the record declares: the source carries such a value on, and the
typed engine does not start on it. -/
def readState (value : Json) : Option (Option PersistentData) :=
  match value with
  | .obj members =>
    match (Json.lookup members "hmac_signature").getD .null,
        (Json.lookup members "config").getD (.obj []),
        (Json.lookup members "session").getD (.obj []) with
    | .null, .obj c, .obj s =>
      some do some ⟨← AppConfig.ofMembers c, ← SessionState.ofMembers s, none⟩
    | .str sig, .obj c, .obj s =>
      if Text.isAscii sig then
        some do some ⟨← AppConfig.ofMembers c, ← SessionState.ofMembers s, some sig⟩
      else none
    | _, _, _ => none
  | _ => none

/-- The exception branch of `load`: the unreadable file is moved away, the defaults saved. -/
def loadFallback : Exec PyError StateManager (PersistentData × Bool) := do
  Exec.modify fun m => { m with disk := { m.disk with stateFile := none } }
  save rt env {}
  pure ({}, false)

/-- `load()`: the data and whether its signature verifies. -/
def load : Exec PyError StateManager (PersistentData × Bool) := do
  let m ← Exec.get
  match m.disk.stateFile with
  | none =>
    save rt env {}
    pure ({}, true)
  | some .unparsable => loadFallback rt env
  | some (.json value) =>
    match readState value with
    | none => loadFallback rt env
    | some none => Exec.throw .typeError
    | some (some data) =>
      let expected ← calculateHmac rt env value.members
      pure (data, data.hmacSignature = some expected)

end FocusGuard

import FocusGuard.Lib.JsonIndent
import FocusGuard.Storage.RawState

/-!
# The bytes of the state file

What `save` writes for a record and what `load` makes of those bytes. The record comes back with
the dictionaries in it in the order of their keys.

## Main definitions

* `StoredData`: what can be saved.
* `writtenBytes`, `readBytes`: the two directions.

## Main results

* `readBytes_writtenBytes`: the round trip.
* `readBytes_ofTyped`: on typed records it agrees with what `save` stores.
-/

namespace FocusGuard

/-! ## Records as JSON objects -/

def RawSession.toJson (s : RawSession) : Json := .obj [
  ("status", s.status),
  ("session_id", s.sessionId),
  ("created_at_utc", s.createdAtUtc),
  ("expires_at_utc", s.expiresAtUtc),
  ("duration_seconds", s.durationSeconds),
  ("session_domains", s.sessionDomains),
  ("session_services", s.sessionServices),
  ("boot_id", s.bootId)]

def RawConfig.toJson (c : RawConfig) : Json := .obj [
  ("permanent_domains", c.permanentDomains),
  ("permanent_services", c.permanentServices),
  ("allowed_domains", c.allowedDomains),
  ("allowlist_mode", c.allowlistMode),
  ("block_doh", c.blockDoh),
  ("block_vpns", c.blockVpns),
  ("dns_port", c.dnsPort),
  ("upstreams", c.upstreams)]

theorem SessionState.raw_toJson (s : SessionState) : s.raw.toJson = s.toJson := rfl

theorem AppConfig.raw_toJson (c : AppConfig) : c.raw.toJson = c.toJson := rfl

/-- `asdict(data)`, the signature replaced. -/
def rawMembers (config : RawConfig) (session : RawSession) (signature : Json) :
    List (Text × Json) := [
  ("config", config.toJson),
  ("session", session.toJson),
  ("hmac_signature", signature)]

theorem rawMembers_nodup (config : RawConfig) (session : RawSession) (signature : Json) :
    ((rawMembers config session signature).map Prod.fst).Nodup :=
  show (["config", "session", "hmac_signature"] : List Text).Nodup by decide

/-- A `PersistentData` of any values that the interpreter can hold. The signature it carries is
replaced before anything is made of it. -/
structure StoredData (fl : Floats) where
  config : RawConfig
  session : RawSession
  hmacSignature : Json
  config_held : config.toJson.Held fl
  session_held : session.toJson.Held fl

variable {fl : Floats}

/-- `PersistentData()`. -/
def StoredData.default (fl : Floats) : StoredData fl where
  config := {}
  session := {}
  hmacSignature := .null
  config_held := ⟨by decide, by simp [Json.HeldMembers, Json.Held, Json.HeldItems]⟩
  session_held := ⟨by decide, by simp [Json.HeldMembers, Json.Held, Json.HeldItems]⟩

theorem held_ofOptText (t : Option Text) : (Json.ofOptText t).Held fl := by
  cases t <;> trivial

theorem held_ofTexts (l : List Text) : (Json.ofTexts l).Held fl := by
  show Json.HeldItems fl (l.map Json.str)
  induction l with
  | nil => trivial
  | cons t l ih => exact ⟨trivial, ih⟩

theorem SessionState.toJson_held (s : SessionState) : s.toJson.Held fl :=
  ⟨show (["status", "session_id", "created_at_utc", "expires_at_utc", "duration_seconds",
      "session_domains", "session_services", "boot_id"] : List Text).Nodup by decide,
    trivial, held_ofOptText _, held_ofOptText _, held_ofOptText _, trivial, held_ofTexts _,
    held_ofTexts _, held_ofOptText _, trivial⟩

/-- Only `upstreams` may hold values of any type. -/
theorem AppConfig.toJson_held (c : AppConfig) (h : (Json.arr (c.upstreams.map .arr)).Held fl) :
    c.toJson.Held fl :=
  ⟨show (["permanent_domains", "permanent_services", "allowed_domains", "allowlist_mode",
      "block_doh", "block_vpns", "dns_port", "upstreams"] : List Text).Nodup by decide,
    held_ofTexts _, held_ofTexts _, held_ofTexts _, trivial, trivial, trivial, trivial, h, trivial⟩

/-- The typed records can be saved. -/
def StoredData.ofTyped (data : PersistentData) (h : data.config.toJson.Held fl) :
    StoredData fl where
  config := data.config.raw
  session := data.session.raw
  hmacSignature := .ofOptText data.hmacSignature
  config_held := h
  session_held := data.session.toJson_held

/-- What is written under a signature. -/
def writtenValue (data : StoredData fl) (signature : Text) : Json :=
  Json.sortKeys (.obj (rawMembers data.config data.session (.str signature)))

/-- `json.dump(raw_dict, f, indent=2, sort_keys=True)`, in UTF-8. -/
def writtenBytes (data : StoredData fl) (signature : Text) : Bytes :=
  (Json.dumpIndent fl 0 (writtenValue data signature)).encode

/-! ## Reading -/

/-- The line ends of a file that is opened as text. -/
def universalNewlines : Text → Text
  | [] => []
  | '\r' :: '\n' :: t => '\n' :: universalNewlines t
  | '\r' :: t => '\n' :: universalNewlines t
  | c :: t => c :: universalNewlines t

/-- `json.load` on the state file. -/
def jsonLoad (fl : Floats) (content : Bytes) : Option Json :=
  (Bytes.decode content).bind fun t => Json.loads fl (universalNewlines t)

/-- What `load` reads, up to the verification; `none` is an exception on the way. -/
def readBytes (fl : Floats) (content : Bytes) : Option (RawConfig × RawSession) :=
  (jsonLoad fl content).bind readRaw

def RawSession.sorted (s : RawSession) : RawSession where
  status := s.status.sortKeys
  sessionId := s.sessionId.sortKeys
  createdAtUtc := s.createdAtUtc.sortKeys
  expiresAtUtc := s.expiresAtUtc.sortKeys
  durationSeconds := s.durationSeconds.sortKeys
  sessionDomains := s.sessionDomains.sortKeys
  sessionServices := s.sessionServices.sortKeys
  bootId := s.bootId.sortKeys

def RawConfig.sorted (c : RawConfig) : RawConfig where
  permanentDomains := c.permanentDomains.sortKeys
  permanentServices := c.permanentServices.sortKeys
  allowedDomains := c.allowedDomains.sortKeys
  allowlistMode := c.allowlistMode.sortKeys
  blockDoh := c.blockDoh.sortKeys
  blockVpns := c.blockVpns.sortKeys
  dnsPort := c.dnsPort.sortKeys
  upstreams := c.upstreams.sortKeys

theorem universalNewlines_eq {t : Text} (h : '\r' ∉ t) : universalNewlines t = t := by
  induction t with
  | nil => rfl
  | cons c t ih =>
    obtain ⟨hc, ht⟩ := not_or.mp (mt List.mem_cons.mpr h)
    rw [universalNewlines, ih ht]
    · rintro t rfl
      exact absurd rfl hc
    · rintro rfl
      exact absurd rfl hc

theorem writtenValue_held (data : StoredData fl) (signature : Text) :
    (writtenValue data signature).Held fl := by
  refine Json.Held.sortKeys _ ⟨rawMembers_nodup _ _ _, ?_⟩
  exact ⟨data.config_held, data.session_held, trivial, trivial⟩

/-- The written bytes are read as the written value. -/
theorem jsonLoad_writtenBytes (data : StoredData fl) (signature : Text) :
    jsonLoad fl (writtenBytes data signature) = some (writtenValue data signature) := by
  have hlines := Json.lines_dumpIndent fl (writtenValue data signature) 0
  have hnewline : universalNewlines (Json.dumpIndent fl 0 (writtenValue data signature)) =
      Json.dumpIndent fl 0 (writtenValue data signature) := by
    refine universalNewlines_eq fun hr => ?_
    have hr := hlines _ hr
    revert hr
    decide
  rw [jsonLoad, writtenBytes, Bytes.decode_encode, Option.bind_some, hnewline]
  exact Json.loads_dumpIndent (writtenValue_held data signature)

/-- A member of a sorted dictionary is the sorted member. -/
theorem member_sorted {l : List (Text × Json)} (h : (l.map Prod.fst).Nodup) {key : Text}
    {v : Json} (default : Json) (hv : Json.lookup l key = some v) :
    member ((Json.sortMembers l).insertionSort fun a b => a.1 ≤ b.1) key default =
      v.sortKeys := by
  rw [member, Json.lookup_sorted h, hv]
  rfl

theorem RawConfig.ofMembers_sorted (c : RawConfig) : ∃ m, c.toJson.sortKeys = .obj m ∧
    RawConfig.ofMembers m = c.sorted := by
  refine ⟨_, rfl, ?_⟩
  have hnodup : (c.toJson.members.map Prod.fst).Nodup :=
    show (["permanent_domains", "permanent_services", "allowed_domains", "allowlist_mode",
      "block_doh", "block_vpns", "dns_port", "upstreams"] : List Text).Nodup by decide
  rw [RawConfig.ofMembers, RawConfig.sorted, RawConfig.mk.injEq]
  exact ⟨member_sorted hnodup _ rfl, member_sorted hnodup _ rfl, member_sorted hnodup _ rfl,
    member_sorted hnodup _ rfl, member_sorted hnodup _ rfl, member_sorted hnodup _ rfl,
    member_sorted hnodup _ rfl, member_sorted hnodup _ rfl⟩

theorem RawSession.ofMembers_sorted (s : RawSession) : ∃ m, s.toJson.sortKeys = .obj m ∧
    RawSession.ofMembers m = s.sorted := by
  refine ⟨_, rfl, ?_⟩
  have hnodup : (s.toJson.members.map Prod.fst).Nodup :=
    show (["status", "session_id", "created_at_utc", "expires_at_utc", "duration_seconds",
      "session_domains", "session_services", "boot_id"] : List Text).Nodup by decide
  rw [RawSession.ofMembers, RawSession.sorted, RawSession.mk.injEq]
  exact ⟨member_sorted hnodup _ rfl, member_sorted hnodup _ rfl, member_sorted hnodup _ rfl,
    member_sorted hnodup _ rfl, member_sorted hnodup _ rfl, member_sorted hnodup _ rfl,
    member_sorted hnodup _ rfl, member_sorted hnodup _ rfl⟩

/-- A record that was written under an ASCII signature is read back. -/
theorem readRaw_writtenValue (data : StoredData fl) {signature : Text}
    (h : Text.isAscii signature = true) :
    readRaw (writtenValue data signature) = some (data.config.sorted, data.session.sorted) := by
  obtain ⟨c, hc, hc'⟩ := data.config.ofMembers_sorted
  obtain ⟨s, hs, hs'⟩ := data.session.ofMembers_sorted
  have hnodup := rawMembers_nodup data.config data.session (.str signature)
  have hmember : ∀ (key : Text) (v default : Json),
      Json.lookup (rawMembers data.config data.session (.str signature)) key = some v →
      member _ key default = v.sortKeys := fun _ _ default => member_sorted hnodup default
  simp only [writtenValue, Json.sortKeys, readRaw]
  rw [hmember "hmac_signature" _ .null rfl, hmember "config" _ _ rfl, hmember "session" _ _ rfl,
    hc, hs]
  simp only [Json.sortKeys, h, if_true, hc', hs']

theorem readBytes_writtenBytes (data : StoredData fl) {signature : Text}
    (h : Text.isAscii signature = true) :
    readBytes fl (writtenBytes data signature) =
      some (data.config.sorted, data.session.sorted) := by
  rw [readBytes, jsonLoad_writtenBytes, Option.bind_some, readRaw_writtenValue data h]

/-- On typed records the bytes are read as the value is that `save` stores, but for the order of the
keys. -/
theorem readBytes_ofTyped (data : PersistentData) (hheld : data.config.toJson.Held fl)
    {signature : Text} (h : Text.isAscii signature = true) :
    readBytes fl (writtenBytes (.ofTyped data hheld) signature) =
      (readRaw (.obj (stateMembers data (some signature)))).map
        fun r => (r.1.sorted, r.2.sorted) := by
  have hstate : readState (.obj (stateMembers data (some signature))) = _ :=
    readState_stateMembers data (by simpa using h)
  rw [readBytes_writtenBytes _ h, readRaw_of_readState hstate]
  rfl

end FocusGuard

import FocusGuard.Lib.Values
import FocusGuard.Storage.RoundTrip

/-!
# The state as it is loaded

`StateManager.load` takes every member by its key, whatever its value is: the annotations of the
records are not checked. Here the members of a record are JSON values. A file whose members have
the types that the records declare gives the typed records.

## Main results

* `readRaw_of_readState`: what a typed reading gives, the untyped one gives.
-/

namespace FocusGuard

/-- `SessionState`, as `load` fills it. -/
structure RawSession where
  status : Json := .str "IDLE"
  sessionId : Json := .null
  createdAtUtc : Json := .null
  expiresAtUtc : Json := .null
  durationSeconds : Json := .int 0
  sessionDomains : Json := .arr []
  sessionServices : Json := .arr []
  bootId : Json := .null

/-- `AppConfig`, as `load` fills it. -/
structure RawConfig where
  permanentDomains : Json := .arr []
  permanentServices : Json := .arr []
  allowedDomains : Json := .arr []
  allowlistMode : Json := .bool false
  blockDoh : Json := .bool true
  blockVpns : Json := .bool true
  dnsPort : Json := .int 53
  upstreams : Json := .arr [.arr [.str "1.1.1.1", .int 53], .arr [.str "9.9.9.9", .int 53],
    .arr [.str "1.0.0.1", .int 53]]

/-- `raw.get(key, default)`. -/
def member (m : List (Text × Json)) (key : Text) (default : Json) : Json :=
  (Json.lookup m key).getD default

def RawSession.ofMembers (m : List (Text × Json)) : RawSession where
  status := member m "status" (.str "IDLE")
  sessionId := member m "session_id" .null
  createdAtUtc := member m "created_at_utc" .null
  expiresAtUtc := member m "expires_at_utc" .null
  durationSeconds := member m "duration_seconds" (.int 0)
  sessionDomains := member m "session_domains" (.arr [])
  sessionServices := member m "session_services" (.arr [])
  bootId := member m "boot_id" .null

def RawConfig.ofMembers (m : List (Text × Json)) : RawConfig where
  permanentDomains := member m "permanent_domains" (.arr [])
  permanentServices := member m "permanent_services" (.arr [])
  allowedDomains := member m "allowed_domains" (.arr [])
  allowlistMode := member m "allowlist_mode" (.bool false)
  blockDoh := member m "block_doh" (.bool true)
  blockVpns := member m "block_vpns" (.bool true)
  dnsPort := member m "dns_port" (.int 53)
  upstreams := member m "upstreams" (.arr [.arr [.str "1.1.1.1", .int 53],
    .arr [.str "9.9.9.9", .int 53]])

/-- The records of a parsed state file; `none` is an exception while it is read. -/
def readRaw (value : Json) : Option (RawConfig × RawSession) :=
  match value with
  | .obj members =>
    match member members "hmac_signature" .null, member members "config" (.obj []),
        member members "session" (.obj []) with
    | .null, .obj c, .obj s => some (.ofMembers c, .ofMembers s)
    | .str sig, .obj c, .obj s =>
      if Text.isAscii sig then some (.ofMembers c, .ofMembers s) else none
    | _, _, _ => none
  | _ => none

/-- `load()` on a state file, where the defaults can be saved: the defaults again where the file
cannot be read. -/
def loadRaw : FileContent → RawConfig × RawSession
  | .unparsable => ({}, {})
  | .json value => (readRaw value).getD ({}, {})

/-! ## Typed records -/

def SessionState.raw (s : SessionState) : RawSession where
  status := .str s.status.toText
  sessionId := .ofOptText s.sessionId
  createdAtUtc := .ofOptText s.createdAtUtc
  expiresAtUtc := .ofOptText s.expiresAtUtc
  durationSeconds := .int s.durationSeconds
  sessionDomains := .ofTexts s.sessionDomains
  sessionServices := .ofTexts s.sessionServices
  bootId := .ofOptText s.bootId

def AppConfig.raw (c : AppConfig) : RawConfig where
  permanentDomains := .ofTexts c.permanentDomains
  permanentServices := .ofTexts c.permanentServices
  allowedDomains := .ofTexts c.allowedDomains
  allowlistMode := .bool c.allowlistMode
  blockDoh := .bool c.blockDoh
  blockVpns := .bool c.blockVpns
  dnsPort := .int c.dnsPort
  upstreams := .arr (c.upstreams.map .arr)

/-- A reader takes the written form of a value, and only that, for the value. -/
def Reads {α : Type} (read : Json → Option α) (write : α → Json) : Prop :=
  ∀ j a, read j = some a → j = write a

variable {α : Type} {read : Json → Option α} {write : α → Json}

theorem Status.toText_ofText (t : Text) : (Status.ofText t).toText = t := by
  unfold Status.ofText
  split_ifs with hi hl he
  · exact hi.symm
  · exact hl.symm
  · exact he.symm
  · rfl

theorem reads_status : Reads (fun j => j.text?.map Status.ofText) fun s => .str s.toText := by
  intro j s h
  cases j with
  | str t =>
    cases h
    exact congrArg Json.str (Status.toText_ofText t).symm
  | _ => cases h

theorem reads_optText : Reads Json.optText? Json.ofOptText := by
  intro j a h
  cases j <;> cases h <;> rfl

theorem reads_int : Reads Json.int? .int := by
  intro j a h
  cases j <;> cases h
  rfl

theorem reads_bool : Reads Json.bool? .bool := by
  intro j a h
  cases j <;> cases h
  rfl

theorem Reads.mapM (h : Reads read write) {l : List Json} {as : List α}
    (hl : l.mapM read = some as) : l = as.map write := by
  induction l generalizing as with
  | nil =>
    cases hl
    rfl
  | cons j l ih =>
    rw [List.mapM_cons] at hl
    cases hj : read j with
    | none => simp [hj] at hl
    | some a =>
      cases hr : l.mapM read with
      | none => simp [hj, hr] at hl
      | some rest =>
        simp only [hj, hr, Option.bind_eq_bind, Option.bind_some, Option.pure_def,
          Option.some.injEq] at hl
        rw [← hl, List.map_cons, ← h j a hj, ← ih hr]

theorem reads_texts : Reads Json.texts? Json.ofTexts := by
  intro j a h
  cases j with
  | arr l => exact congrArg Json.arr (Reads.mapM (fun j t ht => by cases j <;> cases ht; rfl) h)
  | _ => cases h

theorem reads_upstreams : Reads upstreams? fun l => .arr (l.map .arr) := by
  intro j a h
  cases j with
  | arr l => exact congrArg Json.arr (Reads.mapM (fun j t ht => by cases j <;> cases ht; rfl) h)
  | _ => cases h

/-- A member that is read as a typed value is that value, or the default is. -/
theorem member_of_field {m : List (Text × Json)} {key : Text} {default a : α}
    (hr : Reads read write) (h : field read m key default = some a) :
    member m key (write default) = write a := by
  unfold field at h
  unfold member
  cases hl : Json.lookup m key with
  | none =>
    rw [hl] at h
    cases h
    rfl
  | some v =>
    rw [hl] at h
    exact hr v a h

theorem AppConfig.raw_of_members {m : List (Text × Json)} {c : AppConfig}
    (h : AppConfig.ofMembers m = some c) : RawConfig.ofMembers m = c.raw := by
  simp only [AppConfig.ofMembers, Option.bind_eq_bind, Option.bind_eq_some_iff] at h
  obtain ⟨_, hpd, _, hps, _, had, _, ham, _, hdoh, _, hvpn, _, hport, _, hup, hc⟩ := h
  cases hc
  have hdomains := member_of_field reads_texts hpd
  have hservices := member_of_field reads_texts hps
  have hallowed := member_of_field reads_texts had
  have hupstreams := member_of_field reads_upstreams hup
  rw [RawConfig.ofMembers, AppConfig.raw, RawConfig.mk.injEq]
  exact ⟨hdomains, hservices, hallowed, member_of_field reads_bool ham,
    member_of_field reads_bool hdoh, member_of_field reads_bool hvpn,
    member_of_field reads_int hport, hupstreams⟩

theorem SessionState.raw_of_members {m : List (Text × Json)} {s : SessionState}
    (h : SessionState.ofMembers m = some s) : RawSession.ofMembers m = s.raw := by
  simp only [SessionState.ofMembers, Option.bind_eq_bind, Option.bind_eq_some_iff] at h
  obtain ⟨_, hst, _, hid, _, hca, _, hex, _, hdur, _, hsd, _, hss, _, hboot, hs⟩ := h
  cases hs
  have hstatus := member_of_field reads_status hst
  have hdomains := member_of_field reads_texts hsd
  have hservices := member_of_field reads_texts hss
  rw [RawSession.ofMembers, SessionState.raw, RawSession.mk.injEq]
  exact ⟨hstatus, member_of_field reads_optText hid,
    member_of_field reads_optText hca, member_of_field reads_optText hex,
    member_of_field reads_int hdur, hdomains, hservices, member_of_field reads_optText hboot⟩

theorem raw_of_records {c s : List (Text × Json)} {sig : Option Text} {data : PersistentData}
    (h : (do some ⟨← AppConfig.ofMembers c, ← SessionState.ofMembers s, sig⟩ :
      Option PersistentData) = some data) :
    (RawConfig.ofMembers c, RawSession.ofMembers s) = (data.config.raw, data.session.raw) := by
  simp only [Option.bind_eq_bind, Option.bind_eq_some_iff] at h
  obtain ⟨config, hc, session, hs, hdata⟩ := h
  cases hdata
  rw [AppConfig.raw_of_members hc, SessionState.raw_of_members hs]

/-- A file that is read as typed records gives the same untyped ones. -/
theorem readRaw_of_readState {value : Json} {data : PersistentData}
    (h : readState value = some (some data)) :
    readRaw value = some (data.config.raw, data.session.raw) := by
  cases value with
  | obj members =>
    simp only [readState, readRaw, member] at h ⊢
    generalize (Json.lookup members "hmac_signature").getD .null = sig at h ⊢
    generalize (Json.lookup members "config").getD (.obj []) = config at h ⊢
    generalize (Json.lookup members "session").getD (.obj []) = session at h ⊢
    split at h
    · exact congrArg some (raw_of_records (Option.some.inj h))
    · split at h
      · next hascii =>
        simp only [if_pos hascii]
        exact congrArg some (raw_of_records (Option.some.inj h))
      · cases h
    · cases h
  | _ => cases h

/-- A file that cannot be read as typed records cannot be read. -/
theorem readRaw_of_readState_none {value : Json} (h : readState value = none) :
    readRaw value = none := by
  cases value with
  | obj members =>
    simp only [readState, readRaw, member] at h ⊢
    generalize (Json.lookup members "hmac_signature").getD .null = sig at h ⊢
    generalize (Json.lookup members "config").getD (.obj []) = config at h ⊢
    generalize (Json.lookup members "session").getD (.obj []) = session at h ⊢
    cases config with
    | obj c =>
      cases session with
      | obj s =>
        cases sig with
        | null => cases h
        | str sig =>
          by_cases hascii : Text.isAscii sig
          · simp [hascii] at h
          · exact if_neg hascii
        | _ => rfl
      | _ => cases sig <;> rfl
    | _ => cases sig <;> rfl
  | _ => rfl

end FocusGuard

import FocusGuard.Storage.RoundTrip

/-!
# Signed state across a restart of the process

The key is written as it was drawn, and read back stripped of white space at both ends. A
second `StateManager` therefore has the key of the first one exactly when the key neither
begins nor ends with such a byte.
-/

namespace FocusGuard

variable {rt : Runtime} {env env' : CallEnv} {data : PersistentData}

/-- What a second manager makes of the directory that the first one has saved to: the
signature verifies, the data is the same and so is the file of the key. -/
def SurvivesRestart (rt : Runtime) (env' : CallEnv) (data : PersistentData) (saved : Disk) : Prop :=
  ∃ loaded m, load rt env' { disk := saved } = (.ok (loaded, true), m) ∧
    loaded.config = data.config ∧ loaded.session = data.session ∧
    m.disk.secretFile = saved.secretFile

/-- Neither end of the key is a byte that `strip` removes. -/
def EndsKept (key : Bytes) : Prop :=
  (∀ b ∈ key.head?, ¬ isByteSpace b = true) ∧ (∀ b ∈ key.getLast?, ¬ isByteSpace b = true)

instance (key : Bytes) : Decidable (EndsKept key) :=
  @instDecidableAnd _ _ (Option.decidableForallMem key.head?)
    (Option.decidableForallMem key.getLast?)

/-- The members that a signature covers. -/
def signedMembers (data : PersistentData) : List (Text × Json) := [
  ("config", data.config.toJson),
  ("session", data.session.toJson)]

/-- The signature of a record under a key. -/
def signatureOf (rt : Runtime) (key : Bytes) (data : PersistentData) : Text :=
  hexdigest (rt.hmacSha256 key (rt.dumps (.obj (signedMembers data))))

/-- A signature covers the record without the stored signature. -/
theorem calculateHmac_stateMembers {m m' : StateManager} {key : Bytes} (signature : Option Text)
    (h : getSecret env m = (.ok key, m')) :
    calculateHmac rt env (stateMembers data signature) m = (.ok (signatureOf rt key data), m') := by
  have hunsigned : unsigned (stateMembers data signature) = signedMembers data := rfl
  refine (Exec.bind_of_ok h).trans ?_
  rw [hunsigned]
  rfl

/-- The first save in a directory without a key writes the fresh one. -/
theorem first_save (hs : env.saveOk = true) (stateFile : Option FileContent) :
    save rt env data { disk := ⟨stateFile, none⟩ } = (.ok (),
      ⟨⟨some (.json (.obj (stateMembers data (some (signatureOf rt env.token.val data))))),
        some env.token.val⟩, some env.token.val⟩) := by
  have hkey : getSecret env { disk := ⟨stateFile, none⟩ } =
      (.ok env.token.val, ⟨⟨stateFile, some env.token.val⟩, some env.token.val⟩) := rfl
  refine (Exec.bind_of_ok (calculateHmac_stateMembers _ hkey)).trans ?_
  rw [if_pos hs]
  rfl

/-- What a manager without a cached key makes of a record that was signed with `key`. -/
theorem load_signed {key key' : Bytes} {disk : Disk} {m' : StateManager}
    (hfile : disk.stateFile =
      some (.json (.obj (stateMembers data (some (signatureOf rt key data))))))
    (hkey : getSecret env' { disk := disk } = (.ok key', m')) :
    load rt env' { disk := disk } =
      (.ok (⟨data.config, data.session, some (signatureOf rt key data)⟩,
        some (signatureOf rt key data) = some (signatureOf rt key' data)), m') := by
  have hread : readState (.obj (stateMembers data (some (signatureOf rt key data)))) = _ :=
    readState_stateMembers data (by simpa [signatureOf] using isAscii_hexdigest _)
  have hmac : calculateHmac rt env'
      (Json.obj (stateMembers data (some (signatureOf rt key data)))).members { disk := disk } =
      (.ok (signatureOf rt key' data), m') := calculateHmac_stateMembers _ hkey
  unfold load
  rw [Exec.bind_of_ok (Exec.get_apply _)]
  simp only [hfile, hread, Exec.bind_of_ok hmac]
  rfl

/-- A key whose ends are kept is read back as it was written. -/
theorem survivesRestart_of_endsKept {stateFile : Option FileContent}
    (hkept : EndsKept env.token.val) (hfile : stateFile =
      some (.json (.obj (stateMembers data (some (signatureOf rt env.token.val data)))))) :
    SurvivesRestart rt env' data ⟨stateFile, some env.token.val⟩ := by
  have hstrip : stripBytes env.token.val = env.token.val := Text.stripBy_eq_self_iff.mpr hkept
  have hkey : getSecret env' { disk := ⟨stateFile, some env.token.val⟩ } =
      (.ok env.token.val, ⟨⟨stateFile, some env.token.val⟩, some env.token.val⟩) := by
    simp only [getSecret, hstrip, env.token.property, le_refl, if_true]
  have hload := load_signed hfile hkey
  rw [decide_eq_true (rfl : some (signatureOf rt env.token.val data) = _)] at hload
  exact ⟨_, _, hload, rfl, rfl, rfl⟩

/-- A key with a white-space byte at one end is too short when it is read back, and the
second manager replaces it. -/
theorem secretFile_replaced {stateFile : Option FileContent} (hkept : ¬ EndsKept env.token.val) :
    getSecret env' { disk := ⟨stateFile, some env.token.val⟩ } =
      (.ok env'.token.val, ⟨⟨stateFile, some env'.token.val⟩, some env'.token.val⟩) := by
  have hstrip : stripBytes env.token.val ≠ env.token.val :=
    fun h => hkept (Text.stripBy_eq_self_iff.mp h)
  have hshort : ¬ 32 ≤ (stripBytes env.token.val).length := by
    have hlt := Text.length_stripBy_lt hstrip
    rw [env.token.property] at hlt
    exact not_le.mpr hlt
  simp only [getSecret, if_neg hshort]

/-- For every key drawn on first use, the state that one manager saves survives every
restart exactly when neither end of the key is an ASCII white-space byte. -/
theorem survivesRestart_iff (rt : Runtime) (env : CallEnv) (hs : env.saveOk = true)
    (data : PersistentData) (stateFile : Option FileContent) :
    (∀ env', SurvivesRestart rt env' data
        (save rt env data { disk := ⟨stateFile, none⟩ }).2.disk) ↔
      EndsKept env.token.val := by
  rw [first_save hs]
  constructor
  · intro h
    by_contra hkept
    -- a later key that differs from the first one
    obtain ⟨other, hother⟩ : ∃ b : { b : Bytes // b.length = 32 }, b.val ≠ env.token.val := by
      by_cases hzero : env.token.val = List.replicate 32 0
      · refine ⟨⟨List.replicate 32 1, rfl⟩, fun heq => ?_⟩
        rw [hzero] at heq
        revert heq
        decide
      · exact ⟨⟨List.replicate 32 0, rfl⟩, fun heq => hzero heq.symm⟩
    obtain ⟨loaded, m, hload, -, -, hsecret⟩ := h { env with token := other }
    rw [load_signed rfl (secretFile_replaced hkept)] at hload
    obtain ⟨-, rfl⟩ := Prod.mk.inj hload
    exact hother (Option.some.inj hsecret)
  · exact fun hkept env' => survivesRestart_of_endsKept hkept rfl

section Example

def envWithKey (key : { b : Bytes // b.length = 32 }) : CallEnv where
  clock _ := ⟨0, by decide⟩
  token := key
  sessionId := []
  bootId := []
  saveOk := true

theorem length_sevens : (List.replicate 32 (7 : UInt8)).length = 32 := List.length_replicate

def sevens : { b : Bytes // b.length = 32 } := ⟨List.replicate 32 7, length_sevens⟩

/-- A key that happens to start with a line feed. -/
def lineFeedFirst : { b : Bytes // b.length = 32 } := ⟨10 :: List.replicate 31 7, rfl⟩

/-- A record with permanent lists and a session. -/
def lockedData : PersistentData where
  config := { permanentDomains := ["x.com", "youtube.com"], permanentServices := ["youtube"] }
  session :=
    { status := .locked
      sessionId := some "5d41402a"
      createdAtUtc := some "2026-01-01T10:00:00+00:00"
      expiresAtUtc := some "2026-01-01T12:00:00+00:00"
      durationSeconds := 7200
      sessionDomains := ["x.com", "youtube.com"]
      sessionServices := ["youtube"] }

theorem survivesRestart_iff_sevens : EndsKept sevens.val ∧
    ∀ env', SurvivesRestart asciiRuntime env' lockedData
      (save asciiRuntime (envWithKey sevens) lockedData { disk := ⟨none, none⟩ }).2.disk := by
  have hkept : EndsKept sevens.val := by decide
  have hiff := survivesRestart_iff asciiRuntime (envWithKey sevens) rfl lockedData none
  exact ⟨hkept, hiff.mpr hkept⟩

/-- The second manager replaces a key that starts with a line feed. -/
theorem lineFeedFirst_lost : ¬ SurvivesRestart asciiRuntime (envWithKey sevens) {}
    (save asciiRuntime (envWithKey lineFeedFirst) {} { disk := ⟨none, none⟩ }).2.disk := by
  have hkept : ¬ EndsKept (envWithKey lineFeedFirst).token.val := by decide
  rw [first_save rfl]
  rintro ⟨loaded, m, hload, -, -, hsecret⟩
  rw [load_signed rfl (secretFile_replaced hkept)] at hload
  obtain ⟨-, rfl⟩ := Prod.mk.inj hload
  revert hsecret
  decide

end Example

end FocusGuard

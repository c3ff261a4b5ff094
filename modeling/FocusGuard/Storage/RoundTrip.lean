import FocusGuard.Storage.State

/-!
# Saving and loading

A directory *stores* a configuration and a session when its state file reads as them. Saving
makes it so, and loading returns what is stored.

## Main results

* `readState_stateMembers`: the record that `save` writes is read back field by field.
* `load_of_stores`, `stores_of_load`: `load` returns what the directory stores.
-/

namespace FocusGuard

variable {rt : Runtime} {env : CallEnv}

/-- The state file reads as this configuration and this session. -/
def Disk.Stores (disk : Disk) (config : AppConfig) (session : SessionState) : Prop :=
  ∃ value signature, disk.stateFile = some (.json value) ∧
    readState value = some (some ⟨config, session, signature⟩)

theorem Disk.Stores.congr {disk disk' : Disk} {config : AppConfig} {session : SessionState}
    (h : disk.Stores config session) (hfile : disk'.stateFile = disk.stateFile) :
    disk'.Stores config session := by
  obtain ⟨value, signature, hf, hr⟩ := h
  exact ⟨value, signature, hfile.trans hf, hr⟩

/-! ## Records -/

theorem mapM_arr? (l : List (List Json)) : (l.map Json.arr).mapM Json.arr? = some l := by
  induction l with
  | nil => rfl
  | cons a l ih => simp [List.mapM_cons, ih, Json.arr?]

theorem AppConfig.ofMembers_toJson (c : AppConfig) :
    ∃ members, c.toJson = .obj members ∧ AppConfig.ofMembers members = some c := by
  refine ⟨_, rfl, ?_⟩
  have hup : upstreams? (.arr (c.upstreams.map .arr)) = some c.upstreams := mapM_arr? _
  simp only [AppConfig.ofMembers, field, Json.lookup, List.find?]
  simp [hup, Json.int?, Json.bool?]

theorem SessionState.ofMembers_toJson (s : SessionState) :
    ∃ members, s.toJson = .obj members ∧ SessionState.ofMembers members = some s := by
  refine ⟨_, rfl, ?_⟩
  simp only [SessionState.ofMembers, field, Json.lookup, List.find?]
  simp [Json.int?, Json.text?]

theorem isAscii_digitChar {n : Nat} (h : n < 16) :
    Text.isAsciiChar (Nat.digitChar n) = true := by
  interval_cases n <;> rfl

theorem isAscii_hexdigest (b : Bytes) : Text.isAscii (hexdigest b) = true := by
  simp only [Text.isAscii, hexdigest, List.all_flatMap, List.all_eq_true]
  intro x _ c hc
  have hx := Bytes.toNat_lt x
  simp only [List.mem_cons, List.not_mem_nil, or_false] at hc
  rcases hc with rfl | rfl
  · exact isAscii_digitChar (by omega)
  · exact isAscii_digitChar (by omega)

/-- The record that `save` writes is read back field by field. -/
theorem readState_stateMembers (data : PersistentData) {signature : Option Text}
    (h : ∀ t ∈ signature, Text.isAscii t = true) :
    readState (.obj (stateMembers data signature)) =
      some (some ⟨data.config, data.session, signature⟩) := by
  obtain ⟨c, hc, hc'⟩ := AppConfig.ofMembers_toJson data.config
  obtain ⟨s, hs, hs'⟩ := SessionState.ofMembers_toJson data.session
  have hsig : Json.lookup (stateMembers data signature) "hmac_signature" =
      some (.ofOptText signature) := rfl
  have hconfig : Json.lookup (stateMembers data signature) "config" = some (.obj c) :=
    congrArg some hc
  have hsession : Json.lookup (stateMembers data signature) "session" = some (.obj s) :=
    congrArg some hs
  simp only [readState, hsig, hconfig, hsession, Option.getD_some]
  cases signature with
  | none =>
    simp only [Json.ofOptText, hc', hs']
    rfl
  | some t =>
    simp only [Json.ofOptText, h t rfl, if_true, hc', hs']
    rfl

/-! ## The key -/

/-- The key is always found or made, and the state file is not touched. -/
theorem getSecret_ok (env : CallEnv) (m : StateManager) : ∃ key secretFile,
    getSecret env m = (.ok key, ⟨⟨m.disk.stateFile, secretFile⟩, some key⟩) := by
  obtain ⟨⟨stateFile, secretFile⟩, secret⟩ := m
  cases secret with
  | some key => exact ⟨key, secretFile, rfl⟩
  | none =>
    cases secretFile with
    | none => exact ⟨_, _, rfl⟩
    | some file =>
      by_cases hlen : 32 ≤ (stripBytes file).length
      · exact ⟨stripBytes file, some file, by simp only [getSecret, if_pos hlen]⟩
      · exact ⟨env.token.val, some env.token.val, by simp only [getSecret, if_neg hlen]⟩

/-- The signature is made of hexadecimal digits, whatever the key is. -/
theorem calculateHmac_ok (rt : Runtime) (env : CallEnv) (members : List (Text × Json))
    (m : StateManager) :
    ∃ signature key secretFile, Text.isAscii signature = true ∧
      calculateHmac rt env members m =
        (.ok signature, ⟨⟨m.disk.stateFile, secretFile⟩, some key⟩) := by
  obtain ⟨key, secretFile, h⟩ := getSecret_ok env m
  exact ⟨_, key, secretFile, isAscii_hexdigest _, Exec.bind_of_ok h⟩

/-! ## `save` and `load` -/

theorem save_ok (rt : Runtime) (data : PersistentData) (m : StateManager) (h : env.saveOk = true) :
    ∃ m', save rt env data m = (.ok (), m') ∧ m'.disk.Stores data.config data.session := by
  obtain ⟨signature, key, secretFile, hascii, hmac⟩ :=
    calculateHmac_ok rt env (stateMembers data data.hmacSignature) m
  have hsave : save rt env data m = _ := (Exec.bind_of_ok hmac).trans (by rw [if_pos h])
  have hread : readState (.obj (stateMembers data (some signature))) = _ :=
    readState_stateMembers data (by simpa using hascii)
  exact ⟨_, hsave, _, _, rfl, hread⟩

theorem save_error (rt : Runtime) (data : PersistentData) (m : StateManager)
    (h : ¬ env.saveOk = true) : ∃ m', save rt env data m = (.error .osError, m') ∧
      m'.disk.stateFile = m.disk.stateFile := by
  obtain ⟨signature, key, secretFile, -, hmac⟩ :=
    calculateHmac_ok rt env (stateMembers data data.hmacSignature) m
  refine ⟨⟨⟨m.disk.stateFile, secretFile⟩, some key⟩, (Exec.bind_of_ok hmac).trans ?_, rfl⟩
  rw [if_neg h]
  rfl

/-- A call that returns after saving has stored what it saved. -/
theorem stores_of_save {data : PersistentData} {m m' : StateManager}
    (h : save rt env data m = (.ok (), m')) : m'.disk.Stores data.config data.session := by
  by_cases hs : env.saveOk = true
  · obtain ⟨t, ht, hst⟩ := save_ok rt data m hs
    rw [ht] at h
    cases h
    exact hst
  · obtain ⟨t, ht, -⟩ := save_error rt data m hs
    rw [ht] at h
    cases h

theorem load_of_stores (rt : Runtime) (env : CallEnv) {m : StateManager} {config : AppConfig}
    {session : SessionState}
    (h : m.disk.Stores config session) :
    ∃ data verified m', load rt env m = (.ok (data, verified), m') ∧ data.config = config ∧
      data.session = session ∧ m'.disk.stateFile = m.disk.stateFile := by
  obtain ⟨value, signature, hfile, hread⟩ := h
  obtain ⟨expected, key, secretFile, -, hmac⟩ :=
    calculateHmac_ok rt env value.members m
  refine ⟨⟨config, session, signature⟩, signature = some expected,
    ⟨⟨m.disk.stateFile, secretFile⟩, some key⟩, ?_, rfl, rfl, rfl⟩
  unfold load
  rw [Exec.bind_of_ok (Exec.get_apply m)]
  simp only [hfile, hread, Exec.bind_of_ok hmac]
  rfl

theorem loadFallback_stores {m m' : StateManager} {r : PersistentData × Bool}
    (h : loadFallback rt env m = (.ok r, m')) : m'.disk.Stores r.1.config r.1.session := by
  unfold loadFallback at h
  rw [Exec.bind_of_ok (Exec.modify_apply _ m)] at h
  obtain ⟨u, t, hs, hr⟩ := Exec.bind_eq_ok.mp h
  cases hr
  exact stores_of_save hs

theorem loadFallback_default {m m' : StateManager} {r : PersistentData × Bool}
    (h : loadFallback rt env m = (.ok r, m')) : r.1 = {} := by
  unfold loadFallback at h
  rw [Exec.bind_of_ok (Exec.modify_apply _ m)] at h
  obtain ⟨u, t, -, hr⟩ := Exec.bind_eq_ok.mp h
  cases hr
  rfl

theorem stores_of_load {m m' : StateManager} {r : PersistentData × Bool}
    (h : load rt env m = (.ok r, m')) : m'.disk.Stores r.1.config r.1.session := by
  unfold load at h
  rw [Exec.bind_of_ok (Exec.get_apply m)] at h
  cases hfile : m.disk.stateFile with
  | none =>
    simp only [hfile] at h
    obtain ⟨u, t, hs, hr⟩ := Exec.bind_eq_ok.mp h
    cases hr
    exact stores_of_save hs
  | some content =>
    cases content with
    | unparsable =>
      simp only [hfile] at h
      exact loadFallback_stores h
    | json value =>
      simp only [hfile] at h
      match hread : readState value with
      | none =>
        simp only [hread] at h
        exact loadFallback_stores h
      | some none =>
        simp only [hread] at h
        cases h
      | some (some data) =>
        simp only [hread] at h
        obtain ⟨expected, key, secretFile, -, hmac⟩ :=
          calculateHmac_ok rt env value.members m
        rw [Exec.bind_of_ok hmac] at h
        cases h
        exact ⟨value, data.hmacSignature, hfile, hread⟩

end FocusGuard

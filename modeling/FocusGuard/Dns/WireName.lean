import FocusGuard.Dns.Protocol

/-!
# Names on the wire

`WireName` says what a name in a message is: labels behind their lengths, ended by a zero
byte or by a pointer to the rest of the name. It has no guard against loops: a name is a
finite derivation, so a chain of pointers that comes back to itself has none. The code's
reader, which keeps a set of visited pointers, reads exactly the names there are.

## Main results

* `WireName.deterministic`: an offset has at most one name.
* `readLabels_eq_ok_iff`: `_read_name` reads `WireName`.
* `readName_decoded`: what is known of the text of a name.
-/

namespace FocusGuard

open Bytes

/-- The name at an offset: the targets of the pointers it takes, its labels, and the offset
after it. -/
inductive WireName (data : Bytes) : Nat → List (Fin 16384) → List Bytes → Nat → Prop where
  | root {offset : Nat} {rest : Bytes} :
      data.drop offset = 0 :: rest → WireName data offset [] [] (offset + 1)
  | label {offset stop : Nat} {length : UInt8} {rest : Bytes} {pointers : List (Fin 16384)}
      {labels : List Bytes} :
      data.drop offset = length :: rest → 0 < length.toNat → length.toNat < 192 →
      length.toNat ≤ rest.length →
      WireName data (offset + 1 + length.toNat) pointers labels stop →
      WireName data offset pointers (rest.take length.toNat :: labels) stop
  | pointer {offset stop : Nat} {length low : UInt8} {rest : Bytes}
      {pointers : List (Fin 16384)} {labels : List Bytes} :
      data.drop offset = length :: low :: rest → 192 ≤ length.toNat →
      WireName data (pointerOf length low) pointers labels stop →
      WireName data offset (pointerOf length low :: pointers) labels (offset + 2)

variable {data : Bytes} {offset stop stop' : Nat} {pointers pointers' : List (Fin 16384)}
  {labels labels' : List Bytes}

namespace WireName

/-- An offset has at most one name. -/
theorem deterministic (h : WireName data offset pointers labels stop)
    (h' : WireName data offset pointers' labels' stop') :
    pointers = pointers' ∧ labels = labels' ∧ stop = stop' := by
  induction h generalizing pointers' labels' stop' with
  | root hd =>
    cases h' with
    | root => exact ⟨rfl, rfl, rfl⟩
    | label hd' h0 =>
      rw [hd] at hd'
      cases hd'
      simp at h0
    | pointer hd' h192 =>
      rw [hd] at hd'
      cases hd'
      simp at h192
  | label hd h0 hlt _ _ ih =>
    cases h' with
    | root hd' =>
      rw [hd] at hd'
      cases hd'
      simp at h0
    | label hd' _ _ _ hrest =>
      rw [hd] at hd'
      cases hd'
      obtain ⟨rfl, rfl, rfl⟩ := ih hrest
      exact ⟨rfl, rfl, rfl⟩
    | pointer hd' h192 =>
      rw [hd] at hd'
      cases hd'
      omega
  | pointer hd h192 _ ih =>
    cases h' with
    | root hd' =>
      rw [hd] at hd'
      cases hd'
      simp at h192
    | label hd' _ hlt =>
      rw [hd] at hd'
      cases hd'
      omega
    | pointer hd' _ hrest =>
      rw [hd] at hd'
      cases hd'
      obtain ⟨rfl, rfl, -⟩ := ih hrest
      exact ⟨rfl, rfl, rfl⟩

/-- The rest of a name behind one of its pointers takes fewer pointers. -/
theorem of_mem_pointers (h : WireName data offset pointers labels stop) {p : Fin 16384}
    (hp : p ∈ pointers) : ∃ pointers' labels' stop', WireName data p pointers' labels' stop' ∧
      pointers'.length < pointers.length := by
  induction h with
  | root => cases hp
  | label _ _ _ _ _ ih => exact ih hp
  | pointer _ _ hrest ih =>
    rcases List.mem_cons.mp hp with rfl | hp
    · exact ⟨_, _, _, hrest, by simp⟩
    · obtain ⟨ps, ls, s, hw, hlt⟩ := ih hp
      exact ⟨ps, ls, s, hw, by rw [List.length_cons]; omega⟩

/-- No name takes the same pointer twice. -/
theorem nodup (h : WireName data offset pointers labels stop) : pointers.Nodup := by
  induction h with
  | root => exact List.nodup_nil
  | label _ _ _ _ _ ih => exact ih
  | pointer _ _ hrest ih =>
    refine List.nodup_cons.mpr ⟨fun hp => ?_, ih⟩
    obtain ⟨ps, ls, s, hw, hlt⟩ := hrest.of_mem_pointers hp
    obtain ⟨rfl, -, -⟩ := hrest.deterministic hw
    omega

theorem length_labels (h : WireName data offset pointers labels stop) :
    ∀ l ∈ labels, 0 < l.length ∧ l.length < 192 := by
  induction h with
  | root => simp
  | label _ h0 hlt hle _ ih =>
    refine List.forall_mem_cons.mpr ⟨?_, ih⟩
    rw [List.length_take, Nat.min_eq_left hle]
    exact ⟨h0, hlt⟩
  | pointer _ _ _ ih => exact ih

/-- A name takes up room, and all of it is inside the message. -/
theorem offset_lt_stop (h : WireName data offset pointers labels stop) :
    offset < stop ∧ stop ≤ data.length := by
  have hlen : ∀ {o : Nat} {l : Bytes}, data.drop o = l → l ≠ [] → o + l.length = data.length := by
    rintro o l rfl hne
    rw [ne_eq, List.drop_eq_nil_iff] at hne
    rw [List.length_drop]
    omega
  induction h with
  | root hd =>
    have := hlen hd (by simp)
    rw [List.length_cons] at this
    omega
  | label hd _ _ _ _ ih => omega
  | pointer hd _ _ _ =>
    have := hlen hd (by simp)
    simp only [List.length_cons] at this
    omega

end WireName

/-! ## The reader -/

theorem readLabels_of_wireName (h : WireName data offset pointers labels stop)
    {visited : Finset (Fin 16384)} (hv : ∀ p ∈ pointers, p ∉ visited) :
    readLabels data visited offset = .ok (labels, stop) := by
  induction h generalizing visited with
  | root hd =>
    rw [readLabels]
    split
    · next hnil => simp [hd] at hnil
    · next hcons =>
      rw [hd] at hcons
      cases hcons
      rfl
  | label hd h0 hlt hle _ ih =>
    rw [readLabels]
    split
    · next hnil => simp [hd] at hnil
    · next hcons =>
      rw [hd] at hcons
      cases hcons
      rw [if_neg (by omega), if_neg (by omega), if_neg (by omega), ih hv]
  | @pointer _ _ length low _ ps _ hd h192 hrest ih =>
    have hnodup := (WireName.pointer hd h192 hrest).nodup
    have hfresh : ∀ p ∈ ps, p ∉ insert (pointerOf length low) visited := by
      intro p hp hmem
      rcases Finset.mem_insert.mp hmem with rfl | hmem
      · exact (List.nodup_cons.mp hnodup).1 hp
      · exact hv p (List.mem_cons_of_mem _ hp) hmem
    rw [readLabels]
    split
    · next hnil => simp [hd] at hnil
    · next hcons =>
      rw [hd] at hcons
      cases hcons
      rw [if_pos h192, List.head?_cons]
      dsimp only
      rw [dif_neg (hv _ List.mem_cons_self), ih hfresh]

theorem wireName_of_readLabels {visited : Finset (Fin 16384)}
    (h : readLabels data visited offset = .ok (labels, stop)) :
    ∃ pointers, WireName data offset pointers labels stop := by
  fun_induction readLabels data visited offset generalizing labels stop with
  | case1 => cases h
  | case2 => cases h
  | case3 => cases h
  | case4 visited offset length rest hd h192 low hlow hv ls s hrec ih =>
    cases h
    obtain ⟨ps, hw⟩ := ih hrec
    obtain ⟨rest, rfl⟩ := List.head?_eq_some_iff.mp hlow
    exact ⟨_, .pointer hd h192 hw⟩
  | case5 => cases h
  | case6 visited offset length rest hd hlt h0 =>
    cases h
    have hz : length = 0 := UInt8.toNat_inj.mp h0
    subst hz
    exact ⟨[], .root hd⟩
  | case7 => cases h
  | case8 visited offset length rest hd hlt h0 hle ls s hrec ih =>
    cases h
    obtain ⟨ps, hw⟩ := ih hrec
    exact ⟨ps, .label hd (by omega) (by omega) (by omega) hw⟩
  | case9 => cases h

/-- `_read_name` reads the name at an offset, and raises where there is none. -/
theorem readLabels_eq_ok_iff : readLabels data ∅ offset = .ok (labels, stop) ↔
    ∃ pointers, WireName data offset pointers labels stop :=
  ⟨wireName_of_readLabels, fun ⟨_, h⟩ => readLabels_of_wireName h (by simp)⟩

/-- The text that `_read_name` makes of labels. -/
def nameOf (labels : List Bytes) : Text := Text.join '.' (labels.map decodeLabel)

theorem readName_eq_ok_iff {name : Text} : readName data offset = .ok (name, stop) ↔
    ∃ pointers labels, WireName data offset pointers labels stop ∧ name = nameOf labels := by
  constructor
  · intro h
    unfold readName at h
    split at h
    · next hr =>
      cases h
      obtain ⟨ps, hw⟩ := wireName_of_readLabels hr
      exact ⟨ps, _, hw, rfl⟩
    · cases h
  · rintro ⟨ps, ls, hw, rfl⟩
    rw [readName, readLabels_of_wireName hw (by simp)]
    rfl

/-! ## Letter case -/

/-- ASCII lower case. -/
def lowerByte (b : UInt8) : UInt8 := if 65 ≤ b.toNat ∧ b.toNat ≤ 90 then b + 32 else b

/-- An upper-case letter is moved up by 32. -/
theorem toNat_lowerByte (b : UInt8) : (lowerByte b).toNat =
    if 65 ≤ b.toNat ∧ b.toNat ≤ 90 then b.toNat + 32 else b.toNat := by
  unfold lowerByte
  split
  · next h =>
    simp only [UInt8.toNat_add, UInt8.toNat_ofNat]
    omega
  · rfl

theorem lowerByte_lowerByte (b : UInt8) : lowerByte (lowerByte b) = lowerByte b := by
  refine UInt8.toNat_inj.mp ?_
  rw [toNat_lowerByte (lowerByte b), toNat_lowerByte b]
  split_ifs <;> omega

/-- A byte below 128 is read as its lower-case form. -/
theorem toNat_decodeByte {b : UInt8} (h : b.toNat < 128) :
    (decodeByte b).toNat = (lowerByte b).toNat := by
  have hcode : (Char.ofNat b.toNat).toNat = b.toNat := by
    have hvalid : b.toNat.isValidChar := .inl (by omega)
    rw [Char.ofNat, dif_pos hvalid]
    rfl
  rw [decodeByte, if_pos h, toNat_lowerByte, Text.toNat_toLower, hcode]

theorem decodeByte_lowerByte (b : UInt8) : decodeByte (lowerByte b) = decodeByte b := by
  have hiff : (lowerByte b).toNat < 128 ↔ b.toNat < 128 := by
    rw [toNat_lowerByte]
    split_ifs <;> omega
  by_cases h : b.toNat < 128
  · refine Char.toNat_inj.mp ?_
    rw [toNat_decodeByte (hiff.mpr h), toNat_decodeByte h, lowerByte_lowerByte]
  · rw [decodeByte, decodeByte, if_neg h, if_neg (mt hiff.mp h)]

theorem lt_of_isAsciiChar_decodeByte {b : UInt8} (h : Text.isAsciiChar (decodeByte b) = true) :
    b.toNat < 128 := by
  by_contra hlt
  rw [decodeByte, if_neg hlt] at h
  cases h

theorem byte_decodeByte {b : UInt8} (h : Text.isAsciiChar (decodeByte b) = true) :
    byte (decodeByte b).toNat = lowerByte b := by
  rw [toNat_decodeByte (lt_of_isAsciiChar_decodeByte h), byte_toNat]

theorem decodeByte_eq_dot {b : UInt8} (h : decodeByte b = '.') : b = 46 := by
  have hlt : b.toNat < 128 := lt_of_isAsciiChar_decodeByte (by rw [h]; rfl)
  have hcode := toNat_decodeByte hlt
  rw [h, toNat_lowerByte] at hcode
  refine UInt8.toNat_inj.mp ?_
  have hdot : '.'.toNat = 46 := rfl
  have hdot' : (46 : UInt8).toNat = 46 := rfl
  split_ifs at hcode <;> omega

end FocusGuard

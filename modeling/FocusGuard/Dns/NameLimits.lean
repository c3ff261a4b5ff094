import FocusGuard.Dns.Replies

/-!
# Long names

RFC 1035 bounds a label to 63 bytes and a name to 255. `_read_name` of
`focusguard/dns/protocol.py` enforces neither: it takes every length byte below a pointer, and
pointers may string labels together to a name of any length.

## Main definitions

* `nameStarts`: where `DNSMessage.parse` reads names.
* `LegalName`: a name as RFC 1035 has it.

## Main results

* `withinLimits_iff`: the names of a message are within the limits just if the message is made of
  legal names.
* `long_label_accepted`: one that is not.
-/

namespace FocusGuard

open Bytes Reader DNSMessage

/-- The offsets at which `parse` reads a name. -/
def nameStarts (data : Bytes) : List Nat :=
  match header data with
  | none => []
  | some (_, _, qdcount, ancount, nscount, arcount) =>
    starts (readQuestion data) qdcount 12 ++
      match readMany (readQuestion data) qdcount 12 with
      | .ok (_, offset) => starts (readRecord data) (ancount + nscount + arcount) offset
      | .error _ => []

/-- The labels that are read at `nameStarts` make up the names of the message. -/
structure DecodedTo (data : Bytes) (m : DNSMessage) (names : List (List Bytes)) : Prop where
  read : List.Forall₂ (fun offset labels => ∃ stop, readLabels data ∅ offset = .ok (labels, stop))
    (nameStarts data) names
  texts : m.names = names.map nameOf

/-- The limits of RFC 1035. -/
structure WithinLimits (labels : List Bytes) : Prop where
  label : ∀ l ∈ labels, 1 ≤ l.length ∧ l.length ≤ 63
  name : (flatName labels).length ≤ 255

/-- The name at an offset, of `length` bytes when it is written in full: a length byte with the
tag 00 goes with a label, one with 11 is a pointer, and no other tag is in use. -/
inductive LegalName (data : Bytes) : Nat → Nat → Prop where
  | root {offset : Nat} {rest : Bytes} : data.drop offset = 0 :: rest → LegalName data offset 1
  | label {offset length : Nat} {count : UInt8} {rest : Bytes} :
      data.drop offset = count :: rest → 0 < count.toNat → count.toNat ≤ 63 →
      count.toNat ≤ rest.length → LegalName data (offset + 1 + count.toNat) length →
      LegalName data offset (1 + count.toNat + length)
  | pointer {offset length : Nat} {high low : UInt8} {rest : Bytes} :
      data.drop offset = high :: low :: rest → 192 ≤ high.toNat →
      LegalName data (pointerOf high low) length → LegalName data offset length

variable {data : Bytes} {offset stop : Nat} {pointers : List (Fin 16384)} {labels : List Bytes}
  {m : DNSMessage}

/-! ## Names are legal or not -/

theorem length_flatName_cons (l : Bytes) (labels : List Bytes) :
    (flatName (l :: labels)).length = 1 + l.length + (flatName labels).length := by
  simp only [flatName, List.flatMap_cons, labelBytes, List.length_append, List.length_cons,
    List.length_nil]
  omega

/-- A legal name is read, label by label. -/
theorem LegalName.wireName {length : Nat} (h : LegalName data offset length) :
    ∃ pointers labels stop, WireName data offset pointers labels stop ∧
      (∀ l ∈ labels, 1 ≤ l.length ∧ l.length ≤ 63) ∧ (flatName labels).length = length := by
  induction h with
  | root hd => exact ⟨_, _, _, .root hd, by simp, rfl⟩
  | label hd h0 h63 hle _ ih =>
    obtain ⟨pointers, labels, stop, hw, hshort, hlength⟩ := ih
    have htake := List.length_take_of_le hle
    refine ⟨_, _, _, .label hd h0 (by omega) hle hw, ?_, ?_⟩
    · refine List.forall_mem_cons.mpr ⟨?_, hshort⟩
      rw [htake]
      exact ⟨h0, h63⟩
    · rw [length_flatName_cons, htake, hlength]
  | pointer hd h192 _ ih =>
    obtain ⟨pointers, labels, stop, hw, hrest⟩ := ih
    exact ⟨_, _, _, .pointer hd h192 hw, hrest⟩

/-- A name with short labels is legal. -/
theorem WireName.legalName (h : WireName data offset pointers labels stop)
    (hshort : ∀ l ∈ labels, l.length ≤ 63) : LegalName data offset (flatName labels).length := by
  induction h with
  | root hd => exact .root hd
  | label hd h0 hlt hle _ ih =>
    have htake := List.length_take_of_le hle
    obtain ⟨h63, hrest⟩ := List.forall_mem_cons.mp hshort
    rw [htake] at h63
    rw [length_flatName_cons, htake]
    exact .label hd h0 h63 hle (ih hrest)
  | pointer hd h192 _ ih => exact .pointer hd h192 (ih hshort)

/-- The labels that are read at an offset are within the limits just if there is a legal name. -/
theorem withinLimits_iff_legalName (h : readLabels data ∅ offset = .ok (labels, stop)) :
    WithinLimits labels ↔ ∃ length ≤ 255, LegalName data offset length := by
  obtain ⟨pointers, hw⟩ := readLabels_eq_ok_iff.mp h
  constructor
  · intro hlimits
    exact ⟨_, hlimits.name, hw.legalName fun l hl => (hlimits.label l hl).2⟩
  · rintro ⟨length, hlength, hlegal⟩
    obtain ⟨pointers', labels', stop', hw', hshort, rfl⟩ := hlegal.wireName
    obtain ⟨-, rfl, -⟩ := hw.deterministic hw'
    exact ⟨hshort, hlength⟩

/-! ## The names of a message -/

/-- Where a repeated reader starts, and what it reads there. -/
theorem forall₂_starts {α : Type} {read : Reader PyError α} {l : List α} {o p : Nat}
    (h : ReadsTo read o l p) :
    List.Forall₂ (fun offset a => ∃ next, read offset = .ok (a, next)) (starts read l.length o) l := by
  induction h with
  | nil => exact .nil
  | @cons offset next stop a rest ha _ ih =>
    have hstarts : starts read (a :: rest).length offset =
        offset :: starts read rest.length next := by
      rw [List.length_cons, starts, ha]
    rw [hstarts]
    exact .cons ⟨next, ha⟩ ih

theorem nameStarts_eq {flags o₁ o₂ o₃ o₄ : Nat} (h : Parses data m flags o₁ o₂ o₃ o₄) :
    nameStarts data = starts (readQuestion data) m.questions.length 12 ++
      starts (readRecord data) m.records.length o₁ := by
  have hq := readMany_eq_ok_iff.mpr ⟨rfl, h.questions⟩
  rw [nameStarts, h.header]
  dsimp only
  rw [hq, DNSMessage.records, List.length_append, List.length_append]

/-- The names of the questions are read where the questions start. -/
theorem forall₂_readName_questions (h : parse data = .ok m) :
    List.Forall₂ (fun offset name => ∃ stop, readName data offset = .ok (name, stop))
      (starts (readQuestion data) m.questions.length 12) (m.questions.map DNSQuestion.qname) := by
  obtain ⟨flags, o₁, o₂, o₃, o₄, hp⟩ := parse_eq_ok_iff.mp h
  rw [List.forall₂_map_right_iff]
  refine (forall₂_starts hp.questions).imp fun offset q => ?_
  rintro ⟨next, hq⟩
  obtain ⟨stop, hname, -⟩ := readQuestion_eq_ok_iff.mp hq
  exact ⟨stop, hname⟩

/-- What `parse` reads at `nameStarts` is the names of the message. -/
theorem forall₂_readName (h : parse data = .ok m) :
    List.Forall₂ (fun offset name => ∃ stop, readName data offset = .ok (name, stop))
      (nameStarts data) m.names := by
  obtain ⟨flags, o₁, o₂, o₃, o₄, hp⟩ := parse_eq_ok_iff.mp h
  rw [nameStarts_eq hp, names]
  refine List.rel_append (forall₂_readName_questions h) ?_
  rw [List.forall₂_map_right_iff]
  refine (forall₂_starts hp.records).imp fun offset r => ?_
  rintro ⟨next, hr⟩
  obtain ⟨stop, -, hname, -⟩ := readRecord_eq_ok_iff.mp hr
  exact ⟨stop, hname⟩

/-- Names are decoded from labels. -/
theorem exists_labels {offsets : List Nat} {names : List Text}
    (h : List.Forall₂ (fun offset name => ∃ stop, readName data offset = .ok (name, stop))
      offsets names) :
    ∃ labels, List.Forall₂ (fun offset l => ∃ stop, readLabels data ∅ offset = .ok (l, stop))
      offsets labels ∧ names = labels.map nameOf := by
  induction h with
  | nil => exact ⟨[], .nil, rfl⟩
  | @cons offset name offsets names hname _ ih =>
    obtain ⟨stop, hname⟩ := hname
    obtain ⟨pointers, l, hw, rfl⟩ := readName_eq_ok_iff.mp hname
    obtain ⟨labels, hlabels, rfl⟩ := ih
    exact ⟨l :: labels, .cons ⟨stop, readLabels_eq_ok_iff.mpr ⟨pointers, hw⟩⟩ hlabels, rfl⟩

/-- Whichever way the labels are given, the names are decoded from them. -/
theorem texts_eq {offsets : List Nat} {texts : List Text} {names : List (List Bytes)}
    (h : List.Forall₂ (fun offset text => ∃ stop, readName data offset = .ok (text, stop))
      offsets texts)
    (h' : List.Forall₂ (fun offset l => ∃ stop, readLabels data ∅ offset = .ok (l, stop))
      offsets names) : texts = names.map nameOf := by
  induction h generalizing names with
  | nil =>
    cases h'
    rfl
  | cons htext _ ih =>
    obtain ⟨stop, htext⟩ := htext
    cases h' with
    | cons hl hrest =>
      obtain ⟨stop', hl⟩ := hl
      rw [readName, hl] at htext
      cases htext
      rw [List.map_cons, ← ih hrest]
      rfl

/-- Every message has been decoded from labels. -/
theorem exists_decodedTo (h : parse data = .ok m) : ∃ names, DecodedTo data m names := by
  obtain ⟨names, hread, htexts⟩ := exists_labels (forall₂_readName h)
  exact ⟨names, hread, htexts⟩

/-- A question for one label is read as that label. -/
theorem readLabels_labelQuery {label : Bytes} (h0 : 0 < label.length) (h : label.length < 192) :
    ∃ stop, readLabels (labelQuery label) ∅ 12 = .ok ([label], stop) := by
  have hname := wireName_flatName (List.forall_mem_singleton.mpr ⟨h0, h⟩) (drop_labelQuery label)
  exact ⟨_, readLabels_eq_ok_iff.mpr ⟨_, hname⟩⟩

theorem decodedTo_labelQuery {label : Bytes} (h0 : 0 < label.length) (h : label.length < 192)
    {names : List (List Bytes)} (hd : DecodedTo (labelQuery label) (labelMessage label) names) :
    names = [[label]] := by
  obtain ⟨flags, o₁, o₂, o₃, o₄, hp⟩ := parse_eq_ok_iff.mp (parse_labelQuery h0 h)
  have hstarts : nameStarts (labelQuery label) = [12] :=
    (nameStarts_eq hp).trans ((List.append_nil _).trans (starts_one 12))
  obtain ⟨stop', hlabel⟩ := readLabels_labelQuery h0 h
  have hread := hd.read
  rw [hstarts] at hread
  cases hread with
  | cons hl hnil =>
    cases hnil
    obtain ⟨stop, hl⟩ := hl
    rw [hlabel] at hl
    cases hl
    rfl

/-- The names of a message are within the limits just if the message is made of legal names: the
parser adds nothing to that. -/
theorem withinLimits_iff (h : parse data = .ok m) :
    (∃ names, DecodedTo data m names ∧ ∀ labels ∈ names, WithinLimits labels) ↔
      ∀ offset ∈ nameStarts data, ∃ length ≤ 255, LegalName data offset length := by
  have hall : ∀ {offsets names}, List.Forall₂ (fun offset labels =>
      ∃ stop, readLabels data ∅ offset = .ok (labels, stop)) offsets names →
      ((∀ labels ∈ names, WithinLimits labels) ↔
        ∀ offset ∈ offsets, ∃ length ≤ 255, LegalName data offset length) := by
    intro offsets names hread
    induction hread with
    | nil => simp
    | cons hl _ ih =>
      obtain ⟨stop, hl⟩ := hl
      rw [List.forall_mem_cons, List.forall_mem_cons, withinLimits_iff_legalName hl, ih]
  constructor
  · rintro ⟨names, hdecoded, hlimits⟩
    exact (hall hdecoded.read).mp hlimits
  · intro hlegal
    obtain ⟨names, hdecoded⟩ := exists_decodedTo h
    exact ⟨names, hdecoded, (hall hdecoded.read).mpr hlegal⟩

/-- A question for `tv` is accepted, and made of a legal name. -/
theorem withinLimits_iff_tv :
    parse (labelQuery [0x74, 0x76]) = .ok (labelMessage [0x74, 0x76]) ∧
      ∀ offset ∈ nameStarts (labelQuery [0x74, 0x76]), ∃ length ≤ 255,
        LegalName (labelQuery [0x74, 0x76]) offset length := by
  have hparse : parse (labelQuery [0x74, 0x76]) = .ok (labelMessage [0x74, 0x76]) :=
    parse_labelQuery (by decide) (by decide)
  refine ⟨hparse, (withinLimits_iff hparse).mp ?_⟩
  obtain ⟨names, hd⟩ := exists_decodedTo hparse
  obtain rfl := decodedTo_labelQuery (by decide) (by decide) hd
  refine ⟨_, hd, List.forall_mem_singleton.mpr ⟨?_, by decide⟩⟩
  exact List.forall_mem_singleton.mpr (by decide)

/-- The length byte of 64 has the tag 01. -/
def longLabel : Bytes := List.replicate 64 0x61

/-- A label of 64 bytes is accepted. -/
theorem long_label_accepted : ¬ ∀ data m, parse data = .ok m →
    ∃ names, DecodedTo data m names ∧ ∀ labels ∈ names, WithinLimits labels := by
  intro h
  have h0 : 0 < longLabel.length := by decide
  have h192 : longLabel.length < 192 := by decide
  obtain ⟨names, hd, hlimits⟩ := h _ _ (parse_labelQuery h0 h192)
  obtain rfl := decodedTo_labelQuery h0 h192 hd
  have hshort := (hlimits _ (List.mem_singleton.mpr rfl)).label _ (List.mem_singleton.mpr rfl)
  exact absurd hshort.2 (by decide)

end FocusGuard

import FocusGuard.Dns.WireName
import Mathlib.Tactic.Linarith

/-!
# Messages survive being written and read

The serializer writes every name in full. A name whose stripped form has no empty label is
read back as that form; an empty label ends a name early. Everything else in a message is
read back as it was as soon as every field fits its width.

## Main definitions

* `DNSMessage.WellFormed`: every field of a message fits the width it is written with.
* `DNSMessage.wire`: the bytes of a message whose names are ASCII.
* `Solid`: a text without an empty label.

## Main results

* `DNSMessage.toBytes_eq_ok_iff`: when `to_bytes` returns, and what.
* `DNSMessage.parse_wire`: the message that is read back.
-/

namespace FocusGuard

open Bytes Reader

/-! ## Decoded names -/

/-- What decoding leaves of a name: lower-case ASCII or replacement characters, in labels that
a length byte below a pointer can announce. -/
structure DecodedName (name : Text) : Prop where
  decoded : Decoded name
  lower : ∀ c ∈ name, c.toLower = c
  short : ∀ piece ∈ name.splitOn '.', piece.length < 192

theorem isAsciiChar_decodeByte {b : UInt8} (h : b.toNat < 128) :
    Text.isAsciiChar (decodeByte b) = true := by
  have hcode := toNat_decodeByte h
  rw [toNat_lowerByte] at hcode
  simp only [Text.isAsciiChar, decide_eq_true_eq]
  split_ifs at hcode <;> omega

theorem decodeByte_decoded (b : UInt8) :
    Text.isAsciiChar (decodeByte b) = true ∨ decodeByte b = Text.replacement := by
  by_cases h : b.toNat < 128
  · exact .inl (isAsciiChar_decodeByte h)
  · exact .inr (if_neg h)

theorem toLower_decodeByte (b : UInt8) : (decodeByte b).toLower = decodeByte b := by
  unfold decodeByte
  split
  · exact Text.toLower_toLower _
  · rfl

theorem nameOf_decoded {labels : List Bytes} (h : ∀ l ∈ labels, l.length < 192) :
    DecodedName (nameOf labels) := by
  have hchar : ∀ c ∈ nameOf labels, c = '.' ∨ ∃ b, c = decodeByte b := by
    intro c hc
    rcases Text.mem_join hc with rfl | ⟨piece, hp, hc⟩
    · exact .inl rfl
    · obtain ⟨l, -, rfl⟩ := List.mem_map.mp hp
      obtain ⟨b, -, rfl⟩ := List.mem_map.mp hc
      exact .inr ⟨b, rfl⟩
  refine ⟨fun c hc => ?_, fun c hc => ?_, fun piece hp => ?_⟩
  · rcases hchar c hc with rfl | ⟨b, rfl⟩
    · exact .inl rfl
    · exact decodeByte_decoded b
  · rcases hchar c hc with rfl | ⟨b, rfl⟩
    · rfl
    · exact toLower_decodeByte b
  · cases labels with
    | nil =>
      have : piece = [] := by simpa [nameOf] using hp
      simp [this]
    | cons a labels =>
      rw [nameOf, Text.splitOn_join (by simp)] at hp
      obtain ⟨l', hl', hp⟩ := List.mem_flatMap.mp hp
      obtain ⟨l, hl, rfl⟩ := List.mem_map.mp hl'
      have hle := Text.length_le_of_mem_splitOn hp
      have hlt := h l hl
      rw [decodeLabel, List.length_map] at hle
      omega

theorem readName_decoded {data : Bytes} {offset stop : Nat} {name : Text}
    (h : readName data offset = .ok (name, stop)) : DecodedName name := by
  obtain ⟨ps, ls, hw, rfl⟩ := readName_eq_ok_iff.mp h
  exact nameOf_decoded fun l hl => (hw.length_labels l hl).2

theorem DecodedName.undot {name : Text} (h : DecodedName name) : DecodedName (undot name) where
  decoded := h.decoded.of_subset fun _ hc => Text.mem_of_mem_stripBy hc
  lower c hc := h.lower c (Text.mem_of_mem_stripBy hc)
  short piece hp := h.short piece (Text.mem_splitOn_stripBy hp)

/-! ## Writing names -/

def labelBytes (label : Bytes) : Bytes := byte label.length :: label

/-- Labels in full, without a pointer. -/
def flatName (labels : List Bytes) : Bytes := labels.flatMap labelBytes ++ [0]

/-- `label.encode("ascii")` for an ASCII label. -/
def encodeLabel (label : Text) : Bytes := label.map fun c => byte c.toNat

/-- The labels that are written for a name. -/
def writtenLabels (name : Text) : List Bytes := ((undot name).splitOn '.').map encodeLabel

theorem writeAll_eq_ok {α : Type} {write : α → Except PyError Bytes} {f : α → Bytes} {l : List α}
    (h : ∀ a ∈ l, write a = .ok (f a)) : writeAll write l = .ok (l.flatMap f) := by
  induction l with
  | nil => rfl
  | cons a l ih =>
    obtain ⟨ha, hl⟩ := List.forall_mem_cons.mp h
    simp only [writeAll, ha, ih hl]
    rfl

/-- A list is written exactly when each of its members is. -/
theorem writeAll_ok {α : Type} {write : α → Except PyError Bytes} {l : List α} {b : Bytes}
    (h : writeAll write l = .ok b) : ∀ a ∈ l, ∃ piece, write a = .ok piece := by
  induction l generalizing b with
  | nil => simp
  | cons a l ih =>
    simp only [writeAll, Except.bind_eq_ok] at h
    obtain ⟨piece, ha, rest, hl, -⟩ := h
    exact List.forall_mem_cons.mpr ⟨⟨piece, ha⟩, ih hl⟩

theorem isAscii_of_subset {t t' : Text} (h : Text.isAscii t = true) (hs : ∀ c ∈ t', c ∈ t) :
    Text.isAscii t' = true := by
  simp only [Text.isAscii, List.all_eq_true] at h ⊢
  exact fun c hc => h c (hs c hc)

theorem writeLabel_ok {label : Text} (hascii : Text.isAscii label = true)
    (hlen : label.length < 192) : writeLabel label = .ok (labelBytes (encodeLabel label)) := by
  rw [writeLabel, if_pos hascii, if_pos (by omega), labelBytes, encodeLabel, List.length_map]

theorem writeLabel_isAscii {label : Text} {b : Bytes} (h : writeLabel label = .ok b) :
    Text.isAscii label = true := by
  unfold writeLabel at h
  split at h
  · assumption
  · cases h

theorem writeName_ok {name : Text} (hd : DecodedName name) (hascii : Text.isAscii name = true) :
    writeName name = .ok (flatName (writtenLabels name)) := by
  have hpieces : ∀ piece ∈ (undot name).splitOn '.',
      writeLabel piece = .ok (labelBytes (encodeLabel piece)) := by
    intro piece hp
    apply writeLabel_ok
    · exact isAscii_of_subset hascii fun c hc =>
        Text.mem_of_mem_stripBy (Text.mem_of_mem_splitOn hp hc)
    · exact hd.undot.short piece hp
  simp only [writeName, writeAll_eq_ok hpieces]
  simp only [flatName, writtenLabels, List.flatMap_map]
  rfl

/-- Only ASCII names are written. -/
theorem writeName_isAscii {name : Text} {b : Bytes} (h : writeName name = .ok b) :
    Text.isAscii name = true := by
  simp only [writeName, Except.bind_eq_ok] at h
  obtain ⟨labels, hl, -⟩ := h
  have hpieces := writeAll_ok hl
  have hundot : ∀ c ∈ undot name, Text.isAsciiChar c = true := by
    intro c hc
    rw [← Text.join_splitOn '.' (undot name)] at hc
    rcases Text.mem_join hc with rfl | ⟨piece, hp, hc⟩
    · rfl
    · obtain ⟨b, hb⟩ := hpieces piece hp
      have := writeLabel_isAscii hb
      simp only [Text.isAscii, List.all_eq_true] at this
      exact this c hc
  rw [Text.isAscii, List.all_eq_true]
  intro c hc
  by_cases hdot : c = '.'
  · rw [hdot]
    rfl
  · exact hundot c (Text.mem_stripBy_of_not hc (by simpa using hdot))

/-! ## Reading names back -/

/-- Labels in full are read up to the first empty one. -/
theorem wireName_flat {data rest : Bytes} {offset : Nat} {labels : List Bytes}
    (hlen : ∀ l ∈ labels, 0 < l.length ∧ l.length < 192)
    (hd : data.drop offset = labels.flatMap labelBytes ++ 0 :: rest) :
    WireName data offset [] labels (offset + (labels.flatMap labelBytes).length + 1) := by
  induction labels generalizing offset with
  | nil => exact .root hd
  | cons l labels ih =>
    obtain ⟨⟨h0, hlt⟩, hlen⟩ := List.forall_mem_cons.mp hlen
    have hbyte : (byte l.length).toNat = l.length := by
      rw [toNat_byte]
      omega
    have hcons : data.drop offset =
        byte l.length :: (l ++ (labels.flatMap labelBytes ++ 0 :: rest)) := by
      simpa [labelBytes] using hd
    have hlabel : data.drop (offset + 1) = l ++ (labels.flatMap labelBytes ++ 0 :: rest) := by
      rw [← List.drop_drop, hcons, List.drop_one, List.tail_cons]
    have hnext : data.drop (offset + 1 + (byte l.length).toNat) =
        labels.flatMap labelBytes ++ 0 :: rest := by
      rw [hbyte]
      exact drop_add_length hlabel
    have hw := WireName.label hcons (by omega) (by omega) (by simp [hbyte]) (ih hlen hnext)
    rw [hbyte, List.take_left] at hw
    have hstop : offset + ((l :: labels).flatMap labelBytes).length + 1 =
        offset + 1 + l.length + (labels.flatMap labelBytes).length + 1 := by
      simp only [List.flatMap_cons, List.length_append, labelBytes, List.length_cons]
      omega
    rw [hstop]
    exact hw

theorem wireName_flatName {data rest : Bytes} {offset : Nat} {labels : List Bytes}
    (hlen : ∀ l ∈ labels, 0 < l.length ∧ l.length < 192)
    (hd : data.drop offset = flatName labels ++ rest) :
    WireName data offset [] labels (offset + (flatName labels).length) := by
  rw [flatName, List.append_assoc, List.singleton_append] at hd
  rw [flatName, List.length_append, List.length_singleton, ← Nat.add_assoc]
  exact wireName_flat hlen hd

/-- An empty label ends a name early, but inside the bytes that were written for it. -/
theorem wireName_takeWhile {data rest : Bytes} {offset : Nat} {labels : List Bytes}
    (hlen : ∀ l ∈ labels, l.length < 192) (hd : data.drop offset = flatName labels ++ rest) :
    ∃ stop, stop ≤ offset + (flatName labels).length ∧
      WireName data offset [] (labels.takeWhile (· ≠ [])) stop := by
  have hpos : ∀ l ∈ labels.takeWhile (· ≠ []), 0 < l.length ∧ l.length < 192 := by
    intro l hl
    have hne : l ≠ [] := by simpa using List.mem_takeWhile_imp hl
    exact ⟨List.length_pos_iff_ne_nil.mpr hne, hlen l (List.takeWhile_subset _ hl)⟩
  have hsplit : ∃ tail, flatName labels ++ rest =
      (labels.takeWhile (· ≠ [])).flatMap labelBytes ++ 0 :: tail ∧
      ((labels.takeWhile (· ≠ [])).flatMap labelBytes).length + 1 ≤ (flatName labels).length := by
    have hall := List.takeWhile_append_dropWhile (p := (· ≠ [])) (l := labels)
    generalize labels.takeWhile (· ≠ []) = solid at hall
    cases hrest : labels.dropWhile (· ≠ []) with
    | nil =>
      rw [hrest, List.append_nil] at hall
      refine ⟨rest, ?_, ?_⟩
      · rw [flatName, hall, List.append_assoc, List.singleton_append]
      · rw [flatName, hall, List.length_append, List.length_singleton]
    | cons l tail =>
      have hl : l = [] := by
        have hhead := List.head?_dropWhile_not (· ≠ []) labels
        rw [hrest] at hhead
        simpa using hhead
      rw [hrest, hl] at hall
      refine ⟨tail.flatMap labelBytes ++ [0] ++ rest, ?_, ?_⟩
      · rw [flatName, ← hall]
        simp [labelBytes, byte]
      · rw [flatName, ← hall]
        simp [labelBytes]
  obtain ⟨tail, heq, hle⟩ := hsplit
  refine ⟨_, ?_, wireName_flat hpos (hd.trans heq)⟩
  rw [Nat.add_assoc]
  exact Nat.add_le_add_left hle offset

theorem decodeLabel_encodeLabel {label : Text} (hascii : Text.isAscii label = true)
    (hlower : ∀ c ∈ label, c.toLower = c) : decodeLabel (encodeLabel label) = label := by
  have hchar : ∀ c ∈ label, decodeByte (byte c.toNat) = c := by
    intro c hc
    simp only [Text.isAscii, List.all_eq_true, Text.isAsciiChar, decide_eq_true_eq] at hascii
    have hlt := hascii c hc
    have hmod : c.toNat % 256 = c.toNat := by omega
    simp only [decodeByte, toNat_byte, hmod, hlt, if_true, Char.ofNat_toNat, hlower c hc]
  rw [decodeLabel, encodeLabel, List.map_map]
  exact (List.map_congr_left hchar).trans (List.map_id label)

/-- A text without an empty label. -/
def Solid (t : Text) : Prop := ∀ piece ∈ t.splitOn '.', piece ≠ []

theorem length_writtenLabels {name : Text} (hd : DecodedName name) :
    ∀ l ∈ writtenLabels name, l.length < 192 := by
  intro l hl
  obtain ⟨piece, hp, rfl⟩ := List.mem_map.mp hl
  have := hd.undot.short piece hp
  rwa [encodeLabel, List.length_map]

theorem nameOf_writtenLabels {name : Text} (hd : DecodedName name)
    (hascii : Text.isAscii name = true) : nameOf (writtenLabels name) = undot name := by
  have hmem : ∀ c ∈ undot name, c ∈ name := fun _ hc => Text.mem_of_mem_stripBy hc
  have hpieces : ∀ piece ∈ (undot name).splitOn '.', decodeLabel (encodeLabel piece) = piece := by
    intro piece hp
    apply decodeLabel_encodeLabel
    · exact isAscii_of_subset hascii fun c hc => hmem c (Text.mem_of_mem_splitOn hp hc)
    · exact fun c hc => hd.lower c (hmem c (Text.mem_of_mem_splitOn hp hc))
  rw [nameOf, writtenLabels, List.map_map]
  have hid : ((undot name).splitOn '.').map (decodeLabel ∘ encodeLabel) =
      (undot name).splitOn '.' := (List.map_congr_left hpieces).trans (List.map_id _)
  rw [hid, Text.join_splitOn]

/-- A name whose stripped form has no empty label is read back as that form. -/
theorem readName_written {name : Text} (hd : DecodedName name)
    (hascii : Text.isAscii name = true) (hsolid : Solid (undot name)) {data rest : Bytes}
    {offset : Nat} (h : data.drop offset = flatName (writtenLabels name) ++ rest) :
    readName data offset = .ok (undot name, offset + (flatName (writtenLabels name)).length) := by
  have hlen : ∀ l ∈ writtenLabels name, 0 < l.length ∧ l.length < 192 := by
    intro l hl
    refine ⟨?_, length_writtenLabels hd l hl⟩
    obtain ⟨piece, hp, rfl⟩ := List.mem_map.mp hl
    rw [encodeLabel, List.length_map]
    exact List.length_pos_iff_ne_nil.mpr (hsolid piece hp)
  exact readName_eq_ok_iff.mpr
    ⟨[], _, wireName_flatName hlen h, (nameOf_writtenLabels hd hascii).symm⟩

/-! ## Questions and records -/

structure DNSQuestion.WellFormed (q : DNSQuestion) : Prop where
  name : DecodedName q.qname
  qtype : q.qtype < 65536
  qclass : q.qclass < 65536

structure DNSRecord.WellFormed (r : DNSRecord) : Prop where
  name : DecodedName r.name
  rtype : r.rtype < 65536
  rclass : r.rclass < 65536
  ttl : r.ttl < 4294967296
  rdata : r.rdata.length < 65536

theorem readQuestion_eq_ok_iff {data : Bytes} {offset next : Nat} {q : DNSQuestion} :
    readQuestion data offset = .ok (q, next) ↔ ∃ stop, readName data offset = .ok (q.qname, stop) ∧
      get16 data stop = some q.qtype ∧ get16 data (stop + 2) = some q.qclass ∧
      next = stop + 4 := by
  simp only [readQuestion, Except.bind_eq_ok, Prod.exists]
  constructor
  · rintro ⟨name, stop, hn, h⟩
    split at h
    · next ht hc =>
      cases h
      exact ⟨stop, hn, ht, hc, rfl⟩
    · cases h
  · rintro ⟨stop, hn, ht, hc, rfl⟩
    refine ⟨_, stop, hn, ?_⟩
    rw [ht, hc]

theorem readRecord_eq_ok_iff {data : Bytes} {offset next : Nat} {r : DNSRecord} :
    readRecord data offset = .ok (r, next) ↔ ∃ stop rdlength,
      readName data offset = .ok (r.name, stop) ∧
      get16 data stop = some r.rtype ∧ get16 data (stop + 2) = some r.rclass ∧
      get32 data (stop + 4) = some r.ttl ∧ get16 data (stop + 8) = some rdlength ∧
      stop + 10 + rdlength ≤ data.length ∧ r.rdata = (data.drop (stop + 10)).take rdlength ∧
      next = stop + 10 + rdlength := by
  simp only [readRecord, Except.bind_eq_ok, Prod.exists]
  constructor
  · rintro ⟨name, stop, hn, h⟩
    split at h
    · next rdlength ht hc httl hl =>
      split_ifs at h with hlen
      cases h
      exact ⟨stop, rdlength, hn, ht, hc, httl, hl, by omega, rfl, rfl⟩
    · cases h
  · rintro ⟨stop, rdlength, hn, ht, hc, httl, hl, hlen, hr, rfl⟩
    refine ⟨_, stop, hn, ?_⟩
    rw [ht, hc, httl, hl]
    dsimp only
    rw [if_neg (by omega), ← hr]

theorem readQuestion_wellFormed {data : Bytes} {offset next : Nat} {q : DNSQuestion}
    (h : readQuestion data offset = .ok (q, next)) : q.WellFormed := by
  obtain ⟨stop, hn, ht, hc, -⟩ := readQuestion_eq_ok_iff.mp h
  exact ⟨readName_decoded hn, get16_lt ht, get16_lt hc⟩

theorem readRecord_wellFormed {data : Bytes} {offset next : Nat} {r : DNSRecord}
    (h : readRecord data offset = .ok (r, next)) : r.WellFormed := by
  obtain ⟨stop, rdlength, hn, ht, hc, httl, hl, -, hr, -⟩ := readRecord_eq_ok_iff.mp h
  refine ⟨readName_decoded hn, get16_lt ht, get16_lt hc, get32_lt httl, ?_⟩
  have := get16_lt hl
  rw [hr, List.length_take]
  omega

/-- The bytes of a question whose name is ASCII. -/
def DNSQuestion.wire (q : DNSQuestion) : Bytes :=
  flatName (writtenLabels q.qname) ++ word16 q.qtype ++ word16 q.qclass

/-- The bytes of a record whose name is ASCII. -/
def DNSRecord.wire (r : DNSRecord) : Bytes :=
  flatName (writtenLabels r.name) ++ word16 r.rtype ++ word16 r.rclass ++ word32 r.ttl ++
    word16 r.rdata.length ++ r.rdata

theorem pack16_ok {n : Nat} (h : n < 65536) : pack16 n = .ok (word16 n) := if_pos h

theorem pack32_ok {n : Nat} (h : n < 4294967296) : pack32 n = .ok (word32 n) := if_pos h

theorem DNSQuestion.toBytes_ok {q : DNSQuestion} (h : q.WellFormed)
    (hascii : Text.isAscii q.qname = true) : q.toBytes = .ok q.wire := by
  simp only [toBytes, writeName_ok h.name hascii, pack16_ok h.qtype, pack16_ok h.qclass]
  rfl

theorem DNSRecord.toBytes_ok {r : DNSRecord} (h : r.WellFormed)
    (hascii : Text.isAscii r.name = true) : r.toBytes = .ok r.wire := by
  simp only [toBytes, writeName_ok h.name hascii, pack16_ok h.rtype, pack16_ok h.rclass,
    pack32_ok h.ttl, pack16_ok h.rdata]
  rfl

/-- A question with the stripped form of its name. -/
def DNSQuestion.undotted (q : DNSQuestion) : DNSQuestion := { q with qname := undot q.qname }

def DNSRecord.undotted (r : DNSRecord) : DNSRecord := { r with name := undot r.name }

theorem DNSQuestion.readsBack {q : DNSQuestion} (h : q.WellFormed)
    (hascii : Text.isAscii q.qname = true) (hsolid : Solid (undot q.qname)) :
    ReadsBack readQuestion q.wire q.undotted := by
  intro data offset rest hd
  simp only [wire, List.append_assoc] at hd
  have h1 := drop_add_length hd
  have h2 := drop_add_length h1
  refine readQuestion_eq_ok_iff.mpr ⟨_, readName_written h.name hascii hsolid hd,
    get16_of_drop h.qtype h1, get16_of_drop h.qclass h2, ?_⟩
  simp only [wire, List.length_append, length_word16]
  omega

theorem DNSRecord.readsBack {r : DNSRecord} (h : r.WellFormed)
    (hascii : Text.isAscii r.name = true) (hsolid : Solid (undot r.name)) :
    ReadsBack readRecord r.wire r.undotted := by
  intro data offset rest hd
  have hlen := congrArg List.length hd
  simp only [wire, List.append_assoc] at hd
  have h1 := drop_add_length hd
  have h2 := drop_add_length h1
  have h3 := drop_add_length h2
  have h4 := drop_add_length h3
  have h5 := drop_add_length h4
  have hwire : r.wire.length = (flatName (writtenLabels r.name)).length + 10 + r.rdata.length := by
    simp only [wire, List.length_append, length_word16, length_word32]
  refine readRecord_eq_ok_iff.mpr ⟨_, r.rdata.length, readName_written h.name hascii hsolid hd,
    get16_of_drop h.rtype h1, get16_of_drop h.rclass h2, get32_of_drop h.ttl h3,
    get16_of_drop h.rdata h4, ?_, ?_, ?_⟩
  · rw [List.length_drop, List.length_append, hwire] at hlen
    have hname : 0 < (flatName (writtenLabels r.name)).length := by simp [flatName]
    omega
  · have h5' := h5
    simp only [length_word16, length_word32, Nat.add_assoc, Nat.reduceAdd] at h5'
    rw [Nat.add_assoc, h5', List.take_left, undotted]
  · rw [hwire]
    omega

/-! ## Messages -/

namespace DNSMessage

/-- The records of a message, in the order they are written. -/
def records (m : DNSMessage) : List DNSRecord := m.answers ++ m.authorities ++ m.additionals

/-- The names of a message, in the order they are written. -/
def names (m : DNSMessage) : List Text := m.questions.map (·.qname) ++ m.records.map (·.name)

/-- Every field of the message fits the width it is written with. -/
structure WellFormed (m : DNSMessage) : Prop where
  id : m.id < 65536
  qr : m.qr < 2
  opcode : m.opcode < 16
  aa : m.aa < 2
  tc : m.tc < 2
  rd : m.rd < 2
  ra : m.ra < 2
  z : m.z < 8
  rcode : m.rcode < 16
  questions : ∀ q ∈ m.questions, q.WellFormed
  records : ∀ r ∈ m.records, r.WellFormed
  qdcount : m.questions.length < 65536
  ancount : m.answers.length < 65536
  nscount : m.authorities.length < 65536
  arcount : m.additionals.length < 65536

theorem mask_one (n : Nat) : n &&& 1 = n % 2 := Nat.and_two_pow_sub_one_eq_mod n 1

theorem mask_seven (n : Nat) : n &&& 7 = n % 8 := Nat.and_two_pow_sub_one_eq_mod n 3

theorem mask_fifteen (n : Nat) : n &&& 0xF = n % 16 := Nat.and_two_pow_sub_one_eq_mod n 4

/-- The flag word as a sum of its fields. -/
theorem flags_eq (m : DNSMessage) : m.flags = m.qr % 2 * 32768 + m.opcode % 16 * 2048 +
    m.aa % 2 * 1024 + m.tc % 2 * 512 + m.rd % 2 * 256 + m.ra % 2 * 128 + m.z % 8 * 16 +
    m.rcode % 16 := by
  simp only [flags, mask_one, mask_seven, mask_fifteen, Nat.shiftLeft_eq]
  -- from the highest field down, each field lies below the ones already added
  rw [or_eq_add (y := m.opcode % 16 * 2 ^ 11) 15 (by omega) (by omega),
    or_eq_add (y := m.aa % 2 * 2 ^ 10) 11 (by omega) (by omega),
    or_eq_add (y := m.tc % 2 * 2 ^ 9) 10 (by omega) (by omega),
    or_eq_add (y := m.rd % 2 * 2 ^ 8) 9 (by omega) (by omega),
    or_eq_add (y := m.ra % 2 * 2 ^ 7) 8 (by omega) (by omega),
    or_eq_add (y := m.z % 8 * 2 ^ 4) 7 (by omega) (by omega),
    or_eq_add (y := m.rcode % 16) 4 (by omega) (by omega)]

theorem flags_lt (m : DNSMessage) : m.flags < 65536 := by
  rw [flags_eq]
  omega

/-- A parse of `data`: the flag word, and where each section ends. -/
structure Parses (data : Bytes) (m : DNSMessage) (flags o₁ o₂ o₃ o₄ : Nat) : Prop where
  header : DNSMessage.header data = some (m.id, flags, m.questions.length, m.answers.length,
    m.authorities.length, m.additionals.length)
  questions : ReadsTo (readQuestion data) 12 m.questions o₁
  answers : ReadsTo (readRecord data) o₁ m.answers o₂
  authorities : ReadsTo (readRecord data) o₂ m.authorities o₃
  additionals : ReadsTo (readRecord data) o₃ m.additionals o₄
  qr : m.qr = (flags >>> 15) &&& 0x1
  opcode : m.opcode = (flags >>> 11) &&& 0xF
  aa : m.aa = (flags >>> 10) &&& 0x1
  tc : m.tc = (flags >>> 9) &&& 0x1
  rd : m.rd = (flags >>> 8) &&& 0x1
  ra : m.ra = (flags >>> 7) &&& 0x1
  z : m.z = (flags >>> 4) &&& 0x7
  rcode : m.rcode = flags &&& 0xF

theorem parse_eq_ok_iff {data : Bytes} {m : DNSMessage} :
    parse data = .ok m ↔ ∃ flags o₁ o₂ o₃ o₄, Parses data m flags o₁ o₂ o₃ o₄ := by
  constructor
  · intro h
    unfold parse at h
    split at h
    · cases h
    · next hh =>
      simp only [Except.bind_eq_ok, Prod.exists] at h
      obtain ⟨questions, o₁, hq, answers, o₂, ha, authorities, o₃, hn, additionals, o₄, hr, h⟩ := h
      cases h
      obtain ⟨rfl, hq'⟩ := readMany_eq_ok_iff.mp hq
      obtain ⟨rfl, ha'⟩ := readMany_eq_ok_iff.mp ha
      obtain ⟨rfl, hn'⟩ := readMany_eq_ok_iff.mp hn
      obtain ⟨rfl, hr'⟩ := readMany_eq_ok_iff.mp hr
      exact ⟨_, o₁, o₂, o₃, o₄, hh, hq', ha', hn', hr', rfl, rfl, rfl, rfl, rfl, rfl, rfl, rfl⟩
  · rintro ⟨flags, o₁, o₂, o₃, o₄, h⟩
    have hq := readMany_eq_ok_iff.mpr ⟨rfl, h.questions⟩
    have ha := readMany_eq_ok_iff.mpr ⟨rfl, h.answers⟩
    have hn := readMany_eq_ok_iff.mpr ⟨rfl, h.authorities⟩
    have hr := readMany_eq_ok_iff.mpr ⟨rfl, h.additionals⟩
    simp only [parse, h.header]
    refine Except.bind_eq_ok.mpr ⟨_, hq, Except.bind_eq_ok.mpr ⟨_, ha, Except.bind_eq_ok.mpr
      ⟨_, hn, Except.bind_eq_ok.mpr ⟨_, hr, ?_⟩⟩⟩⟩
    rw [← h.qr, ← h.opcode, ← h.aa, ← h.tc, ← h.rd, ← h.ra, ← h.z, ← h.rcode]

theorem header_eq_some_iff {data : Bytes} {a b c d e f : Nat} :
    header data = some (a, b, c, d, e, f) ↔ get16 data 0 = some a ∧ get16 data 2 = some b ∧
      get16 data 4 = some c ∧ get16 data 6 = some d ∧ get16 data 8 = some e ∧
      get16 data 10 = some f := by
  simp only [header, Option.bind_eq_bind, Option.bind_eq_some_iff, Option.some.injEq, Prod.mk.injEq]
  constructor
  · rintro ⟨_, h1, _, h2, _, h3, _, h4, _, h5, _, h6, rfl, rfl, rfl, rfl, rfl, rfl⟩
    exact ⟨h1, h2, h3, h4, h5, h6⟩
  · rintro ⟨h1, h2, h3, h4, h5, h6⟩
    exact ⟨_, h1, _, h2, _, h3, _, h4, _, h5, _, h6, rfl, rfl, rfl, rfl, rfl, rfl⟩

namespace Parses

variable {data : Bytes} {m : DNSMessage} {flags o₁ o₂ o₃ o₄ : Nat}

theorem records (h : Parses data m flags o₁ o₂ o₃ o₄) :
    ReadsTo (readRecord data) o₁ m.records o₄ :=
  (h.answers.append h.authorities).append h.additionals

theorem wellFormed (h : Parses data m flags o₁ o₂ o₃ o₄) : m.WellFormed := by
  obtain ⟨hid, -, hqd, han, hns, har⟩ := header_eq_some_iff.mp h.header
  have h1 : ∀ n, n &&& 0x1 < 2 := fun n => mask_one n ▸ Nat.mod_lt n (by decide)
  have h7 : ∀ n, n &&& 0x7 < 8 := fun n => mask_seven n ▸ Nat.mod_lt n (by decide)
  have h15 : ∀ n, n &&& 0xF < 16 := fun n => mask_fifteen n ▸ Nat.mod_lt n (by decide)
  exact {
    id := get16_lt hid
    qr := h.qr ▸ h1 _
    opcode := h.opcode ▸ h15 _
    aa := h.aa ▸ h1 _
    tc := h.tc ▸ h1 _
    rd := h.rd ▸ h1 _
    ra := h.ra ▸ h1 _
    z := h.z ▸ h7 _
    rcode := h.rcode ▸ h15 _
    questions := h.questions.forall_mem fun _ _ _ => readQuestion_wellFormed
    records := h.records.forall_mem fun _ _ _ => readRecord_wellFormed
    qdcount := get16_lt hqd
    ancount := get16_lt han
    nscount := get16_lt hns
    arcount := get16_lt har }

/-- The fields of a 16-bit word, put back in their places. -/
theorem sum_fields {n : Nat} (h : n < 65536) : n / 32768 % 2 * 32768 + n / 2048 % 16 * 2048 +
    n / 1024 % 2 * 1024 + n / 512 % 2 * 512 + n / 256 % 2 * 256 + n / 128 % 2 * 128 +
    n / 16 % 8 * 16 + n % 16 = n := by
  have h4 : n = n / 16 * 16 + n % 16 := by omega
  have h7 : n / 16 = n / 128 * 8 + n / 16 % 8 := by omega
  have h8 : n / 128 = n / 256 * 2 + n / 128 % 2 := by omega
  have h9 : n / 256 = n / 512 * 2 + n / 256 % 2 := by omega
  have h10 : n / 512 = n / 1024 * 2 + n / 512 % 2 := by omega
  have h11 : n / 1024 = n / 2048 * 2 + n / 1024 % 2 := by omega
  have h15 : n / 2048 = n / 32768 * 16 + n / 2048 % 16 := by omega
  have h16 : n / 32768 % 2 = n / 32768 := by omega
  linarith

/-- The flag word is made of the fields that were taken from it. -/
theorem flags_eq (h : Parses data m flags o₁ o₂ o₃ o₄) : m.flags = flags := by
  have hlt : flags < 65536 := get16_lt (header_eq_some_iff.mp h.header).2.1
  rw [DNSMessage.flags_eq, h.qr, h.opcode, h.aa, h.tc, h.rd, h.ra, h.z, h.rcode]
  simp only [mask_one, mask_seven, mask_fifteen, Nat.shiftRight_eq_div_pow, Nat.mod_mod]
  exact sum_fields hlt

end Parses

theorem parse_wellFormed {data : Bytes} {m : DNSMessage} (h : parse data = .ok m) :
    m.WellFormed := by
  obtain ⟨_, _, _, _, _, h⟩ := parse_eq_ok_iff.mp h
  exact h.wellFormed

/-! ## Writing messages -/

def headerWire (m : DNSMessage) : Bytes :=
  word16 m.id ++ word16 m.flags ++ word16 m.questions.length ++ word16 m.answers.length ++
    word16 m.authorities.length ++ word16 m.additionals.length

/-- The bytes of a message whose names are ASCII. -/
def wire (m : DNSMessage) : Bytes :=
  m.headerWire ++ (m.questions.flatMap DNSQuestion.wire ++ m.records.flatMap DNSRecord.wire)

def AsciiNames (m : DNSMessage) : Prop := ∀ n ∈ m.names, Text.isAscii n = true

theorem asciiNames_iff {m : DNSMessage} : m.AsciiNames ↔
    (∀ q ∈ m.questions, Text.isAscii q.qname = true) ∧
      ∀ r ∈ m.records, Text.isAscii r.name = true := by
  simp only [AsciiNames, names, List.forall_mem_append, List.forall_mem_map]

theorem writeAll_header {m : DNSMessage} (h : m.WellFormed) :
    writeAll pack16 [m.id, m.flags, m.questions.length, m.answers.length, m.authorities.length,
      m.additionals.length] = .ok m.headerWire := by
  have hpack : ∀ n ∈ [m.id, m.flags, m.questions.length, m.answers.length,
      m.authorities.length, m.additionals.length], pack16 n = .ok (word16 n) := by
    simp only [List.forall_mem_cons, List.not_mem_nil, false_implies, implies_true, and_true]
    exact ⟨pack16_ok h.id, pack16_ok m.flags_lt, pack16_ok h.qdcount, pack16_ok h.ancount,
      pack16_ok h.nscount, pack16_ok h.arcount⟩
  rw [writeAll_eq_ok hpack]
  simp [headerWire]

theorem toBytes_ok {m : DNSMessage} (h : m.WellFormed) (hascii : m.AsciiNames) :
    m.toBytes = .ok m.wire := by
  obtain ⟨hq, hr⟩ := asciiNames_iff.mp hascii
  have hquestions := writeAll_eq_ok (f := DNSQuestion.wire) (l := m.questions)
    fun q hm => DNSQuestion.toBytes_ok (h.questions q hm) (hq q hm)
  have hrec : ∀ r ∈ m.records, r.toBytes = .ok r.wire :=
    fun r hm => DNSRecord.toBytes_ok (h.records r hm) (hr r hm)
  simp only [records, List.forall_mem_append] at hrec
  obtain ⟨⟨ha, hn⟩, hx⟩ := hrec
  simp only [toBytes, writeAll_header h, hquestions, writeAll_eq_ok ha, writeAll_eq_ok hn,
    writeAll_eq_ok hx]
  simp only [wire, records, List.flatMap_append, List.append_assoc]
  rfl

/-- `to_bytes` raises when a name is not ASCII, and only then. -/
theorem toBytes_eq_ok_iff {m : DNSMessage} (h : m.WellFormed) {b : Bytes} :
    m.toBytes = .ok b ↔ m.AsciiNames ∧ b = m.wire := by
  constructor
  · intro hb
    have hb' := hb
    simp only [toBytes, Except.bind_eq_ok] at hb'
    obtain ⟨_, -, _, hq, _, ha, _, hn, _, hx, -⟩ := hb'
    have hname : ∀ r : DNSRecord, (∃ b, r.toBytes = .ok b) → Text.isAscii r.name = true := by
      rintro r ⟨b, hr⟩
      simp only [DNSRecord.toBytes, Except.bind_eq_ok] at hr
      obtain ⟨_, hn, -⟩ := hr
      exact writeName_isAscii hn
    have hascii : m.AsciiNames := by
      refine asciiNames_iff.mpr ⟨fun q hm => ?_, ?_⟩
      · obtain ⟨b, hb⟩ := writeAll_ok hq q hm
        simp only [DNSQuestion.toBytes, Except.bind_eq_ok] at hb
        obtain ⟨_, hn, -⟩ := hb
        exact writeName_isAscii hn
      · simp only [records, List.forall_mem_append]
        exact ⟨⟨fun r hm => hname r (writeAll_ok ha r hm), fun r hm => hname r (writeAll_ok hn r hm)⟩,
          fun r hm => hname r (writeAll_ok hx r hm)⟩
    rw [toBytes_ok h hascii] at hb
    exact ⟨hascii, (Except.ok.inj hb).symm⟩
  · rintro ⟨hascii, rfl⟩
    exact toBytes_ok h hascii

/-! ## Reading messages back -/

theorem header_wire {m : DNSMessage} (h : m.WellFormed) :
    header m.wire = some (m.id, m.flags, m.questions.length, m.answers.length,
      m.authorities.length, m.additionals.length) := by
  apply header_eq_some_iff.mpr
  refine ⟨get16_of_drop h.id rfl, get16_of_drop m.flags_lt rfl, get16_of_drop h.qdcount rfl,
    get16_of_drop h.ancount rfl, get16_of_drop h.nscount rfl, get16_of_drop h.arcount rfl⟩

theorem drop_wire (m : DNSMessage) : m.wire.drop 12 =
    m.questions.flatMap DNSQuestion.wire ++ m.records.flatMap DNSRecord.wire := rfl

/-- The message with the stripped forms of its names. -/
def undotted (m : DNSMessage) : DNSMessage :=
  { m with
    questions := m.questions.map DNSQuestion.undotted
    answers := m.answers.map DNSRecord.undotted
    authorities := m.authorities.map DNSRecord.undotted
    additionals := m.additionals.map DNSRecord.undotted }

def SolidNames (m : DNSMessage) : Prop := ∀ n ∈ m.names, Solid (undot n)

theorem solidNames_iff {m : DNSMessage} : m.SolidNames ↔
    (∀ q ∈ m.questions, Solid (undot q.qname)) ∧ ∀ r ∈ m.records, Solid (undot r.name) := by
  simp only [SolidNames, names, List.forall_mem_append, List.forall_mem_map]

/-- The fields of the flag word are read back. -/
theorem fields_of_flags {m : DNSMessage} (h : m.WellFormed) :
    m.qr = (m.flags >>> 15) &&& 0x1 ∧ m.opcode = (m.flags >>> 11) &&& 0xF ∧
      m.aa = (m.flags >>> 10) &&& 0x1 ∧ m.tc = (m.flags >>> 9) &&& 0x1 ∧
      m.rd = (m.flags >>> 8) &&& 0x1 ∧ m.ra = (m.flags >>> 7) &&& 0x1 ∧
      m.z = (m.flags >>> 4) &&& 0x7 ∧ m.rcode = m.flags &&& 0xF := by
  have hqr := h.qr
  have hop := h.opcode
  have haa := h.aa
  have htc := h.tc
  have hrd := h.rd
  have hra := h.ra
  have hz := h.z
  have hrc := h.rcode
  simp only [mask_one, mask_seven, mask_fifteen, Nat.shiftRight_eq_div_pow, flags_eq]
  omega

/-- The message that is read back. -/
theorem parse_wire {m : DNSMessage} (h : m.WellFormed) (hascii : m.AsciiNames)
    (hsolid : m.SolidNames) : parse m.wire = .ok m.undotted := by
  obtain ⟨haq, har⟩ := asciiNames_iff.mp hascii
  obtain ⟨hsq, hsr⟩ := solidNames_iff.mp hsolid
  have hquestions : List.Forall₂ (ReadsBack readQuestion) (m.questions.map DNSQuestion.wire)
      (m.questions.map DNSQuestion.undotted) := by
    rw [List.forall₂_map_left_iff, List.forall₂_map_right_iff, List.forall₂_same]
    exact fun q hm => DNSQuestion.readsBack (h.questions q hm) (haq q hm) (hsq q hm)
  have hrecords : ∀ l : List DNSRecord, (∀ r ∈ l, r ∈ m.records) →
      List.Forall₂ (ReadsBack readRecord) (l.map DNSRecord.wire) (l.map DNSRecord.undotted) := by
    intro l hl
    rw [List.forall₂_map_left_iff, List.forall₂_map_right_iff, List.forall₂_same]
    exact fun r hm => DNSRecord.readsBack (h.records r (hl r hm)) (har r (hl r hm))
      (hsr r (hl r hm))
  have hd := drop_wire m
  simp only [records, List.flatMap_append, List.append_assoc] at hd
  have hd₁ := drop_add_length hd
  have hd₂ := drop_add_length hd₁
  have hd₃ := drop_add_length hd₂
  rw [← List.append_nil (List.flatMap _ m.additionals)] at hd₃
  have hanswers := hrecords m.answers fun r hm => by simp [records, hm]
  have hauthorities := hrecords m.authorities fun r hm => by simp [records, hm]
  have hadditionals := hrecords m.additionals fun r hm => by simp [records, hm]
  obtain ⟨hqr, hop, haa, htc, hrd, hra, hz, hrc⟩ := fields_of_flags h
  have hparses : Parses m.wire m.undotted m.flags _ _ _ _ := {
    header := by simpa [undotted] using header_wire h
    questions := ReadsBack.many hquestions hd
    answers := ReadsBack.many hanswers hd₁
    authorities := ReadsBack.many hauthorities hd₂
    additionals := ReadsBack.many hadditionals hd₃
    qr := hqr
    opcode := hop
    aa := haa
    tc := htc
    rd := hrd
    ra := hra
    z := hz
    rcode := hrc }
  exact parse_eq_ok_iff.mpr ⟨_, _, _, _, _, hparses⟩

/-- A lone question is read back as some question, whatever became of its name. -/
theorem parse_wire_single {m : DNSMessage} (h : m.WellFormed) {q : DNSQuestion}
    (hq : m.questions = [q]) (hr : m.records = []) :
    ∃ m', parse m.wire = .ok m' ∧ m'.qr = m.qr := by
  have hname := (h.questions q (by simp [hq])).name
  have hd : m.wire.drop 12 = flatName (writtenLabels q.qname) ++
      (word16 q.qtype ++ word16 q.qclass) := by
    rw [drop_wire, hq, hr]
    simp [DNSQuestion.wire]
  obtain ⟨stop, hstop, hw⟩ := wireName_takeWhile (length_writtenLabels hname) hd
  have hlen : 12 + (flatName (writtenLabels q.qname)).length + 4 = m.wire.length := by
    have := congrArg List.length hd
    simp only [List.length_drop, List.length_append, length_word16] at this
    have hpos : 0 < (flatName (writtenLabels q.qname)).length := by simp [flatName]
    omega
  obtain ⟨qtype, ht⟩ : ∃ n, get16 m.wire stop = some n := get16_isSome (by omega)
  obtain ⟨qclass, hc⟩ : ∃ n, get16 m.wire (stop + 2) = some n := get16_isSome (by omega)
  have hread : readQuestion m.wire 12 = .ok (⟨_, qtype, qclass⟩, stop + 4) :=
    readQuestion_eq_ok_iff.mpr ⟨stop, readName_eq_ok_iff.mpr ⟨_, _, hw, rfl⟩, ht, hc, rfl⟩
  obtain ⟨ha, hn, hx⟩ : m.answers = [] ∧ m.authorities = [] ∧ m.additionals = [] := by
    simpa [records] using hr
  obtain ⟨hqr, hop, haa, htc, hrd, hra, hz, hrc⟩ := fields_of_flags h
  have hheader := header_wire h
  rw [hq, ha, hn, hx] at hheader
  have hparses : Parses m.wire { m with
      questions := [⟨_, qtype, qclass⟩], answers := [], authorities := [], additionals := [] }
      m.flags (stop + 4) (stop + 4) (stop + 4) (stop + 4) := {
    header := hheader
    questions := .cons hread (.nil _)
    answers := .nil _
    authorities := .nil _
    additionals := .nil _
    qr := hqr
    opcode := hop
    aa := haa
    tc := htc
    rd := hrd
    ra := hra
    z := hz
    rcode := hrc }
  exact ⟨_, parse_eq_ok_iff.mpr ⟨_, _, _, _, _, hparses⟩, rfl⟩

end DNSMessage

end FocusGuard

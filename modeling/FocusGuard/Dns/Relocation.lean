import FocusGuard.Dns.RoundTrip

/-!
# What a message means once it has been rewritten

The serializer copies RDATA as it is and writes every name in full, so a compression pointer
inside RDATA may come to point somewhere else. `rdataMeaning` resolves the names inside RDATA
in the message that carries them; `Relocatable` says which messages can be rewritten: the
names have no empty label, and a pointer inside RDATA only leads into the part of the message
that is not moved.

## Main definitions

* `rdataMeaning`, `MessageView`: what a message says.
* `InPrefix`: a name that stays inside the part that is not moved.
* `Relocatable`: a message that means the same after it has been rewritten.

## Main results

* `view_wire`: a relocatable message is rewritten faithfully.
* `solid_of_view_eq`: a message that is rewritten faithfully has no empty label.
-/

namespace FocusGuard

open Bytes Reader DNSMessage

/-! ## Names inside RDATA -/

/-- Where the labels at the front of a byte string end. -/
inductive NameTail where
  | root (rest : Bytes)
  | pointer (target : Fin 16384) (rest : Bytes)
  | overrun

/-- The labels at the front of a byte string, up to a zero byte or a pointer. -/
def scan : Bytes → List Bytes × NameTail
  | [] => ([], .overrun)
  | length :: rest =>
    if 192 ≤ length.toNat then
      match rest with
      | [] => ([], .overrun)
      | low :: rest => ([], .pointer (pointerOf length low) rest)
    else if length.toNat = 0 then ([], .root rest)
    else if rest.length < length.toNat then ([], .overrun)
    else
      let (labels, tail) := scan (rest.drop length.toNat)
      (rest.take length.toNat :: labels, tail)
termination_by data => data.length
decreasing_by
  rw [List.length_drop, List.length_cons]
  omega

/-- What a record says, with the names in lower case. -/
inductive RData where
  | raw (data : Bytes)
  | name (target : List Bytes)
  | mx (preference : Bytes) (exchange : List Bytes)
  | soa (mname rname : List Bytes) (numbers : Bytes)
  deriving DecidableEq

def foldCase (labels : List Bytes) : List Bytes := labels.map (·.map lowerByte)

/-- The name at the front of RDATA, resolved in the message, and what follows it. -/
def rdataName (message rdata : Bytes) : Option (List Bytes × Bytes) :=
  match scan rdata with
  | (labels, .root rest) => some (foldCase labels, rest)
  | (labels, .pointer target rest) =>
    match readLabels message ∅ target.val with
    | .ok (labels', _) => some (foldCase (labels ++ labels'), rest)
    | .error _ => none
  | (_, .overrun) => none

/-- A name that fills its place. -/
def wholeName (message rdata : Bytes) : Option (List Bytes) :=
  match rdataName message rdata with
  | some (target, []) => some target
  | _ => none

/-- Two names and what follows them. -/
def twoNames (message rdata : Bytes) : Option (List Bytes × List Bytes × Bytes) :=
  (rdataName message rdata).bind fun first =>
    (rdataName message first.2).map fun second => (first.1, second.1, second.2)

/-- The RDATA of a record in a message. What does not have the form of its type is raw. -/
def rdataMeaning (message : Bytes) (r : DNSRecord) : RData :=
  let form :=
    if r.rtype ∈ [typeCname, typeNs, typePtr] then (wholeName message r.rdata).map .name
    else if r.rtype = typeMx then
      (wholeName message (r.rdata.drop 2)).map (.mx (r.rdata.take 2))
    else if r.rtype = typeSoa then
      (twoNames message r.rdata).map fun (mname, rname, numbers) => .soa mname rname numbers
    else none
  form.getD (.raw r.rdata)

structure RecordView where
  name : Text
  rtype : Nat
  rclass : Nat
  ttl : Nat
  rdata : RData
  deriving DecidableEq

def DNSRecord.view (message : Bytes) (r : DNSRecord) : RecordView where
  name := r.name
  rtype := r.rtype
  rclass := r.rclass
  ttl := r.ttl
  rdata := rdataMeaning message r

/-- Everything a message says but its id. -/
structure MessageView where
  qr : Nat
  opcode : Nat
  aa : Nat
  tc : Nat
  rd : Nat
  ra : Nat
  z : Nat
  rcode : Nat
  questions : List DNSQuestion
  answers : List RecordView
  authorities : List RecordView
  additionals : List RecordView
  deriving DecidableEq

/-- The view of a message whose bytes are `data`. -/
def DNSMessage.view (data : Bytes) (m : DNSMessage) : MessageView where
  qr := m.qr
  opcode := m.opcode
  aa := m.aa
  tc := m.tc
  rd := m.rd
  ra := m.ra
  z := m.z
  rcode := m.rcode
  questions := m.questions
  answers := m.answers.map (·.view data)
  authorities := m.authorities.map (·.view data)
  additionals := m.additionals.map (·.view data)

/-! ## What is not moved -/

/-- A name in full, without a dot inside a label. -/
def FlatName (data : Bytes) (offset : Nat) : Prop :=
  ∃ labels stop, WireName data offset [] labels stop ∧ ∀ l ∈ labels, (46 : UInt8) ∉ l

/-- Up to the limit every name of the message is written in full. -/
def Unmoved (data : Bytes) (m : DNSMessage) (limit : Nat) : Prop :=
  ∃ flags o₁ o₂ o₃ o₄, Parses data m flags o₁ o₂ o₃ o₄ ∧ limit ≤ o₄ ∧
    ∀ offset ∈ starts (readQuestion data) m.questions.length 12 ++
      starts (readRecord data) m.records.length o₁, offset < limit → FlatName data offset

/-- The byte is no upper-case letter, so rewriting a name leaves it alone. -/
def NotUpper (b : UInt8) : Prop := ¬ (65 ≤ b.toNat ∧ b.toNat ≤ 90)

/-- A name that is read behind the id and before the limit, where lengths are not letters. -/
inductive InPrefix (data : Bytes) (limit : Nat) : Nat → Prop where
  | root {offset : Nat} {rest : Bytes} : 2 ≤ offset → offset + 1 ≤ limit →
      data.drop offset = 0 :: rest → InPrefix data limit offset
  | label {offset : Nat} {length : UInt8} {rest : Bytes} : 2 ≤ offset →
      offset + 1 + length.toNat ≤ limit → data.drop offset = length :: rest →
      0 < length.toNat → length.toNat < 192 → NotUpper length →
      InPrefix data limit (offset + 1 + length.toNat) → InPrefix data limit offset
  | pointer {offset : Nat} {length low : UInt8} {rest : Bytes} : 2 ≤ offset →
      offset + 2 ≤ limit → data.drop offset = length :: low :: rest → 192 ≤ length.toNat →
      InPrefix data limit (pointerOf length low).val → InPrefix data limit offset

/-- The name at the front of RDATA survives being moved. -/
def NameMoves (data : Bytes) (limit : Nat) (rdata : Bytes) : Prop :=
  match (scan rdata).2 with
  | .root _ | .overrun => True
  | .pointer target _ => InPrefix data limit target.val

/-- What follows the name at the front of RDATA. -/
def afterName (rdata : Bytes) : Option Bytes :=
  match (scan rdata).2 with
  | .root rest | .pointer _ rest => some rest
  | .overrun => none

/-- Where the RDATA of a record has the form of its type, the names inside survive being moved. -/
def RDataMoves (data : Bytes) (limit : Nat) (r : DNSRecord) : Prop :=
  (r.rtype ∈ [typeCname, typeNs, typePtr] → afterName r.rdata = some [] →
      NameMoves data limit r.rdata) ∧
    (r.rtype = typeMx → afterName (r.rdata.drop 2) = some [] →
      NameMoves data limit (r.rdata.drop 2)) ∧
    (r.rtype = typeSoa → ∀ rest ∈ afterName r.rdata, afterName rest ≠ none →
      NameMoves data limit r.rdata ∧ NameMoves data limit rest)

/-- A message that means the same after it has been rewritten. -/
structure Relocatable (data : Bytes) (m : DNSMessage) : Prop where
  ascii : m.AsciiNames
  solid : ∀ n ∈ m.names, Solid n
  rdata : ∃ limit, Unmoved data m limit ∧ ∀ r ∈ m.records, RDataMoves data limit r

/-! ## Bytes that are the same but for letter case -/

/-- Every byte stayed as it was or was put in lower case. It stayed as it was behind a byte that
begins a pointer, and where `first` is false at the front. -/
inductive Lowers : Bool → Bytes → Bytes → Prop where
  | nil {first : Bool} : Lowers first [] []
  | same {first : Bool} (b : UInt8) {l l' : Bytes} :
      Lowers (b.toNat < 192) l l' → Lowers first (b :: l) (b :: l')
  | lower (b : UInt8) {l l' : Bytes} :
      Lowers (b.toNat < 192) l l' → Lowers true (b :: l) (lowerByte b :: l')

namespace Lowers

variable {first : Bool} {l l' a a' b b' : Bytes}

theorem refl (first : Bool) (l : Bytes) : Lowers first l l := by
  induction l generalizing first with
  | nil => exact .nil
  | cons b l ih => exact .same b (ih _)

theorem of_kept (h : Lowers false l l') (first : Bool) : Lowers first l l' := by
  cases h with
  | nil => exact .nil
  | same b h => exact .same b h

/-- No byte of the list begins a pointer. -/
theorem map_lowerByte (h : ∀ b ∈ l, b.toNat < 192) : Lowers true l (l.map lowerByte) := by
  induction l with
  | nil => exact .nil
  | cons b l ih =>
    obtain ⟨hb, hl⟩ := List.forall_mem_cons.mp h
    refine .lower b ?_
    rw [decide_eq_true hb]
    exact ih hl

theorem fold (h : Lowers first l l') : l.map lowerByte = l'.map lowerByte := by
  induction h with
  | nil => rfl
  | same b _ ih => rw [List.map_cons, List.map_cons, ih]
  | lower b _ ih => rw [List.map_cons, List.map_cons, ih, lowerByte_lowerByte]

theorem length_eq (h : Lowers first l l') : l.length = l'.length := by
  simpa using congrArg List.length h.fold

theorem append (h : Lowers first a a') (h' : Lowers false b b') :
    Lowers first (a ++ b) (a' ++ b') := by
  induction h with
  | nil => exact h'.of_kept _
  | same c _ ih => exact .same c ih
  | lower c _ ih => exact .lower c ih

theorem take (h : Lowers first l l') (n : Nat) : Lowers first (l.take n) (l'.take n) := by
  induction h generalizing n with
  | nil => exact .refl _ _
  | same b _ ih =>
    cases n with
    | zero => exact .nil
    | succ n => exact .same b (ih n)
  | lower b _ ih =>
    cases n with
    | zero => exact .nil
    | succ n => exact .lower b (ih n)

theorem drop (h : Lowers first l l') (n : Nat) :
    ∃ first', Lowers first' (l.drop n) (l'.drop n) := by
  induction h generalizing n with
  | nil => exact ⟨first, .refl _ _⟩
  | same b h ih =>
    cases n with
    | zero => exact ⟨first, .same b h⟩
    | succ n => exact ih n
  | lower b h ih =>
    cases n with
    | zero => exact ⟨true, .lower b h⟩
    | succ n => exact ih n

/-- The first byte, and what follows it. -/
theorem cons {c : UInt8} (h : Lowers first (c :: l) l') : ∃ c' rest', l' = c' :: rest' ∧
    (NotUpper c ∨ first = false → c' = c) ∧ Lowers (c.toNat < 192) l rest' := by
  cases h with
  | same _ h => exact ⟨c, _, rfl, fun _ => rfl, h⟩
  | lower _ h =>
    refine ⟨_, _, rfl, fun hkept => ?_, h⟩
    rw [lowerByte, if_neg (hkept.resolve_right Bool.noConfusion)]

end Lowers

/-- Two messages are the same from behind the id up to `n`, but for letter case. -/
def SamePrefix (data data' : Bytes) (n : Nat) : Prop :=
  Lowers false ((data.take n).drop 2) ((data'.take n).drop 2)

variable {data data' : Bytes} {limit n : Nat}

theorem SamePrefix.mono (h : SamePrefix data data' n) (hle : limit ≤ n) :
    SamePrefix data data' limit := by
  have hcut : ∀ l : Bytes, (l.take limit).drop 2 = ((l.take n).drop 2).take (limit - 2) := by
    intro l
    rw [← List.drop_take, List.take_take, Nat.min_eq_left hle]
  rw [SamePrefix, hcut, hcut]
  exact h.take _

theorem SamePrefix.drop (h : SamePrefix data data' limit) {offset : Nat} (h2 : 2 ≤ offset) :
    ∃ first, Lowers first ((data.drop offset).take (limit - offset))
      ((data'.drop offset).take (limit - offset)) := by
  have hcut : ∀ l : Bytes,
      (l.drop offset).take (limit - offset) = ((l.take limit).drop 2).drop (offset - 2) := by
    intro l
    rw [List.drop_drop, show 2 + (offset - 2) = offset by omega, List.drop_take]
  rw [hcut, hcut]
  exact Lowers.drop h _

/-- The byte at an offset before the limit, and what follows it. -/
theorem SamePrefix.cons (h : SamePrefix data data' limit) {offset : Nat} (h2 : 2 ≤ offset)
    (hlt : offset + 1 ≤ limit) {b : UInt8} {rest : Bytes} (hd : data.drop offset = b :: rest)
    (hb : NotUpper b) : ∃ rest', data'.drop offset = b :: rest' ∧
      Lowers (b.toNat < 192) (rest.take (limit - offset - 1))
        (rest'.take (limit - offset - 1)) := by
  obtain ⟨first, hseg⟩ := h.drop h2
  rw [hd, show limit - offset = (limit - offset - 1) + 1 by omega, List.take_succ_cons] at hseg
  obtain ⟨b', rest₁, hcons, hkept, hrest⟩ := hseg.cons
  obtain rfl := hkept (.inl hb)
  cases hd' : data'.drop offset with
  | nil =>
    rw [hd', List.take_nil] at hcons
    cases hcons
  | cons b' rest' =>
    rw [hd', List.take_succ_cons] at hcons
    cases hcons
    exact ⟨rest', rfl, hrest⟩

/-- A name inside the common part is a name of both messages, with the same labels. -/
theorem InPrefix.wireName (h : SamePrefix data data' limit) (hlen : limit ≤ data.length)
    {offset : Nat} (hp : InPrefix data limit offset) : ∃ pointers labels labels' stop stop',
      WireName data offset pointers labels stop ∧ WireName data' offset pointers labels' stop' ∧
      foldCase labels = foldCase labels' := by
  induction hp with
  | root h2 hlt hd =>
    obtain ⟨rest', hd', -⟩ := h.cons h2 hlt hd (by unfold NotUpper; decide)
    exact ⟨[], [], [], _, _, .root hd, .root hd', rfl⟩
  | @label offset length rest h2 hle hd h0 h192 hup _ ih =>
    obtain ⟨ps, ls, ls', stop, stop', hw, hw', hfold⟩ := ih
    obtain ⟨rest', hd', hrest⟩ := h.cons h2 (by omega) hd hup
    have hfits : length.toNat ≤ rest.length := by
      have := congrArg List.length hd
      rw [List.length_drop, List.length_cons] at this
      omega
    have htake : ∀ l : Bytes, (l.take (limit - offset - 1)).take length.toNat =
        l.take length.toNat := by
      intro l
      rw [List.take_take, Nat.min_eq_left (by omega)]
    have hlabel : Lowers (length.toNat < 192) (rest.take length.toNat)
        (rest'.take length.toNat) := by
      rw [← htake rest, ← htake rest']
      exact hrest.take _
    have hfits' : length.toNat ≤ rest'.length := by
      have := hlabel.length_eq
      rw [List.length_take, List.length_take] at this
      omega
    refine ⟨ps, _, _, stop, stop', .label hd h0 h192 hfits hw, .label hd' h0 h192 hfits' hw', ?_⟩
    simp only [foldCase, List.map_cons] at hfold ⊢
    rw [hlabel.fold, hfold]
  | @pointer offset length low rest h2 hle hd h192 _ ih =>
    obtain ⟨ps, ls, ls', stop, stop', hw, hw', hfold⟩ := ih
    have hlength : NotUpper length := by
      unfold NotUpper
      omega
    obtain ⟨rest', hd', hrest⟩ := h.cons h2 (by omega) hd hlength
    rw [show limit - offset - 1 = (limit - offset - 2) + 1 by omega, List.take_succ_cons] at hrest
    obtain ⟨low', rest₁, hcons, hkept, -⟩ := hrest.cons
    -- behind a byte that begins a pointer nothing is rewritten
    obtain rfl := hkept (.inr (decide_eq_false (by omega)))
    cases rest' with
    | nil =>
      rw [List.take_nil] at hcons
      cases hcons
    | cons low' rest' =>
      rw [List.take_succ_cons] at hcons
      cases hcons
      exact ⟨_, ls, ls', _, _, .pointer hd h192 hw, .pointer hd' h192 hw', hfold⟩

/-- A name at the front of RDATA that survives being moved is the same in both messages. -/
theorem rdataName_eq (h : SamePrefix data data' limit) (hlen : limit ≤ data.length) {rdata : Bytes}
    (hm : NameMoves data limit rdata) : rdataName data' rdata = rdataName data rdata := by
  unfold NameMoves at hm
  unfold rdataName
  match hs : scan rdata with
  | (labels, .root rest) => rfl
  | (labels, .overrun) => rfl
  | (labels, .pointer target rest) =>
    rw [hs] at hm
    obtain ⟨ps, ls, ls', stop, stop', hw, hw', hfold⟩ := hm.wireName h hlen
    simp only [readLabels_eq_ok_iff.mpr ⟨ps, hw⟩, readLabels_eq_ok_iff.mpr ⟨ps, hw'⟩]
    simp only [foldCase, List.map_append] at hfold ⊢
    rw [hfold]

theorem rdataName_rest {message rdata rest : Bytes} {labels : List Bytes}
    (h : rdataName message rdata = some (labels, rest)) : afterName rdata = some rest := by
  unfold rdataName at h
  unfold afterName
  match hs : scan rdata with
  | (_, .root _) =>
    rw [hs] at h
    cases h
    rfl
  | (_, .overrun) =>
    rw [hs] at h
    cases h
  | (_, .pointer target _) =>
    rw [hs] at h
    dsimp only at h
    split at h
    · cases h
      rfl
    · cases h

theorem rdataName_eq_none {message rdata : Bytes} (h : afterName rdata = none) :
    rdataName message rdata = none := by
  cases hr : rdataName message rdata with
  | none => rfl
  | some found =>
    rw [rdataName_rest hr] at h
    cases h

theorem wholeName_eq (h : SamePrefix data data' limit) (hlen : limit ≤ data.length) {rdata : Bytes}
    (hm : afterName rdata = some [] → NameMoves data limit rdata) :
    wholeName data' rdata = wholeName data rdata := by
  by_cases hafter : afterName rdata = some []
  · rw [wholeName, rdataName_eq h hlen (hm hafter), wholeName]
  · have hnone : ∀ message, wholeName message rdata = none := by
      intro message
      unfold wholeName
      split
      · next hr => exact absurd (rdataName_rest hr) hafter
      · rfl
    rw [hnone, hnone]

theorem twoNames_eq (h : SamePrefix data data' limit) (hlen : limit ≤ data.length) {rdata : Bytes}
    (hm : ∀ rest ∈ afterName rdata, afterName rest ≠ none →
      NameMoves data limit rdata ∧ NameMoves data limit rest) :
    twoNames data' rdata = twoNames data rdata := by
  cases hafter : afterName rdata with
  | none =>
    rw [twoNames, twoNames, rdataName_eq_none hafter, rdataName_eq_none hafter]
    rfl
  | some rest =>
    have hbind : ∀ message, twoNames message rdata =
        (rdataName message rdata).bind fun first =>
          (rdataName message rest).map fun second => (first.1, second.1, second.2) := by
      intro message
      refine Option.bind_congr fun first hfirst => ?_
      have hrest := rdataName_rest hfirst
      rw [hafter] at hrest
      rw [Option.some.inj hrest]
    rw [hbind, hbind]
    -- the first name is only asked for when the second one is there
    by_cases hsecond : afterName rest = none
    · rw [rdataName_eq_none hsecond, rdataName_eq_none hsecond]
      cases rdataName data' rdata <;> cases rdataName data rdata <;> rfl
    · obtain ⟨hfirst, hrest⟩ := hm rest hafter hsecond
      rw [rdataName_eq h hlen hfirst, rdataName_eq h hlen hrest]

/-- RDATA whose names survive being moved says the same in both messages. -/
theorem rdataMeaning_eq (h : SamePrefix data data' limit) (hlen : limit ≤ data.length) {r : DNSRecord}
    (hm : RDataMoves data limit r) : rdataMeaning data' r = rdataMeaning data r := by
  obtain ⟨hname, hmx, hsoa⟩ := hm
  unfold rdataMeaning
  by_cases hn : r.rtype ∈ [typeCname, typeNs, typePtr]
  · simp only [if_pos hn, wholeName_eq h hlen (hname hn)]
  · by_cases hx : r.rtype = typeMx
    · simp only [if_neg hn, if_pos hx, wholeName_eq h hlen (hmx hx)]
    · by_cases hs : r.rtype = typeSoa
      · simp only [if_neg hn, if_neg hx, if_pos hs, twoNames_eq h hlen (hsoa hs)]
      · simp only [if_neg hn, if_neg hx, if_neg hs]

/-! ## Names in full -/

theorem flatName_cons (l : Bytes) (labels : List Bytes) :
    flatName (l :: labels) = labelBytes l ++ flatName labels := by
  simp [flatName]

/-- The bytes of a name without pointers. -/
theorem WireName.drop_flat {offset stop : Nat} {pointers : List (Fin 16384)} {labels : List Bytes}
    (h : WireName data offset pointers labels stop) (hp : pointers = []) :
    data.drop offset = flatName labels ++ data.drop stop ∧
      stop = offset + (flatName labels).length := by
  induction h with
  | @root offset rest hd =>
    have hnext : data.drop (offset + 1) = rest := by
      rw [← List.drop_drop, hd]
      rfl
    rw [hd, hnext]
    exact ⟨rfl, rfl⟩
  | @label offset stop length rest _ labels hd _ _ hle _ ih =>
    obtain ⟨ih, hstop⟩ := ih hp
    have hnext : data.drop (offset + 1 + length.toNat) = rest.drop length.toNat := by
      rw [Nat.add_assoc, ← List.drop_drop, hd, Nat.add_comm, List.drop_succ_cons]
    have hlabel : labelBytes (rest.take length.toNat) = length :: rest.take length.toNat := by
      rw [labelBytes, List.length_take, Nat.min_eq_left hle, byte_toNat]
    rw [hnext] at ih
    rw [flatName_cons, hlabel, List.length_append, List.length_cons, List.length_take,
      Nat.min_eq_left hle, hd, List.append_assoc, ← ih]
    refine ⟨?_, by omega⟩
    rw [List.cons_append, List.take_append_drop]
  | pointer => cases hp

/-- A text without an empty label has no dot to strip. -/
theorem undot_of_solid {name : Text} (h : Solid name) : undot name = name := by
  apply Text.stripBy_eq_self
  · intro c hc
    obtain ⟨rest, rfl⟩ := List.head?_eq_some_iff.mp hc
    simp only [decide_eq_true_eq]
    rintro rfl
    have hsplit : ('.' :: rest).splitOn '.' = [] :: rest.splitOn '.' :=
      Text.splitOn_append_cons '.' [] rest
    exact h [] (by rw [hsplit]; exact List.mem_cons_self) rfl
  · intro c hc
    obtain ⟨front, rfl⟩ := List.getLast?_eq_some_iff.mp hc
    simp only [decide_eq_true_eq]
    rintro rfl
    have hsplit : (front ++ ['.']).splitOn '.' = front.splitOn '.' ++ [[]] := by
      rw [Text.splitOn_append_cons, List.splitOn_nil]
    exact h [] (by rw [hsplit]; simp) rfl

theorem isAsciiChar_of_mem {labels : List Bytes} (h : Text.isAscii (nameOf labels) = true)
    {l : Bytes} (hl : l ∈ labels) {b : UInt8} (hb : b ∈ l) :
    Text.isAsciiChar (decodeByte b) = true := by
  rw [Text.isAscii, List.all_eq_true] at h
  exact h _ (Text.mem_join_of_mem (List.mem_map_of_mem hl) (List.mem_map_of_mem hb))

/-- A name in full is written back in lower case. -/
theorem writtenLabels_nameOf {labels : List Bytes} (hdot : ∀ l ∈ labels, (46 : UInt8) ∉ l)
    (hascii : Text.isAscii (nameOf labels) = true) (hsolid : Solid (nameOf labels)) :
    writtenLabels (nameOf labels) = foldCase labels := by
  have hne : labels ≠ [] := by
    rintro rfl
    exact hsolid [] (by simp [nameOf]) rfl
  have hpieces : (nameOf labels).splitOn '.' = labels.map decodeLabel := by
    apply Text.splitOn_join_of_notMem
    · intro t ht hmem
      obtain ⟨l, hl, rfl⟩ := List.mem_map.mp ht
      obtain ⟨b, hb, heq⟩ := List.mem_map.mp hmem
      exact hdot l hl (decodeByte_eq_dot heq ▸ hb)
    · simpa using hne
  rw [writtenLabels, undot_of_solid hsolid, hpieces, List.map_map]
  refine List.map_congr_left fun l hl => ?_
  rw [Function.comp_apply, encodeLabel, decodeLabel, List.map_map]
  exact List.map_congr_left fun b hb => byte_decodeByte (isAsciiChar_of_mem hascii hl hb)

theorem lowers_flatName {labels : List Bytes} (hlen : ∀ l ∈ labels, l.length < 192)
    (hbytes : ∀ l ∈ labels, ∀ b ∈ l, b.toNat < 192) :
    Lowers false (flatName labels) (flatName (foldCase labels)) := by
  induction labels with
  | nil => exact .refl _ _
  | cons l labels ih =>
    obtain ⟨hl, hlen⟩ := List.forall_mem_cons.mp hlen
    obtain ⟨hb, hbytes⟩ := List.forall_mem_cons.mp hbytes
    have hlabel : Lowers false (labelBytes l) (labelBytes (l.map lowerByte)) := by
      rw [labelBytes, labelBytes, List.length_map]
      refine .same _ ?_
      rw [toNat_byte, decide_eq_true (by omega)]
      exact .map_lowerByte hb
    rw [foldCase, List.map_cons, flatName_cons, flatName_cons]
    exact hlabel.append (ih hlen hbytes)

/-- The bytes of an item agree with what is written for it. -/
def Rewritten (data : Bytes) (offset next : Nat) (wire : Bytes) : Prop :=
  ∃ w, data.drop offset = w ++ data.drop next ∧ next = offset + w.length ∧ Lowers false w wire

theorem name_rewritten {offset stop : Nat} {name : Text}
    (h : readName data offset = .ok (name, stop)) (hflat : FlatName data offset)
    (hascii : Text.isAscii name = true) (hsolid : Solid name) :
    Rewritten data offset stop (flatName (writtenLabels name)) := by
  obtain ⟨labels, stop', hw, hdot⟩ := hflat
  obtain ⟨ps, ls, hw', rfl⟩ := readName_eq_ok_iff.mp h
  obtain ⟨rfl, rfl, rfl⟩ := hw.deterministic hw'
  obtain ⟨hd, hstop⟩ := hw.drop_flat rfl
  rw [writtenLabels_nameOf hdot hascii hsolid]
  refine ⟨_, hd, hstop, lowers_flatName (fun l hl => (hw.length_labels l hl).2) fun l hl b hb => ?_⟩
  have hchar := lt_of_isAsciiChar_decodeByte (isAsciiChar_of_mem hascii hl hb)
  omega

theorem Rewritten.append {offset next stop : Nat} {wire piece : Bytes}
    (h : Rewritten data offset next wire) (hd : data.drop next = piece ++ data.drop stop)
    (hstop : stop = next + piece.length) : Rewritten data offset stop (wire ++ piece) := by
  obtain ⟨w, hw, hnext, hlow⟩ := h
  refine ⟨w ++ piece, ?_, ?_, hlow.append (.refl _ piece)⟩
  · rw [hw, hd, List.append_assoc]
  · rw [List.length_append]
    omega

theorem question_rewritten {offset next : Nat} {q : DNSQuestion}
    (h : readQuestion data offset = .ok (q, next)) (hflat : FlatName data offset)
    (hascii : Text.isAscii q.qname = true) (hsolid : Solid q.qname) :
    Rewritten data offset next q.wire := by
  obtain ⟨stop, hn, ht, hc, rfl⟩ := readQuestion_eq_ok_iff.mp h
  exact ((name_rewritten hn hflat hascii hsolid).append (drop_of_get16 ht) rfl).append
    (drop_of_get16 hc) rfl

theorem record_rewritten {offset next : Nat} {r : DNSRecord}
    (h : readRecord data offset = .ok (r, next)) (hflat : FlatName data offset)
    (hascii : Text.isAscii r.name = true) (hsolid : Solid r.name) :
    Rewritten data offset next r.wire := by
  obtain ⟨stop, rdlength, hn, ht, hc, httl, hl, hlen, hr, rfl⟩ := readRecord_eq_ok_iff.mp h
  have hrdlength : r.rdata.length = rdlength := by
    rw [hr, List.length_take, List.length_drop]
    omega
  have hrdata : data.drop (stop + 10) = r.rdata ++ data.drop (stop + 10 + rdlength) := by
    have hcut := List.take_append_drop rdlength (data.drop (stop + 10))
    rw [List.drop_drop] at hcut
    rw [hr, hcut]
  rw [← hrdlength] at hl hrdata ⊢
  exact (((((name_rewritten hn hflat hascii hsolid).append (drop_of_get16 ht) rfl).append
    (drop_of_get16 hc) rfl).append (drop_of_get32 httl) rfl).append (drop_of_get16 hl) rfl).append
    hrdata rfl

/-! ## The part that is not moved -/

/-- Two readings stand at the same offset, or the first has passed the limit. -/
def Aligned (data data' : Bytes) (limit offset offset' : Nat) : Prop :=
  (offset = offset' ∧ SamePrefix data data' offset) ∨ (limit ≤ offset ∧ SamePrefix data data' limit)

theorem take_add_drop {l w rest : Bytes} {offset : Nat} (hd : l.drop offset = w ++ rest)
    (h2 : 2 ≤ offset) (hlen : 2 ≤ l.length) :
    (l.take (offset + w.length)).drop 2 = (l.take offset).drop 2 ++ w := by
  have hle : 2 ≤ (l.take offset).length := by
    rw [List.length_take]
    omega
  rw [List.take_add, hd, List.take_left, List.drop_append_of_le_length hle]

/-- Reading a section and its rewritten form keeps the readings aligned. -/
theorem Aligned.section {α : Type} {read : Reader PyError α} {wire : α → Bytes} {l : List α}
    {o p o' : Nat} {rest : Bytes} (hreads : ReadsTo read o l p)
    (h : Aligned data data' limit o o') (h2 : 2 ≤ o) (hlen : 2 ≤ data.length)
    (hlen' : 2 ≤ data'.length) (hd : data'.drop o' = l.flatMap wire ++ rest)
    (hmono : ∀ offset a next, read offset = .ok (a, next) → offset ≤ next)
    (hitem : ∀ offset ∈ starts read l.length o, offset < limit → ∀ a ∈ l, ∀ next,
      read offset = .ok (a, next) → Rewritten data offset next (wire a)) :
    Aligned data data' limit p (o' + (l.flatMap wire).length) := by
  induction hreads generalizing o' with
  | nil => exact h
  | @cons o next p a l ha _ ih =>
    rw [List.flatMap_cons, List.append_assoc] at hd
    have hle := hmono o a next ha
    have hstarts : starts read (a :: l).length o = o :: starts read l.length next := by
      simp [starts, ha]
    rw [hstarts] at hitem
    have hnext : Aligned data data' limit next (o' + (wire a).length) := by
      rcases h with ⟨rfl, hsame⟩ | ⟨hlim, hsame⟩
      · by_cases hlim : limit ≤ o
        · exact .inr ⟨by omega, hsame.mono hlim⟩
        · obtain ⟨w, hw, rfl, hlow⟩ :=
            hitem o List.mem_cons_self (by omega) a List.mem_cons_self next ha
          rw [← hlow.length_eq]
          refine .inl ⟨rfl, ?_⟩
          rw [SamePrefix, take_add_drop hw h2 hlen, hlow.length_eq, take_add_drop hd h2 hlen']
          exact hsame.append hlow
      · exact .inr ⟨by omega, hsame⟩
    have hrest := ih hnext (by omega) (drop_add_length hd) fun offset ho hlt a' ha' =>
      hitem offset (List.mem_cons_of_mem _ ho) hlt a' (List.mem_cons_of_mem _ ha')
    rwa [List.flatMap_cons, List.length_append, ← Nat.add_assoc]

/-- The headers agree behind the id. -/
theorem samePrefix_header {a a' b c d e f : Nat} (h : header data = some (a, b, c, d, e, f))
    (h' : header data' = some (a', b, c, d, e, f)) : SamePrefix data data' 12 := by
  have hwords : ∀ {x : Nat} {l : Bytes}, header l = some (x, b, c, d, e, f) →
      (l.take 12).drop 2 = word16 b ++ (word16 c ++ (word16 d ++ (word16 e ++ word16 f))) := by
    intro x l hl
    obtain ⟨-, hb, hc, hd, he, hf⟩ := header_eq_some_iff.mp hl
    rw [List.drop_take, drop_of_get16 hb, drop_of_get16 hc, drop_of_get16 hd, drop_of_get16 he,
      drop_of_get16 hf]
    rfl
  rw [SamePrefix, hwords h, hwords h']
  exact .refl _ _

theorem readQuestion_bounds {offset next : Nat} {q : DNSQuestion}
    (h : readQuestion data offset = .ok (q, next)) : offset < next ∧ next ≤ data.length := by
  obtain ⟨stop, hn, -, hc, rfl⟩ := readQuestion_eq_ok_iff.mp h
  obtain ⟨ps, ls, hw, -⟩ := readName_eq_ok_iff.mp hn
  have hstop := hw.offset_lt_stop
  have hend := le_length_of_get16 hc
  omega

theorem readRecord_bounds {offset next : Nat} {r : DNSRecord}
    (h : readRecord data offset = .ok (r, next)) : offset < next ∧ next ≤ data.length := by
  obtain ⟨stop, rdlength, hn, -, -, -, -, hend, -, rfl⟩ := readRecord_eq_ok_iff.mp h
  obtain ⟨ps, ls, hw, -⟩ := readName_eq_ok_iff.mp hn
  have hstop := hw.offset_lt_stop
  omega

theorem DNSMessage.Parses.bounds {m : DNSMessage} {flags o₁ o₂ o₃ o₄ : Nat}
    (h : Parses data m flags o₁ o₂ o₃ o₄) : 12 ≤ data.length ∧ 12 ≤ o₁ ∧ 12 ≤ o₄ ∧
      o₄ ≤ data.length := by
  have hlen : 12 ≤ data.length := le_length_of_get16 (header_eq_some_iff.mp h.header).2.2.2.2.2
  have h₁ : 12 ≤ o₁ := h.questions.le_of_mono fun _ _ _ hq => (readQuestion_bounds hq).1.le
  have h₄ : o₁ ≤ o₄ := h.records.le_of_mono fun _ _ _ hr => (readRecord_bounds hr).1.le
  have hb₁ : o₁ ≤ data.length :=
    h.questions.le_bound hlen fun _ _ _ hq => (readQuestion_bounds hq).2
  exact ⟨hlen, h₁, by omega, h.records.le_bound hb₁ fun _ _ _ hr => (readRecord_bounds hr).2⟩

theorem wellFormed_withId {m : DNSMessage} (h : m.WellFormed) {id : Nat} (hid : id < 65536) :
    ({ m with id := id } : DNSMessage).WellFormed :=
  { h with id := hid }

theorem length_wire (m : DNSMessage) : 12 ≤ m.wire.length := by
  rw [wire, List.length_append]
  exact Nat.le_add_right 12 _

/-- A message and its rewritten form agree up to the limit. -/
theorem samePrefix_wire {m : DNSMessage} (hm : m.WellFormed) (hascii : m.AsciiNames)
    (hsolid : ∀ n ∈ m.names, Solid n) (hun : Unmoved data m limit) {id : Nat} (hid : id < 65536) :
    SamePrefix data ({ m with id := id } : DNSMessage).wire limit ∧ limit ≤ data.length := by
  obtain ⟨flags, o₁, o₂, o₃, o₄, hp, hlimit, hflat⟩ := hun
  obtain ⟨haq, har⟩ := asciiNames_iff.mp hascii
  have hnames := hsolid
  simp only [DNSMessage.names, List.forall_mem_append, List.forall_mem_map] at hnames
  obtain ⟨hsq, hsr⟩ := hnames
  obtain ⟨hlen, h₁, h₄, hbound⟩ := hp.bounds
  have hheader := header_wire (wellFormed_withId hm hid)
  have hflags : ({ m with id := id } : DNSMessage).flags = flags := hp.flags_eq
  rw [hflags] at hheader
  have hwire := length_wire { m with id := id }
  have hd := drop_wire { m with id := id }
  have hstart : Aligned data ({ m with id := id } : DNSMessage).wire limit 12 12 :=
    .inl ⟨rfl, samePrefix_header hp.header hheader⟩
  have hquestions := Aligned.section hp.questions hstart (by omega) (by omega) (by omega) hd
    (fun _ _ _ h => (readQuestion_bounds h).1.le) fun offset ho hlt q hq next hread =>
      question_rewritten hread (hflat offset (List.mem_append_left _ ho) hlt) (haq q hq) (hsq q hq)
  have hd' := drop_add_length hd
  rw [← List.append_nil (List.flatMap DNSRecord.wire _)] at hd'
  have hrecords := Aligned.section hp.records hquestions (by omega) (by omega) (by omega) hd'
    (fun _ _ _ h => (readRecord_bounds h).1.le) fun offset ho hlt r hr next hread =>
      record_rewritten hread (hflat offset (List.mem_append_right _ ho) hlt) (har r hr) (hsr r hr)
  refine ⟨?_, by omega⟩
  rcases hrecords with ⟨-, hsame⟩ | ⟨-, hsame⟩
  · exact hsame.mono hlimit
  · exact hsame

/-- A relocatable message is rewritten faithfully. -/
theorem view_wire {m : DNSMessage} (hp : parse data = .ok m) (h : Relocatable data m) {id : Nat}
    (hid : id < 65536) : ∃ m', parse ({ m with id := id } : DNSMessage).wire = .ok m' ∧
      m'.id = id ∧ m'.view ({ m with id := id } : DNSMessage).wire = m.view data := by
  have hm := parse_wellFormed hp
  obtain ⟨limit, hun, hrdata⟩ := h.rdata
  obtain ⟨hsame, hlen⟩ := samePrefix_wire hm h.ascii h.solid hun hid
  have hsolid : ({ m with id := id } : DNSMessage).SolidNames := by
    intro n hn
    rw [undot_of_solid (h.solid n hn)]
    exact h.solid n hn
  have hnames := h.solid
  simp only [DNSMessage.names, List.forall_mem_append, List.forall_mem_map] at hnames
  obtain ⟨hsq, hsr⟩ := hnames
  have hquestions : m.questions.map DNSQuestion.undotted = m.questions := by
    refine (List.map_congr_left fun q hq => ?_).trans (List.map_id _)
    rw [DNSQuestion.undotted, undot_of_solid (hsq q hq)]
    rfl
  have hview : ∀ l : List DNSRecord, (∀ r ∈ l, r ∈ m.records) →
      (l.map DNSRecord.undotted).map (·.view ({ m with id := id } : DNSMessage).wire) =
        l.map (·.view data) := by
    intro l hl
    rw [List.map_map]
    refine List.map_congr_left fun r hr => ?_
    have hname : r.undotted = r := by
      rw [DNSRecord.undotted, undot_of_solid (hsr r (hl r hr))]
    rw [Function.comp_apply, hname, DNSRecord.view, DNSRecord.view,
      rdataMeaning_eq hsame hlen (hrdata r (hl r hr))]
  refine ⟨_, parse_wire (wellFormed_withId hm hid) h.ascii hsolid, rfl, ?_⟩
  simp only [DNSMessage.view, undotted, hquestions]
  rw [hview m.answers fun r hr => by simp [DNSMessage.records, hr],
    hview m.authorities fun r hr => by simp [DNSMessage.records, hr],
    hview m.additionals fun r hr => by simp [DNSMessage.records, hr]]

/-! ## What a faithful rewriting tells about the message -/

/-- A name that is read back as it was has no empty label, or it is the root, whose second
zero byte is left to what follows. -/
theorem solid_or_root {name : Text} (hd : DecodedName name) (hascii : Text.isAscii name = true)
    {offset stop : Nat} {rest : Bytes}
    (hdrop : data.drop offset = flatName (writtenLabels name) ++ rest)
    (hread : readName data offset = .ok (name, stop)) :
    Solid name ∨ (data.drop offset = 0 :: 0 :: rest ∧ stop = offset + 1) := by
  obtain ⟨_, -, hw⟩ := wireName_takeWhile (length_writtenLabels hd) hdrop
  obtain ⟨ps, ls, hw', hname⟩ := readName_eq_ok_iff.mp hread
  obtain ⟨-, rfl, rfl⟩ := hw.deterministic hw'
  by_cases hnil : name = []
  · right
    subst hnil
    have hzeros : flatName (writtenLabels []) = [0, 0] := by decide
    rw [hzeros] at hdrop
    have hzero : data.drop offset = 0 :: 0 :: rest := hdrop
    obtain ⟨-, -, rfl⟩ := hw.deterministic (.root hzero)
    exact ⟨hzero, rfl⟩
  · left
    -- the name is made of the pieces before the first empty one
    have hpieces : nameOf ((writtenLabels name).takeWhile (· ≠ [])) =
        Text.join '.' (((undot name).splitOn '.').takeWhile (· ≠ [])) := by
      have htake : (writtenLabels name).takeWhile (· ≠ []) =
          (((undot name).splitOn '.').takeWhile (· ≠ [])).map encodeLabel := by
        rw [writtenLabels, List.takeWhile_map]
        congr 1
        refine congrFun (congrArg _ (funext fun piece => ?_)) _
        simp [encodeLabel]
      rw [nameOf, htake, List.map_map]
      congr 1
      refine (List.map_congr_left fun piece hp => ?_).trans (List.map_id _)
      have hmem := List.takeWhile_subset _ hp
      have hsub : ∀ c ∈ piece, c ∈ name := fun c hc =>
        Text.mem_of_mem_stripBy (Text.mem_of_mem_splitOn hmem hc)
      exact decodeLabel_encodeLabel (isAscii_of_subset hascii hsub) fun c hc => hd.lower c (hsub c hc)
    have hjoin := hname.trans hpieces
    have hne : ((undot name).splitOn '.').takeWhile (· ≠ []) ≠ [] := by
      intro h
      rw [h] at hjoin
      exact hnil hjoin
    have hsplit : name.splitOn '.' = ((undot name).splitOn '.').takeWhile (· ≠ []) := by
      conv_lhs => rw [hjoin]
      exact Text.splitOn_join_of_notMem
        (fun t ht => Text.notMem_of_mem_splitOn (List.takeWhile_subset _ ht)) hne
    intro piece hp
    rw [hsplit] at hp
    simpa using List.mem_takeWhile_imp hp

/-- The type behind a root name that was written as two bytes is read shifted by one. -/
theorem type_of_root {offset t : Nat} {rest : Bytes}
    (hdrop : data.drop offset = 0 :: 0 :: (word16 t ++ rest))
    (hread : get16 data (offset + 1) = some t) : t = 0 := by
  have hnext : data.drop (offset + 1) = 0 :: (word16 t ++ rest) := by
    rw [← List.drop_drop, hdrop]
    rfl
  rw [get16, hnext] at hread
  have hhigh : t / 256 % 256 = t := by simpa [word16] using hread
  have hlt : t < 256 := hhigh ▸ Nat.mod_lt _ (by decide)
  rw [Nat.div_eq_of_lt hlt] at hhigh
  exact hhigh.symm

theorem question_solid {q : DNSQuestion} (hq : q.WellFormed) (hascii : Text.isAscii q.qname = true)
    (ht : q.qtype ≠ 0) {offset next : Nat} {rest : Bytes} (hd : data.drop offset = q.wire ++ rest)
    (hread : readQuestion data offset = .ok (q, next)) :
    Solid q.qname ∧ next = offset + q.wire.length := by
  obtain ⟨stop, hn, htype, -, -⟩ := readQuestion_eq_ok_iff.mp hread
  have hd' := hd
  simp only [DNSQuestion.wire, List.append_assoc] at hd'
  rcases solid_or_root hq.name hascii hd' hn with hsolid | ⟨hroot, rfl⟩
  · have hundot : Solid (undot q.qname) := by rwa [undot_of_solid hsolid]
    have hback := DNSQuestion.readsBack hq hascii hundot data offset rest hd
    rw [hread, Except.ok.injEq, Prod.mk.injEq] at hback
    exact ⟨hsolid, hback.2⟩
  · exact absurd (type_of_root hroot htype) ht

theorem record_solid {r r' : DNSRecord} (hr : r.WellFormed) (hascii : Text.isAscii r.name = true)
    (ht : r.rtype ≠ 0) {offset next : Nat} {rest : Bytes} (hd : data.drop offset = r.wire ++ rest)
    (hread : readRecord data offset = .ok (r', next)) (hname : r'.name = r.name)
    (htype : r'.rtype = r.rtype) : Solid r.name ∧ next = offset + r.wire.length := by
  obtain ⟨stop, _, hn, hrtype, -⟩ := readRecord_eq_ok_iff.mp hread
  rw [hname] at hn
  rw [htype] at hrtype
  have hd' := hd
  simp only [DNSRecord.wire, List.append_assoc] at hd'
  rcases solid_or_root hr.name hascii hd' hn with hsolid | ⟨hroot, rfl⟩
  · have hundot : Solid (undot r.name) := by rwa [undot_of_solid hsolid]
    have hback := DNSRecord.readsBack hr hascii hundot data offset rest hd
    rw [hread, Except.ok.injEq, Prod.mk.injEq] at hback
    exact ⟨hsolid, hback.2⟩
  · exact absurd (type_of_root hroot hrtype) ht

/-- If every item of a section that is read at its place says what was written, then all are. -/
theorem section_solid {α : Type} {read : Reader PyError α} {wire : α → Bytes} (name : α → Text)
    {same : α → α → Prop} {l l' : List α} {o p : Nat} {rest : Bytes} (hreads : ReadsTo read o l' p)
    (hsame : List.Forall₂ same l' l) (hd : data.drop o = l.flatMap wire ++ rest)
    (hstep : ∀ a ∈ l, ∀ a' offset next rest, same a' a → data.drop offset = wire a ++ rest →
      read offset = .ok (a', next) → Solid (name a) ∧ next = offset + (wire a).length) :
    (∀ a ∈ l, Solid (name a)) ∧ p = o + (l.flatMap wire).length := by
  induction hreads generalizing l with
  | nil =>
    cases hsame
    exact ⟨by simp, rfl⟩
  | cons ha _ ih =>
    cases hsame with
    | cons hs hsame =>
      rw [List.flatMap_cons, List.append_assoc] at hd
      obtain ⟨hsolid, rfl⟩ := hstep _ List.mem_cons_self _ _ _ _ hs hd ha
      obtain ⟨hrest, hp⟩ := ih hsame (drop_add_length hd) fun a hm =>
        hstep a (List.mem_cons_of_mem _ hm)
      refine ⟨List.forall_mem_cons.mpr ⟨hsolid, hrest⟩, ?_⟩
      rw [List.flatMap_cons, List.length_append, ← Nat.add_assoc]
      exact hp

/-- A message that is rewritten faithfully has no empty label, unless an item has type 0. -/
theorem solid_of_view_eq {m m' : DNSMessage} (hm : m.WellFormed) (hascii : m.AsciiNames)
    (hp : parse m.wire = .ok m') {message message' : Bytes}
    (hview : m'.view message' = m.view message) (hqtype : ∀ q ∈ m.questions, q.qtype ≠ 0)
    (hrtype : ∀ r ∈ m.records, r.rtype ≠ 0) : ∀ n ∈ m.names, Solid n := by
  obtain ⟨haq, har⟩ := asciiNames_iff.mp hascii
  obtain ⟨_, o₁, _, _, _, h⟩ := parse_eq_ok_iff.mp hp
  simp only [DNSMessage.view, MessageView.mk.injEq] at hview
  obtain ⟨-, -, -, -, -, -, -, -, hq, ha, hn, hx⟩ := hview
  have hrecords : m'.records.map (·.view message') = m.records.map (·.view message) := by
    simp only [DNSMessage.records, List.map_append, ha, hn, hx]
  have hsame : List.Forall₂ (fun r' r : DNSRecord => r'.name = r.name ∧ r'.rtype = r.rtype)
      m'.records m.records := by
    have hall : List.Forall₂ (· = ·) (m'.records.map (·.view message'))
        (m.records.map (·.view message)) := by
      rw [hrecords]
      exact List.forall₂_same.mpr fun _ _ => rfl
    refine (List.forall₂_map_left_iff.mp (List.forall₂_map_right_iff.mp hall)).imp fun r' r hr => ?_
    simp only [DNSRecord.view, RecordView.mk.injEq] at hr
    exact ⟨hr.1, hr.2.1⟩
  have hquestions := h.questions
  rw [hq] at hquestions
  obtain ⟨hqsolid, rfl⟩ := section_solid DNSQuestion.qname hquestions
    (List.forall₂_same.mpr fun _ _ => rfl) (drop_wire m)
    fun q hmem q' offset next rest heq hd hread => by
      subst heq
      exact question_solid (hm.questions _ hmem) (haq _ hmem) (hqtype _ hmem) hd hread
  have hd' := drop_add_length (drop_wire m)
  rw [← List.append_nil (List.flatMap DNSRecord.wire _)] at hd'
  obtain ⟨hrsolid, -⟩ := section_solid DNSRecord.name h.records hsame hd'
    fun r hmem r' offset next rest hs hd hread =>
      record_solid (hm.records r hmem) (har r hmem) (hrtype r hmem) hd hread hs.1 hs.2
  simp only [DNSMessage.names, List.forall_mem_append, List.forall_mem_map]
  exact ⟨hqsolid, hrsolid⟩

end FocusGuard

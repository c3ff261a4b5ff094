import FocusGuard.Dns.Relocation
import FocusGuard.Lib.Rounds
import FocusGuard.Network.Packets

/-!
# The parser ends

`_read_name` is a loop that may jump to and fro in the message, and that reads bytes and words by
index. Here it is the loop of the source, in rounds, with the reads that may fail. A round either
takes a pointer to a place it has not been to, or moves on in the message, so the rounds are bounded
by the number of places and the length of the message, and every read is behind its check.

## Main definitions

* `nameRound`: one round of the loop of `_read_name`.
* `parseWithin`: `DNSMessage.parse`, with so many rounds for each name.

## Main results

* `readNameWithin_eq`, `parseWithin_eq`: with enough rounds they do what `readName` and `parse` do.
* `parser_ends`: both end, with bytes that are there, or with a `ValueError`.
-/

namespace FocusGuard

open Bytes

/-- What is raised: by the parser itself, or by a read that leaves the message. -/
inductive MessageError where
  | raised (e : PyError)
  | read (e : ReadError)
  deriving DecidableEq

abbrev Parsing (α : Type) := Limited MessageError α

/-- `raise ValueError(message)`. -/
def raiseValueError {α : Type} (message : Text) : Parsing α :=
  throw (.raised (.valueError message))

/-- A read in the message. -/
def reading {α : Type} (m : Except ReadError α) : Parsing α := Limited.lift .read m

/-- `struct.unpack("!I", data[i:i + 4])[0]`. -/
def unpack32 (data : Bytes) (i : Nat) : Except ReadError Nat :=
  match get32 data i with
  | some n => .ok n
  | none => .error .structError

/-! ## Names -/

/-- The variables of `_read_name`; `original_offset` is `none` for -1. -/
structure NameLoop where
  labels : List Text := []
  visitedPointers : Finset (Fin 16384) := ∅
  current : Nat
  originalOffset : Option Nat := none

/-- `word & 0x3FFF`. -/
def pointerTarget (word : Nat) : Fin 16384 :=
  ⟨word &&& 0x3FFF, Nat.and_lt_two_pow word (by decide : 0x3FFF < 2 ^ 14)⟩

def nameRound (data : Bytes) (s : NameLoop) : Parsing (Round NameLoop (Text × Nat)) :=
  if data.length ≤ s.current then
    raiseValueError "Premature end of DNS packet reading name"
  else do
    let length ← reading (byteAt data s.current)
    if length.toNat &&& 0xC0 = 0xC0 then
      if data.length < s.current + 2 then
        raiseValueError "Premature end of DNS packet in pointer"
      else do
        let word ← reading (unpack16 data s.current)
        let pointer := pointerTarget word
        if pointer ∈ s.visitedPointers then
          raiseValueError "DNS compression loop detected"
        else
          pure (.again { s with
            visitedPointers := insert pointer s.visitedPointers
            originalOffset := s.originalOffset.or (some (s.current + 2))
            current := pointer })
    else
      let current := s.current + 1
      if length.toNat = 0 then
        pure (.stop (Text.join '.' s.labels, s.originalOffset.getD current))
      else if data.length < current + length.toNat then
        raiseValueError "DNS label length exceeds packet size"
      else
        let label := decodeLabel (slice data current (current + length.toNat))
        pure (.again { s with
          labels := s.labels ++ [label]
          current := current + length.toNat })

def readNameWithin (rounds : Nat) (data : Bytes) (offset : Nat) : Parsing (Text × Nat) :=
  Limited.loop (nameRound data) rounds { current := offset }

/-! ## Messages -/

/-- The body of the loop over the questions. -/
def readQuestionWithin (rounds : Nat) (data : Bytes) (offset : Nat) :
    Parsing (DNSQuestion × Nat) := do
  let (qname, offset) ← readNameWithin rounds data offset
  if data.length < offset + 4 then raiseValueError "Malformed question section"
  else do
    let qtype ← reading (unpack16 data offset)
    let qclass ← reading (unpack16 data (offset + 2))
    pure (⟨qname, qtype, qclass⟩, offset + 4)

/-- `_read_record`. -/
def readRecordWithin (rounds : Nat) (data : Bytes) (offset : Nat) :
    Parsing (DNSRecord × Nat) := do
  let (name, offset) ← readNameWithin rounds data offset
  if data.length < offset + 10 then raiseValueError "Malformed record header"
  else do
    let rtype ← reading (unpack16 data offset)
    let rclass ← reading (unpack16 data (offset + 2))
    let ttl ← reading (unpack32 data (offset + 4))
    let rdlength ← reading (unpack16 data (offset + 8))
    let offset := offset + 10
    if data.length < offset + rdlength then
      raiseValueError "Record data length exceeds packet size"
    else
      let rdata := slice data offset (offset + rdlength)
      pure (⟨name, rtype, rclass, ttl, rdata⟩, offset + rdlength)

def parseWithin (rounds : Nat) (data : Bytes) : Parsing DNSMessage :=
  if data.length < 12 then raiseValueError (DNSMessage.tooShort data)
  else do
    let msgId ← reading (unpack16 data 0)
    let flags ← reading (unpack16 data 2)
    let qdcount ← reading (unpack16 data 4)
    let ancount ← reading (unpack16 data 6)
    let nscount ← reading (unpack16 data 8)
    let arcount ← reading (unpack16 data 10)
    let (questions, offset) ← Limited.readMany (readQuestionWithin rounds data) qdcount 12
    let (answers, offset) ← Limited.readMany (readRecordWithin rounds data) ancount offset
    let (authorities, offset) ← Limited.readMany (readRecordWithin rounds data) nscount offset
    let (additionals, _) ← Limited.readMany (readRecordWithin rounds data) arcount offset
    pure {
      id := msgId
      qr := (flags >>> 15) &&& 0x1
      opcode := (flags >>> 11) &&& 0xF
      aa := (flags >>> 10) &&& 0x1
      tc := (flags >>> 9) &&& 0x1
      rd := (flags >>> 8) &&& 0x1
      ra := (flags >>> 7) &&& 0x1
      z := (flags >>> 4) &&& 0x7
      rcode := flags &&& 0xF
      questions, answers, authorities, additionals }

/-! ## Reads behind their checks -/

variable {data : Bytes} {i n rounds offset : Nat} {b : UInt8} {rest : Bytes}

/-- What the readers of `DNSMessage` raise, the parser raises itself. -/
def raised {α : Type} (m : Except PyError α) : Parsing α := Limited.lift .raised m

theorem reading_byteAt (h : data.drop i = b :: rest) : reading (byteAt data i) = pure b := by
  have hb : data[i]? = some b := by rw [← List.head?_drop, h, List.head?_cons]
  rw [byteAt, hb]
  rfl

theorem reading_unpack16 (h : get16 data i = some n) : reading (unpack16 data i) = pure n := by
  rw [unpack16, h]
  rfl

theorem reading_unpack16_of_le (data : Bytes) (i : Nat) (h : i + 2 ≤ data.length) :
    ∃ n, get16 data i = some n ∧ reading (unpack16 data i) = pure n := by
  obtain ⟨n, hn, hread⟩ := unpack16_of_le data i h
  exact ⟨n, hn, congrArg reading hread⟩

theorem reading_unpack32_of_le (data : Bytes) (i : Nat) (h : i + 4 ≤ data.length) :
    ∃ n, get32 data i = some n ∧ reading (unpack32 data i) = pure n := by
  obtain ⟨n, hn⟩ := get32_isSome h
  exact ⟨n, hn, by rw [unpack32, hn]; rfl⟩

theorem and_flag_iff (b : UInt8) : b.toNat &&& 0xC0 = 0xC0 ↔ 192 ≤ b.toNat := by
  have hall : ∀ n < 256, (n &&& 0xC0 = 0xC0 ↔ 192 ≤ n) := by decide +kernel
  exact hall b.toNat (toNat_lt b)

theorem pointerTarget_eq (length low : UInt8) :
    pointerTarget (length.toNat * 256 + low.toNat) = pointerOf length low :=
  Fin.ext (Nat.and_two_pow_sub_one_eq_mod _ 14)

/-! ## Rounds of a name -/

/-- What the rounds from a state on make of the name. -/
def NameLoop.result (data : Bytes) (s : NameLoop) : Parsing (Text × Nat) :=
  match readLabels data s.visitedPointers s.current with
  | .ok (labels, stop) => pure
    (Text.join '.' (s.labels ++ labels.map decodeLabel), s.originalOffset.getD stop)
  | .error e => throw (.raised e)

/-- The places it has not been to, and the bytes that are left. -/
def NameLoop.left (data : Bytes) (s : NameLoop) : Nat :=
  s.visitedPointersᶜ.card * (data.length + 1) + (data.length - s.current)

theorem readLabels_of_drop_nil {visited : Finset (Fin 16384)} (h : data.drop i = []) :
    readLabels data visited i =
      .error (.valueError "Premature end of DNS packet reading name") := by
  rw [readLabels]
  split
  · rfl
  · next hcons =>
    rw [h] at hcons
    cases hcons

theorem readLabels_of_drop_cons (visited : Finset (Fin 16384)) (h : data.drop i = b :: rest) :
    readLabels data visited i =
      if 192 ≤ b.toNat then
        match rest.head? with
        | none => .error (.valueError "Premature end of DNS packet in pointer")
        | some low =>
          if pointerOf b low ∈ visited then
            .error (.valueError "DNS compression loop detected")
          else (readLabels data (insert (pointerOf b low) visited) (pointerOf b low)).map
            fun x => (x.1, i + 2)
      else if b.toNat = 0 then .ok ([], i + 1)
      else if rest.length < b.toNat then
        .error (.valueError "DNS label length exceeds packet size")
      else (readLabels data visited (i + 1 + b.toNat)).map
        fun x => (rest.take b.toNat :: x.1, x.2) := by
  rw [readLabels]
  split
  · next hnil =>
    rw [h] at hnil
    cases hnil
  · next hcons =>
    rw [h] at hcons
    cases hcons
    split
    · cases rest.head? with
      | none => rfl
      | some low =>
        dsimp only
        split
        · rfl
        · split <;> next heq => rw [heq]; rfl
    · split
      · rfl
      · split
        · rfl
        · split <;> next heq => rw [heq]; rfl

theorem length_of_drop_cons (h : data.drop i = b :: rest) : data.length = i + 1 + rest.length := by
  have hlen := congrArg List.length h
  rw [List.length_drop, List.length_cons] at hlen
  omega

theorem nameRound_of_drop_cons {s : NameLoop} (h : data.drop s.current = b :: rest) :
    nameRound data s =
      if 192 ≤ b.toNat then
        match rest.head? with
        | none => raiseValueError "Premature end of DNS packet in pointer"
        | some low =>
          if pointerOf b low ∈ s.visitedPointers then
            raiseValueError "DNS compression loop detected"
          else pure (.again { s with
            visitedPointers := insert (pointerOf b low) s.visitedPointers
            originalOffset := s.originalOffset.or (some (s.current + 2))
            current := pointerOf b low })
      else if b.toNat = 0 then
        pure (.stop (Text.join '.' s.labels, s.originalOffset.getD (s.current + 1)))
      else if rest.length < b.toNat then raiseValueError "DNS label length exceeds packet size"
      else pure (.again { s with
        labels := s.labels ++ [decodeLabel (rest.take b.toNat)]
        current := s.current + 1 + b.toNat }) := by
  have hlen := length_of_drop_cons h
  have hbehind : data.drop (s.current + 1) = rest := by
    rw [← List.drop_drop, h, List.drop_one, List.tail_cons]
  have hslice : slice data (s.current + 1) (s.current + 1 + b.toNat) = rest.take b.toNat := by
    rw [slice, hbehind, Nat.add_sub_cancel_left]
  rw [nameRound, if_neg (by omega), reading_byteAt h, pure_bind]
  simp only [and_flag_iff]
  split
  · cases rest with
    | nil => exact if_pos (by rw [List.length_nil] at hlen; omega)
    | cons low rest =>
      have hword : get16 data s.current = some (b.toNat * 256 + low.toNat) := by
        rw [get16, h]
      rw [List.length_cons] at hlen
      rw [if_neg (by omega), reading_unpack16 hword, pure_bind, pointerTarget_eq]
      rfl
  · split
    · rfl
    · rw [hslice]
      have hfits : data.length < s.current + 1 + b.toNat ↔ rest.length < b.toNat := by omega
      simp only [hfits]

/-- The reader of the rest, with what the loop has read before. -/
theorem NameLoop.result_again {s s' : NameLoop} {g : List Bytes × Nat → List Bytes × Nat}
    (hs : readLabels data s.visitedPointers s.current =
      (readLabels data s'.visitedPointers s'.current).map g)
    (hg : ∀ x, (Text.join '.' (s.labels ++ (g x).1.map decodeLabel),
        s.originalOffset.getD (g x).2) =
      (Text.join '.' (s'.labels ++ x.1.map decodeLabel), s'.originalOffset.getD x.2)) :
    s.result data = s'.result data := by
  rw [result, result, hs]
  cases readLabels data s'.visitedPointers s'.current with
  | ok x => exact congrArg pure (hg x)
  | error e => rfl

/-- A pointer to a new place leaves one place less, whatever is left of the message. -/
theorem NameLoop.left_pointer {visited : Finset (Fin 16384)} {p : Fin 16384} (hp : p ∉ visited)
    (m k k' : Nat) : (insert p visited)ᶜ.card * (m + 1) + (m - k') <
      visitedᶜ.card * (m + 1) + (m - k) := by
  have hcard : visitedᶜ.card = (insert p visited)ᶜ.card + 1 := by
    rw [Finset.compl_insert, Finset.card_erase_add_one (Finset.mem_compl.mpr hp)]
  rw [hcard, Nat.succ_mul]
  omega

theorem NameLoop.computes_error {s : NameLoop} {message : Text}
    (hround : nameRound data s = raiseValueError message)
    (hread : readLabels data s.visitedPointers s.current = .error (.valueError message)) :
    Limited.Computes (nameRound data) (NameLoop.result data) (NameLoop.left data) s :=
  .throw _ hround (by rw [result, hread])

/-- Every round goes on with fewer places or bytes left, or ends the loop, and the name stays the
one that `readLabels` reads. -/
theorem nameRound_computes (data : Bytes) (s : NameLoop) :
    Limited.Computes (nameRound data) (NameLoop.result data) (NameLoop.left data) s := by
  cases hd : data.drop s.current with
  | nil =>
    exact NameLoop.computes_error (if_pos (List.drop_eq_nil_iff.mp hd)) (readLabels_of_drop_nil hd)
  | cons length rest =>
    have hlen := length_of_drop_cons hd
    have hround := nameRound_of_drop_cons hd
    have hread := readLabels_of_drop_cons s.visitedPointers hd
    split at hread
    · next hflag =>
      rw [if_pos hflag] at hround
      cases hlow : rest.head? with
      | none =>
        rw [hlow] at hround hread
        exact NameLoop.computes_error hround hread
      | some low =>
        rw [hlow] at hround hread
        dsimp only at hround hread
        split at hread
        · next hvisited =>
          rw [if_pos hvisited] at hround
          exact NameLoop.computes_error hround hread
        · next hnew =>
          rw [if_neg hnew] at hround
          refine .again _ hround ?_ (NameLoop.result_again hread fun x => ?_)
          · exact NameLoop.left_pointer hnew _ _ _
          · cases s.originalOffset <;> rfl
    · next hflag =>
      rw [if_neg hflag] at hround
      split at hread
      · next hzero =>
        rw [if_pos hzero] at hround
        refine .stop _ hround ?_
        rw [NameLoop.result, hread]
        simp
      · next hzero =>
        rw [if_neg hzero] at hround
        split at hread
        · next hlong =>
          rw [if_pos hlong] at hround
          exact NameLoop.computes_error hround hread
        · next hfits =>
          rw [if_neg hfits] at hround
          refine .again _ hround ?_ (NameLoop.result_again hread fun x => ?_)
          · have hless : data.length - (s.current + 1 + length.toNat) <
                data.length - s.current := by omega
            exact Nat.add_lt_add_left hless _
          · simp

/-- As many rounds as a name may take. -/
def enoughRounds (data : Bytes) : Nat := 16385 * (data.length + 1)

theorem readNameWithin_eq (h : enoughRounds data ≤ rounds) (offset : Nat) :
    readNameWithin rounds data offset = raised (readName data offset) := by
  have hcard : (∅ : Finset (Fin 16384))ᶜ.card = 16384 := by
    rw [Finset.compl_empty, Finset.card_univ, Fintype.card_fin]
  have hleft : NameLoop.left data { current := offset } < rounds := by
    rw [NameLoop.left, hcard]
    unfold enoughRounds at h
    omega
  rw [readNameWithin, Limited.loop_eq (nameRound_computes data) hleft, NameLoop.result, readName]
  cases readLabels data ∅ offset with
  | ok x => simp [raised]
  | error e => rfl

/-- A name that points to itself. -/
example : readNameWithin 2 [0xC0, 0x00] 0 =
    raiseValueError "DNS compression loop detected" := rfl

/-! ## Messages in rounds -/

theorem readQuestionWithin_eq (h : enoughRounds data ≤ rounds) (offset : Nat) :
    readQuestionWithin rounds data offset = raised (readQuestion data offset) := by
  rw [readQuestionWithin, readQuestion, readNameWithin_eq h]
  refine Limited.lift_bind ?_
  rintro ⟨qname, stop⟩
  dsimp only
  split
  · next hshort =>
    split
    · next hqclass =>
      have hend := le_length_of_get16 hqclass
      omega
    · rfl
  · next hlong =>
    obtain ⟨qtype, hqtype, hread⟩ := reading_unpack16_of_le data stop (by omega)
    obtain ⟨qclass, hqclass, hread'⟩ := reading_unpack16_of_le data (stop + 2) (by omega)
    rw [hread, hread', hqtype, hqclass]
    rfl

theorem readRecordWithin_eq (h : enoughRounds data ≤ rounds) (offset : Nat) :
    readRecordWithin rounds data offset = raised (readRecord data offset) := by
  rw [readRecordWithin, readRecord, readNameWithin_eq h]
  refine Limited.lift_bind ?_
  rintro ⟨name, stop⟩
  dsimp only
  split
  · next hshort =>
    split
    · next hrdlength =>
      have hend := le_length_of_get16 hrdlength
      omega
    · rfl
  · next hlong =>
    obtain ⟨rtype, hrtype, hread₁⟩ := reading_unpack16_of_le data stop (by omega)
    obtain ⟨rclass, hrclass, hread₂⟩ := reading_unpack16_of_le data (stop + 2) (by omega)
    obtain ⟨ttl, httl, hread₃⟩ := reading_unpack32_of_le data (stop + 4) (by omega)
    obtain ⟨rdlength, hrdlength, hread₄⟩ := reading_unpack16_of_le data (stop + 8) (by omega)
    rw [hread₁, hread₂, hread₃, hread₄, hrtype, hrclass, httl, hrdlength]
    simp only [pure_bind, slice, Nat.add_sub_cancel_left]
    split <;> rfl

theorem header_eq_none (h : data.length < 12) : DNSMessage.header data = none := by
  cases hheader : DNSMessage.header data with
  | none => rfl
  | some words =>
    have hend := le_length_of_get16 (DNSMessage.header_eq_some_iff.mp hheader).2.2.2.2.2
    omega

theorem parseWithin_eq (h : enoughRounds data ≤ rounds) :
    parseWithin rounds data = raised (DNSMessage.parse data) := by
  have hquestions := Limited.readMany_lift (readQuestionWithin_eq h)
  have hrecords := Limited.readMany_lift (readRecordWithin_eq h)
  rw [parseWithin, DNSMessage.parse]
  split
  · next hshort =>
    rw [header_eq_none hshort]
    rfl
  · next hlong =>
    obtain ⟨msgId, hmsgId, hread₁⟩ := reading_unpack16_of_le data 0 (by omega)
    obtain ⟨flags, hflags, hread₂⟩ := reading_unpack16_of_le data 2 (by omega)
    obtain ⟨qdcount, hqdcount, hread₃⟩ := reading_unpack16_of_le data 4 (by omega)
    obtain ⟨ancount, hancount, hread₄⟩ := reading_unpack16_of_le data 6 (by omega)
    obtain ⟨nscount, hnscount, hread₅⟩ := reading_unpack16_of_le data 8 (by omega)
    obtain ⟨arcount, harcount, hread₆⟩ := reading_unpack16_of_le data 10 (by omega)
    rw [hread₁, hread₂, hread₃, hread₄, hread₅, hread₆, DNSMessage.header_eq_some_iff.mpr
      ⟨hmsgId, hflags, hqdcount, hancount, hnscount, harcount⟩]
    simp only [pure_bind, hquestions, hrecords]
    refine Limited.lift_bind ?_
    rintro ⟨questions, o₁⟩
    refine Limited.lift_bind ?_
    rintro ⟨answers, o₂⟩
    refine Limited.lift_bind ?_
    rintro ⟨authorities, o₃⟩
    refine Limited.lift_bind ?_
    rintro ⟨additionals, o₄⟩
    rfl

/-! ## What is raised -/

def IsValueError (e : PyError) : Prop := ∃ message, e = .valueError message

theorem readName_raisesOnly (data : Bytes) (offset : Nat) :
    (readName data offset).RaisesOnly IsValueError := by
  have hlabels : ∀ (visited : Finset (Fin 16384)) (current : Nat),
      (readLabels data visited current).RaisesOnly IsValueError := by
    intro visited current
    fun_induction readLabels data visited current with
    | case1 => exact .error ⟨_, rfl⟩
    | case2 => exact .error ⟨_, rfl⟩
    | case3 => exact .error ⟨_, rfl⟩
    | case4 => exact .ok
    | case5 visited current length rest hd hflag low hlow hnew e hrec ih => exact .error (ih e hrec)
    | case6 => exact .ok
    | case7 => exact .error ⟨_, rfl⟩
    | case8 => exact .ok
    | case9 visited current length rest hd hflag hzero hfits e hrec ih => exact .error (ih e hrec)
  unfold readName
  split
  · exact .ok
  · next e hrec => exact .error (hlabels _ _ e hrec)

theorem readQuestion_raisesOnly (data : Bytes) (offset : Nat) :
    (readQuestion data offset).RaisesOnly IsValueError := by
  refine .bind (readName_raisesOnly data offset) ?_
  rintro ⟨qname, stop⟩
  dsimp only
  split
  · exact .ok
  · exact .error ⟨_, rfl⟩

theorem readRecord_raisesOnly (data : Bytes) (offset : Nat) :
    (readRecord data offset).RaisesOnly IsValueError := by
  refine .bind (readName_raisesOnly data offset) ?_
  rintro ⟨name, stop⟩
  dsimp only
  split
  · exact .ite (.error ⟨_, rfl⟩) .ok
  · exact .error ⟨_, rfl⟩

theorem parse_raisesOnly (data : Bytes) : (DNSMessage.parse data).RaisesOnly IsValueError := by
  have hquestions := Reader.raisesOnly_readMany (readQuestion_raisesOnly data)
  have hrecords := Reader.raisesOnly_readMany (readRecord_raisesOnly data)
  unfold DNSMessage.parse
  split
  · exact .error ⟨_, rfl⟩
  · refine .bind (hquestions _ _) fun (questions, o₁) => ?_
    refine .bind (hrecords _ _) fun (answers, o₂) => ?_
    refine .bind (hrecords _ _) fun (authorities, o₃) => ?_
    exact .bind (hrecords _ _) fun _ => .ok

/-! ## Ending -/

/-- From so many rounds on the outcome is one and the same: a value with the property, or a
`ValueError`. -/
def EndsWithin {α : Type} (bound : Nat) (P : α → Prop) (run : Nat → Parsing α) : Prop :=
  (∃ a, P a ∧ ∀ rounds, bound ≤ rounds → run rounds = pure a) ∨
    ∃ message, ∀ rounds, bound ≤ rounds → run rounds = raiseValueError message

theorem endsWithin_of_raised {α : Type} {bound : Nat} {P : α → Prop} {run : Nat → Parsing α}
    {m : Except PyError α} (hrun : ∀ rounds, bound ≤ rounds → run rounds = raised m)
    (hvalue : m.Ensures P) (herror : m.RaisesOnly IsValueError) : EndsWithin bound P run := by
  cases m with
  | ok a => exact .inl ⟨a, hvalue a rfl, hrun⟩
  | error e =>
    obtain ⟨message, rfl⟩ := herror e rfl
    exact .inr ⟨message, hrun⟩

/-- Reading a name ends: it returns a name and the offset behind it, which is further on in the
message, or it raises a `ValueError`. So the parser ends, whatever the counts of the sections say,
and raises nothing but a `ValueError`. -/
theorem parser_ends (data : Bytes) :
    (∀ offset, EndsWithin (enoughRounds data)
      (fun (x : Text × Nat) => offset < x.2 ∧ x.2 ≤ data.length)
      fun rounds => readNameWithin rounds data offset) ∧
    EndsWithin (enoughRounds data) (fun _ => True) fun rounds => parseWithin rounds data := by
  constructor
  · intro offset
    refine endsWithin_of_raised (fun rounds h => readNameWithin_eq h offset) ?_
      (readName_raisesOnly data offset)
    rintro ⟨name, stop⟩ hname
    obtain ⟨pointers, labels, hwire, -⟩ := readName_eq_ok_iff.mp hname
    exact hwire.offset_lt_stop
  · exact endsWithin_of_raised (fun rounds h => parseWithin_eq h) (fun _ _ => trivial)
      (parse_raisesOnly data)

end FocusGuard

import FocusGuard.Dns.Matching
import FocusGuard.Lib.Reader
import Mathlib.Data.Finset.Card
import Mathlib.Data.Fintype.Card

/-!
# DNS messages on the wire

`focusguard/dns/protocol.py`: a tolerant parser that follows compression pointers and lossily
decodes labels, and a strict serializer that writes every name out in full.

## Main definitions

* `readLabels`, `readName`: `_read_name`.
* `DNSMessage.parse`, `DNSMessage.toBytes`.
* `DNSMessage.createSinkholeResponse`.
-/

namespace FocusGuard

open Bytes Reader

def typeA : Nat := 1
def typeNs : Nat := 2
def typeCname : Nat := 5
def typeSoa : Nat := 6
def typePtr : Nat := 12
def typeMx : Nat := 15
def typeAaaa : Nat := 28

def classIn : Nat := 1

def rcodeNoerror : Nat := 0
def rcodeFormerr : Nat := 1
def rcodeServfail : Nat := 2

structure DNSQuestion where
  qname : Text
  qtype : Nat
  qclass : Nat := classIn
  deriving DecidableEq

structure DNSRecord where
  name : Text
  rtype : Nat
  rclass : Nat := classIn
  ttl : Nat := 300
  rdata : Bytes := []
  deriving DecidableEq

structure DNSMessage where
  id : Nat := 0
  qr : Nat := 0
  opcode : Nat := 0
  aa : Nat := 0
  tc : Nat := 0
  rd : Nat := 1
  ra : Nat := 0
  z : Nat := 0
  rcode : Nat := 0
  questions : List DNSQuestion := []
  answers : List DNSRecord := []
  authorities : List DNSRecord := []
  additionals : List DNSRecord := []
  deriving DecidableEq

/-! ## Parsing -/

/-- One byte of a label under `decode("ascii", errors="replace").lower()`. -/
def decodeByte (b : UInt8) : Char :=
  if b.toNat < 128 then (Char.ofNat b.toNat).toLower else Text.replacement

def decodeLabel (label : Bytes) : Text := label.map decodeByte

/-- `struct.unpack("!H", data[current:current + 2])[0] & 0x3FFF`. -/
def pointerOf (length low : UInt8) : Fin 16384 := Fin.ofNat 16384 (length.toNat * 256 + low.toNat)

/-- The loop of `_read_name` from `current` on: the labels, still undecoded, and the offset
after the name. A pointer sets that offset and whatever the rest of the name says about it
is dropped, as `original_offset` is only set once. -/
def readLabels (data : Bytes) (visited : Finset (Fin 16384)) (current : Nat) :
    Except PyError (List Bytes × Nat) :=
  match _hd : data.drop current with
  | [] => .error (.valueError "Premature end of DNS packet reading name")
  | length :: rest =>
    if 192 ≤ length.toNat then
      match rest.head? with
      | none => .error (.valueError "Premature end of DNS packet in pointer")
      | some low =>
        if _hv : pointerOf length low ∈ visited then
          .error (.valueError "DNS compression loop detected")
        else
          match readLabels data (insert (pointerOf length low) visited)
              (pointerOf length low).val with
          | .ok (labels, _) => .ok (labels, current + 2)
          | .error e => .error e
    else if length.toNat = 0 then .ok ([], current + 1)
    else if rest.length < length.toNat then
      .error (.valueError "DNS label length exceeds packet size")
    else
      match readLabels data visited (current + 1 + length.toNat) with
      | .ok (labels, stop) => .ok (rest.take length.toNat :: labels, stop)
      | .error e => .error e
termination_by (visitedᶜ.card, data.length - current)
decreasing_by
  · apply Prod.Lex.left
    apply Finset.card_lt_card
    rw [Finset.compl_ssubset_compl]
    exact Finset.ssubset_insert _hv
  · apply Prod.Lex.right
    have hl := congrArg List.length _hd
    rw [List.length_drop, List.length_cons] at hl
    omega

/-- `_read_name`. -/
def readName (data : Bytes) (offset : Nat) : Except PyError (Text × Nat) :=
  match readLabels data ∅ offset with
  | .ok (labels, stop) => .ok (Text.join '.' (labels.map decodeLabel), stop)
  | .error e => .error e

def readQuestion (data : Bytes) : Reader PyError DNSQuestion := fun offset => do
  let (qname, offset) ← readName data offset
  match get16 data offset, get16 data (offset + 2) with
  | some qtype, some qclass => .ok (⟨qname, qtype, qclass⟩, offset + 4)
  | _, _ => .error (.valueError "Malformed question section")

/-- `_read_record`. -/
def readRecord (data : Bytes) : Reader PyError DNSRecord := fun offset => do
  let (name, offset) ← readName data offset
  match get16 data offset, get16 data (offset + 2), get32 data (offset + 4),
      get16 data (offset + 8) with
  | some rtype, some rclass, some ttl, some rdlength =>
    if data.length < offset + 10 + rdlength then
      .error (.valueError "Record data length exceeds packet size")
    else
      let rdata := (data.drop (offset + 10)).take rdlength
      .ok (⟨name, rtype, rclass, ttl, rdata⟩, offset + 10 + rdlength)
  | _, _, _, _ => .error (.valueError "Malformed record header")

namespace DNSMessage

/-- `data[:12]` as six words. -/
def header (data : Bytes) : Option (Nat × Nat × Nat × Nat × Nat × Nat) := do
  let msgId ← get16 data 0
  let flags ← get16 data 2
  let qdcount ← get16 data 4
  let ancount ← get16 data 6
  let nscount ← get16 data 8
  let arcount ← get16 data 10
  some (msgId, flags, qdcount, ancount, nscount, arcount)

def tooShort (data : Bytes) : Text :=
  "DNS packet too short (".toList ++ (toString data.length).toList ++ " bytes, min 12)".toList

def parse (data : Bytes) : Except PyError DNSMessage :=
  match header data with
  | none => .error (.valueError (tooShort data))
  | some (msgId, flags, qdcount, ancount, nscount, arcount) => do
    let (questions, offset) ← readMany (readQuestion data) qdcount 12
    let (answers, offset) ← readMany (readRecord data) ancount offset
    let (authorities, offset) ← readMany (readRecord data) nscount offset
    let (additionals, _) ← readMany (readRecord data) arcount offset
    .ok {
      id := msgId
      qr := (flags >>> 15) &&& 0x1
      opcode := (flags >>> 11) &&& 0xF
      aa := (flags >>> 10) &&& 0x1
      tc := (flags >>> 9) &&& 0x1
      rd := (flags >>> 8) &&& 0x1
      ra := (flags >>> 7) &&& 0x1
      z := (flags >>> 4) &&& 0x7
      rcode := flags &&& 0xF
      questions, answers, authorities, additionals }

end DNSMessage

/-! ## Serializing -/

/-- `struct.pack("!H", n)`. -/
def pack16 (n : Nat) : Except PyError Bytes :=
  if n < 65536 then .ok (word16 n) else .error .structError

/-- `struct.pack("!I", n)`. -/
def pack32 (n : Nat) : Except PyError Bytes :=
  if n < 4294967296 then .ok (word32 n) else .error .structError

/-- `label.encode("ascii")` behind its length, which has to fit a byte. -/
def writeLabel (label : Text) : Except PyError Bytes :=
  if Text.isAscii label then
    if label.length < 256 then .ok (byte label.length :: label.map fun c => byte c.toNat)
    else .error (.valueError "byte must be in range(0, 256)")
  else .error .unicodeError

/-- Apply a fallible writer to every member and join the pieces. -/
def writeAll {α : Type} (write : α → Except PyError Bytes) : List α → Except PyError Bytes
  | [] => .ok []
  | a :: l => do
    let piece ← write a
    let rest ← writeAll write l
    .ok (piece ++ rest)

/-- `name.strip(".")`. -/
def undot (name : Text) : Text := Text.stripBy (· = '.') name

/-- The labels of `name.strip(".").split(".")`, each behind its length, and a zero byte. -/
def writeName (name : Text) : Except PyError Bytes := do
  let labels ← writeAll writeLabel ((undot name).splitOn '.')
  .ok (labels ++ [0])

def DNSQuestion.toBytes (q : DNSQuestion) : Except PyError Bytes := do
  let name ← writeName q.qname
  let qtype ← pack16 q.qtype
  let qclass ← pack16 q.qclass
  .ok (name ++ qtype ++ qclass)

def DNSRecord.toBytes (r : DNSRecord) : Except PyError Bytes := do
  let name ← writeName r.name
  let rtype ← pack16 r.rtype
  let rclass ← pack16 r.rclass
  let ttl ← pack32 r.ttl
  let rdlength ← pack16 r.rdata.length
  .ok (name ++ rtype ++ rclass ++ ttl ++ rdlength ++ r.rdata)

namespace DNSMessage

def flags (m : DNSMessage) : Nat :=
  ((m.qr &&& 1) <<< 15) ||| ((m.opcode &&& 0xF) <<< 11) ||| ((m.aa &&& 1) <<< 10)
    ||| ((m.tc &&& 1) <<< 9) ||| ((m.rd &&& 1) <<< 8) ||| ((m.ra &&& 1) <<< 7)
    ||| ((m.z &&& 7) <<< 4) ||| (m.rcode &&& 0xF)

def toBytes (m : DNSMessage) : Except PyError Bytes := do
  let header ← writeAll pack16 [m.id, m.flags, m.questions.length, m.answers.length,
    m.authorities.length, m.additionals.length]
  let questions ← writeAll DNSQuestion.toBytes m.questions
  let answers ← writeAll DNSRecord.toBytes m.answers
  let authorities ← writeAll DNSRecord.toBytes m.authorities
  let additionals ← writeAll DNSRecord.toBytes m.additionals
  .ok (header ++ questions ++ answers ++ authorities ++ additionals)

/-- The answers of a sinkhole: the null address for A and AAAA, nothing for other types. -/
def sinkholeAnswers (q : DNSQuestion) : List DNSRecord :=
  if q.qtype = typeA then
    [{ name := q.qname, rtype := typeA, ttl := 300, rdata := List.replicate 4 0 }]
  else if q.qtype = typeAaaa then
    [{ name := q.qname, rtype := typeAaaa, ttl := 300, rdata := List.replicate 16 0 }]
  else []

/-- `create_sinkhole_response("0.0.0.0", "::")`, the addresses `handle_query` passes. -/
def createSinkholeResponse (m : DNSMessage) : DNSMessage where
  id := m.id
  qr := 1
  opcode := m.opcode
  aa := 1
  tc := 0
  rd := m.rd
  ra := 1
  rcode := rcodeNoerror
  questions := m.questions
  answers := match m.questions with
    | [] => []
    | q :: _ => sinkholeAnswers q

end DNSMessage

end FocusGuard

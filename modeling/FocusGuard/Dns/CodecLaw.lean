import FocusGuard.Dns.RoundTrip

/-!
# Messages that are read back as they were written

The serializer strips dots at the ends of a name and the parser lower-cases, so what comes back
of a message in general is its `undotted` form. Where every name is made of lower-case ASCII
labels, the undotted form is the message itself.

## Main results

* `parse_toBytes`: such a message is written, and parsing gives it back.
-/

namespace FocusGuard

open Bytes

/-! ## Names made of labels -/

/-- 1 to 63 lower-case ASCII characters other than the dot. -/
structure LowerLabel (label : Text) : Prop where
  pos : 1 ≤ label.length
  short : label.length ≤ 63
  ascii : ∀ c ∈ label, Text.isAsciiChar c = true
  lower : ∀ c ∈ label, c.toLower = c
  noDot : '.' ∉ label

/-- One or more labels, joined by dots. -/
def HostName (name : Text) : Prop :=
  ∃ labels, labels ≠ [] ∧ (∀ label ∈ labels, LowerLabel label) ∧ name = Text.join '.' labels

namespace HostName

variable {name : Text}

theorem mem (h : HostName name) {c : Char} (hc : c ∈ name) :
    Text.isAsciiChar c = true ∧ c.toLower = c := by
  obtain ⟨labels, -, hlabels, rfl⟩ := h
  rcases Text.mem_join hc with rfl | ⟨label, hl, hcl⟩
  · exact ⟨rfl, rfl⟩
  · exact ⟨(hlabels label hl).ascii c hcl, (hlabels label hl).lower c hcl⟩

theorem piece (h : HostName name) {label : Text} (hl : label ∈ name.splitOn '.') :
    LowerLabel label := by
  obtain ⟨labels, hne, hlabels, rfl⟩ := h
  have hsplit := Text.splitOn_join_of_notMem (fun t ht => (hlabels t ht).noDot) hne
  rw [hsplit] at hl
  exact hlabels label hl

theorem isAscii (h : HostName name) : Text.isAscii name = true := by
  rw [Text.isAscii, List.all_eq_true]
  exact fun c hc => (h.mem hc).1

theorem decodedName (h : HostName name) : DecodedName name where
  decoded _ hc := .inl (h.mem hc).1
  lower _ hc := (h.mem hc).2
  short label hl := by
    have := (h.piece hl).short
    omega

theorem solid (h : HostName name) : Solid name := by
  rintro label hl rfl
  have hpos := (h.piece hl).pos
  simp at hpos

/-- No label is empty, so no dot stands at an end. -/
theorem undot (h : HostName name) : FocusGuard.undot name = name := by
  have hends : ∀ x y : Text, name ≠ x ++ '.' :: y ∨ (x ≠ [] ∧ y ≠ []) := by
    intro x y
    by_cases hxy : name = x ++ '.' :: y
    · right
      have hsplit : name.splitOn '.' = x.splitOn '.' ++ y.splitOn '.' := by
        rw [hxy, Text.splitOn_append_cons]
      constructor
      · rintro rfl
        exact h.solid [] (by rw [hsplit]; simp) rfl
      · rintro rfl
        exact h.solid [] (by rw [hsplit]; simp) rfl
    · exact .inl hxy
  apply Text.stripBy_eq_self
  · intro c hc hdot
    obtain rfl : c = '.' := by simpa using hdot
    obtain ⟨y, hy⟩ := List.head?_eq_some_iff.mp hc
    rcases hends [] y with hne | hne
    · exact hne hy
    · exact hne.1 rfl
  · intro c hc hdot
    obtain rfl : c = '.' := by simpa using hdot
    obtain ⟨x, hx⟩ := List.getLast?_eq_some_iff.mp hc
    rcases hends x [] with hne | hne
    · exact hne hx
    · exact hne.2 rfl

end HostName

/-! ## Messages -/

/-- The types, classes, lifetimes and data of a record fit the width they are written with. -/
structure DNSRecord.Fits (r : DNSRecord) : Prop where
  rtype : r.rtype < 65536
  rclass : r.rclass < 65536
  ttl : r.ttl < 4294967296
  rdata : r.rdata.length < 65536

namespace DNSMessage

/-- Every number in the message fits the width it is written with. -/
structure Fits (m : DNSMessage) : Prop where
  id : m.id < 65536
  qr : m.qr < 2
  opcode : m.opcode < 16
  aa : m.aa < 2
  tc : m.tc < 2
  rd : m.rd < 2
  ra : m.ra < 2
  z : m.z < 8
  rcode : m.rcode < 16
  questions : ∀ q ∈ m.questions, q.qtype < 65536 ∧ q.qclass < 65536
  records : ∀ r ∈ m.records, r.Fits
  qdcount : m.questions.length < 65536
  ancount : m.answers.length < 65536
  nscount : m.authorities.length < 65536
  arcount : m.additionals.length < 65536

variable {m : DNSMessage}

theorem Fits.wellFormed (h : m.Fits) (hq : ∀ q ∈ m.questions, HostName q.qname)
    (hr : ∀ r ∈ m.records, HostName r.name) : m.WellFormed where
  id := h.id
  qr := h.qr
  opcode := h.opcode
  aa := h.aa
  tc := h.tc
  rd := h.rd
  ra := h.ra
  z := h.z
  rcode := h.rcode
  questions q hm := ⟨(hq q hm).decodedName, (h.questions q hm).1, (h.questions q hm).2⟩
  records r hm := ⟨(hr r hm).decodedName, (h.records r hm).rtype, (h.records r hm).rclass,
    (h.records r hm).ttl, (h.records r hm).rdata⟩
  qdcount := h.qdcount
  ancount := h.ancount
  nscount := h.nscount
  arcount := h.arcount

/-- A message whose names have no dot at an end is its own undotted form. -/
theorem undotted_eq_self (hq : ∀ q ∈ m.questions, undot q.qname = q.qname)
    (hr : ∀ r ∈ m.records, undot r.name = r.name) : m.undotted = m := by
  have hquestions : m.questions.map DNSQuestion.undotted = m.questions := by
    refine (List.map_congr_left fun q hm => ?_).trans (List.map_id _)
    rw [DNSQuestion.undotted, hq q hm]
    rfl
  have hrecords : ∀ l : List DNSRecord, (∀ r ∈ l, r ∈ m.records) →
      l.map DNSRecord.undotted = l := by
    intro l hl
    refine (List.map_congr_left fun r hm => ?_).trans (List.map_id _)
    rw [DNSRecord.undotted, hr r (hl r hm)]
    rfl
  have hanswers := hrecords m.answers fun r hm => by simp [records, hm]
  have hauthorities := hrecords m.authorities fun r hm => by simp [records, hm]
  have hadditionals := hrecords m.additionals fun r hm => by simp [records, hm]
  rw [undotted, hquestions, hanswers, hauthorities, hadditionals]

/-- A message with host names is written in full and read back from its bytes. -/
theorem WellFormed.parse_wire (h : m.WellFormed) (hq : ∀ q ∈ m.questions, HostName q.qname)
    (hr : ∀ r ∈ m.records, HostName r.name) :
    m.toBytes = .ok m.wire ∧ parse m.wire = .ok m := by
  have hascii : m.AsciiNames :=
    asciiNames_iff.mpr ⟨fun q hm => (hq q hm).isAscii, fun r hm => (hr r hm).isAscii⟩
  have hqdot : ∀ q ∈ m.questions, undot q.qname = q.qname := fun q hm => (hq q hm).undot
  have hrdot : ∀ r ∈ m.records, undot r.name = r.name := fun r hm => (hr r hm).undot
  have hsolid : m.SolidNames := by
    refine solidNames_iff.mpr ⟨fun q hm => ?_, fun r hm => ?_⟩
    · rw [hqdot q hm]
      exact (hq q hm).solid
    · rw [hrdot r hm]
      exact (hr r hm).solid
  refine ⟨toBytes_ok h hascii, ?_⟩
  rw [DNSMessage.parse_wire h hascii hsolid, undotted_eq_self hqdot hrdot]

/-- A message with host names is written, and parsing its bytes gives it back. -/
theorem parse_toBytes (h : m.Fits) (hq : ∀ q ∈ m.questions, HostName q.qname)
    (hr : ∀ r ∈ m.records, HostName r.name) :
    ∃ data, m.toBytes = .ok data ∧ parse data = .ok m := by
  exact ⟨m.wire, (h.wellFormed hq hr).parse_wire hq hr⟩

/-- A referral with two questions and a record in every section. -/
def referral : DNSMessage where
  id := 4660
  qr := 1
  opcode := 2
  z := 5
  questions := [{ qname := "www.x.com", qtype := typeA }, { qname := "x.com", qtype := typeNs }]
  answers := [{ name := "www.x.com", rtype := typeA, rdata := [192, 0, 2, 1] }]
  authorities := [{ name := "x.com", rtype := typeNs, rdata := flatName [[110, 115]] }]
  additionals := [{ name := "ns", rtype := typeAaaa, ttl := 0, rdata := List.replicate 16 255 }]

theorem parse_toBytes_referral :
    ∃ data, referral.toBytes = .ok data ∧ parse data = .ok referral := by
  have hlabel : ∀ label ∈ (["www", "x", "com", "ns"] : List Text), LowerLabel label := by
    intro label hl
    simp only [List.mem_cons, List.not_mem_nil, or_false] at hl
    rcases hl with rfl | rfl | rfl | rfl
    all_goals exact ⟨by decide, by decide, by decide, by decide, by decide⟩
  have hwww : HostName "www.x.com".toList :=
    ⟨["www", "x", "com"], by simp, fun l hl => hlabel l (by grind), rfl⟩
  have hx : HostName "x.com".toList :=
    ⟨["x", "com"], by simp, fun l hl => hlabel l (by grind), rfl⟩
  have hns : HostName "ns".toList := ⟨["ns"], by simp, fun l hl => hlabel l (by grind), rfl⟩
  have hfits : referral.Fits := by
    constructor <;> simp [referral, DNSMessage.records, typeA, typeNs, typeAaaa, classIn]
    refine ⟨?_, ?_, ?_⟩
    all_goals exact ⟨by decide, by decide, by decide, by decide⟩
  refine parse_toBytes hfits ?_ ?_
  · simp only [referral, List.forall_mem_cons, List.not_mem_nil]
    exact ⟨hwww, hx, by simp⟩
  · simp only [referral, DNSMessage.records, List.cons_append, List.nil_append,
      List.forall_mem_cons, List.not_mem_nil]
    exact ⟨hwww, hx, hns, by simp⟩

end DNSMessage

end FocusGuard

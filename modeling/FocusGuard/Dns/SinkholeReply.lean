import FocusGuard.Dns.CodecLaw
import FocusGuard.Dns.Enforcement
import FocusGuard.Dns.NameLimits

/-!
# What a sinkhole answers

The reply of `handle_query` to a query whose first question is blocked, read back from its bytes.

## Main results

* `sinkhole_reply`: the reply, whatever the types and the number of the questions.
-/

namespace FocusGuard

open Bytes Reader DNSMessage

/-- The labels that stand in the packet for the names of the questions. -/
def QuestionLabels (data : Bytes) (m : DNSMessage) (names : List (List Bytes)) : Prop :=
  List.Forall₂ (fun offset labels => ∃ stop, readLabels data ∅ offset = .ok (labels, stop))
    (starts (readQuestion data) m.questions.length 12) names

/-- One or more labels, of 1 to 63 ASCII characters other than the dot. -/
structure PlainName (labels : List Bytes) : Prop where
  nonempty : labels ≠ []
  length : ∀ l ∈ labels, 1 ≤ l.length ∧ l.length ≤ 63
  ascii : ∀ l ∈ labels, ∀ b ∈ l, b.toNat < 128 ∧ b ≠ 46

/-- The labels in lower case, joined by dots. -/
def lowerName (labels : List Bytes) : Text :=
  Text.join '.' (labels.map fun l => l.map fun b => (Char.ofNat b.toNat).toLower)

variable {rt : Runtime} {s : DomainSinkhole} {data : Bytes} {net : Network} {r : DNSResolver}
  {m : DNSMessage} {labels : List Bytes} {names : List (List Bytes)}

namespace PlainName

theorem decodeByte_eq (h : PlainName labels) {l : Bytes} (hl : l ∈ labels) {b : UInt8} (hb : b ∈ l) :
    decodeByte b = (Char.ofNat b.toNat).toLower := by
  rw [decodeByte, if_pos (h.ascii l hl b hb).1]

theorem nameOf_eq (h : PlainName labels) : nameOf labels = lowerName labels := by
  rw [nameOf, lowerName]
  refine congrArg _ (List.map_congr_left fun l hl => ?_)
  exact List.map_congr_left fun b hb => h.decodeByte_eq hl hb

theorem hostName (h : PlainName labels) : HostName (nameOf labels) := by
  refine ⟨labels.map decodeLabel, by simpa using h.nonempty, ?_, rfl⟩
  intro label hlabel
  obtain ⟨l, hl, rfl⟩ := List.mem_map.mp hlabel
  have hlength : 1 ≤ (l.map decodeByte).length ∧ (l.map decodeByte).length ≤ 63 := by
    rw [List.length_map]
    exact h.length l hl
  refine ⟨hlength.1, hlength.2, ?_, ?_, ?_⟩
  · intro c hc
    obtain ⟨b, hb, rfl⟩ := List.mem_map.mp hc
    exact isAsciiChar_decodeByte (h.ascii l hl b hb).1
  · intro c hc
    obtain ⟨b, -, rfl⟩ := List.mem_map.mp hc
    exact toLower_decodeByte b
  · intro hdot
    obtain ⟨b, hb, heq⟩ := List.mem_map.mp hdot
    exact (h.ascii l hl b hb).2 (decodeByte_eq_dot heq)

end PlainName

/-- Every question of a message with such names asks for a host name. -/
theorem QuestionLabels.hostName (h : QuestionLabels data m names) (hp : parse data = .ok m)
    (hplain : ∀ labels ∈ names, PlainName labels) : ∀ q ∈ m.questions, HostName q.qname := by
  intro q hq
  have hmem : q.qname ∈ names.map nameOf := by
    rw [← texts_eq (forall₂_readName_questions hp) h]
    exact List.mem_map_of_mem hq
  obtain ⟨labels, hlabels, heq⟩ := List.mem_map.mp hmem
  rw [← heq]
  exact (hplain labels hlabels).hostName

/-- A sinkhole's reply is read back as it was made. -/
theorem parse_createSinkholeResponse (hm : m.WellFormed)
    (hnames : ∀ q ∈ m.questions, HostName q.qname) {q : DNSQuestion} {rest : List DNSQuestion}
    (hq : m.questions = q :: rest) :
    m.createSinkholeResponse.toBytes = .ok m.createSinkholeResponse.wire ∧
      parse m.createSinkholeResponse.wire = .ok m.createSinkholeResponse := by
  have hwf := createSinkholeResponse_wellFormed hm hq
  have hrecords : ∀ r ∈ m.createSinkholeResponse.records, HostName r.name := by
    intro r hr
    rw [createSinkholeResponse_records hq] at hr
    have hmem : q ∈ m.questions := by simp [hq]
    rw [(sinkholeAnswers_wellFormed (hm.questions q hmem) r hr).2]
    exact hnames q hmem
  exact hwf.parse_wire hnames hrecords

/-- The reply has the id, the operation and the wish for recursion of the query, is authoritative and
without error, repeats the questions in lower case, and has one answer, the null address, for A and
AAAA. -/
theorem sinkhole_reply (hp : parse data = .ok m) (hnames : QuestionLabels data m names)
    (hplain : ∀ labels ∈ names, PlainName labels) {q : DNSQuestion} {rest : List DNSQuestion}
    (hq : m.questions = q :: rest) (hblocked : (s.isBlocked rt q.qname).1 = true) :
    ∃ reply m', handleQuery rt s data net r = (.ok (some reply), r) ∧ parse reply = .ok m' ∧
      m'.id = m.id ∧ m'.opcode = m.opcode ∧ m'.rd = m.rd ∧ m'.qr = 1 ∧ m'.aa = 1 ∧ m'.ra = 1 ∧
      m'.tc = 0 ∧ m'.rcode = 0 ∧ m'.questions = m.questions ∧
      m'.questions.map DNSQuestion.qname = names.map lowerName ∧
      m'.authorities = [] ∧ m'.additionals = [] ∧
      (q.qtype = typeA → ∃ answer, m'.answers = [answer] ∧ answer.name = q.qname ∧
        answer.rtype = typeA ∧ answer.rdata = [0, 0, 0, 0]) ∧
      (q.qtype = typeAaaa → ∃ answer, m'.answers = [answer] ∧ answer.name = q.qname ∧
        answer.rtype = typeAaaa ∧ answer.rdata = List.replicate 16 0) ∧
      (q.qtype ≠ typeA → q.qtype ≠ typeAaaa → m'.answers = []) := by
  have hroute : route rt s data = .sinkhole m := by
    simp only [route, hp, hq, hblocked, if_true]
  obtain ⟨hbytes, hback⟩ :=
    parse_createSinkholeResponse (parse_wellFormed hp) (hnames.hostName hp hplain) hq
  have hlower : m.questions.map DNSQuestion.qname = names.map lowerName := by
    rw [texts_eq (forall₂_readName_questions hp) hnames]
    exact List.map_congr_left fun labels hl => (hplain labels hl).nameOf_eq
  have hanswers := createSinkholeResponse_answers hq
  have haaaa : typeAaaa ≠ typeA := by decide
  refine ⟨_, _, ?_, hback, rfl, rfl, rfl, rfl, rfl, rfl, rfl, rfl, rfl, hlower, rfl, rfl, ?_, ?_, ?_⟩
  · rw [handleQuery, hroute]
    dsimp only
    rw [hbytes]
    rfl
  · intro hA
    rw [sinkholeAnswers, if_pos hA] at hanswers
    exact ⟨_, hanswers, rfl, rfl, rfl⟩
  · intro hAaaa
    rw [sinkholeAnswers, if_neg (hAaaa.trans_ne haaaa), if_pos hAaaa] at hanswers
    exact ⟨_, hanswers, rfl, rfl, rfl⟩
  · intro hA hAaaa
    rwa [sinkholeAnswers, if_neg hA, if_neg hAaaa] at hanswers

/-- `WwW.YouTube.com`. -/
def mixedCaseName : List Bytes :=
  [[87, 119, 87], [89, 111, 117, 84, 117, 98, 101], [99, 111, 109]]

def mixedCaseMessage : DNSMessage where
  id := 7
  questions := [{ qname := nameOf mixedCaseName, qtype := typeA }]

/-- The reply where `youtube.com` is blocked. -/
theorem sinkhole_reply_mixed_case : ∃ reply m', handleQuery asciiRuntime
      (sinkholeFor ["youtube.com"]) mixedCaseQuery silentNetwork (DNSResolver.init [] true) =
        (.ok (some reply), DNSResolver.init [] true) ∧ parse reply = .ok m' ∧
    m'.questions.map DNSQuestion.qname = ["www.youtube.com".toList] ∧
    ∃ answer, m'.answers = [answer] ∧ answer.rdata = [0, 0, 0, 0] := by
  have hdrop : mixedCaseQuery.drop 12 =
      flatName mixedCaseName ++ (word16 typeA ++ word16 classIn) := rfl
  have hparse : parse mixedCaseQuery = .ok mixedCaseMessage := parse_query rfl hdrop (by decide)
  have hnames : QuestionLabels mixedCaseQuery mixedCaseMessage [mixedCaseName] := by
    unfold QuestionLabels
    rw [mixedCaseMessage, List.length_singleton, starts_one]
    exact .cons ⟨_, readLabels_eq_ok_iff.mpr ⟨_, wireName_flatName (by decide) hdrop⟩⟩ .nil
  have hascii : (mixedCaseName.all fun l => l.all fun b => b.toNat < 128 ∧ b ≠ 46) = true := by
    decide
  have hplain : PlainName mixedCaseName :=
    ⟨by decide, by decide, by simpa only [List.all_eq_true, decide_eq_true_eq] using hascii⟩
  have hblocked :
      ((sinkholeFor ["youtube.com"]).isBlocked asciiRuntime (nameOf mixedCaseName)).1 = true := by
    decide
  obtain ⟨reply, m', hreply, hback, -, -, -, -, -, -, -, -, -, hlower, -, -, hA, -⟩ :=
    sinkhole_reply hparse hnames (List.forall_mem_singleton.mpr hplain) rfl hblocked
  obtain ⟨answer, hanswer, -, -, hrdata⟩ := hA rfl
  exact ⟨reply, m', hreply, hback, hlower.trans (by decide), answer, hanswer, hrdata⟩

end FocusGuard

import FocusGuard.Dns.Resolver

/-!
# The DNS server

`DNSServer.handle_query` of `focusguard/dns/server.py`. The observers it informs on the way
(device tracker, packet monitor, event bus, callbacks) cannot change the reply: every call
of them stands in a `try` that swallows what it raises.

## Main definitions

* `route`: what becomes of a datagram.
* `handleQuery`: the reply.
-/

namespace FocusGuard

open Bytes DNSMessage

/-- What becomes of a datagram. -/
inductive Route where
  | dropped
  | formatError (id : Nat)
  | noQuestions (msg : DNSMessage)
  | sinkhole (msg : DNSMessage)
  | forward (msg : DNSMessage)

variable (rt : Runtime)

/-- The decisions of `handle_query`, up to the reply that is built. -/
def route (s : DomainSinkhole) (queryBytes : Bytes) : Route :=
  match parse queryBytes with
  | .error _ =>
    match get16 queryBytes 0 with
    | some msgId => .formatError msgId
    | none => .dropped
  | .ok msg =>
    match msg.questions with
    | [] => .noQuestions msg
    | q :: _ => if (s.isBlocked rt q.qname).1 then .sinkhole msg else .forward msg

def errResp (msgId : Nat) : DNSMessage where
  id := msgId
  qr := 1
  rcode := rcodeFormerr

/-- The reply to a message without questions. -/
def noQuestionsResp (msg : DNSMessage) : DNSMessage where
  id := msg.id
  qr := 1
  rcode := rcodeServfail

def handleQuery (s : DomainSinkhole) (queryBytes : Bytes) (net : Network) :
    Exec PyError DNSResolver (Option Bytes) :=
  match route rt s queryBytes with
  | .dropped => pure none
  | .formatError msgId => do
    let reply ← Exec.ofExcept (errResp msgId).toBytes
    pure (some reply)
  | .noQuestions msg => do
    let reply ← Exec.ofExcept (noQuestionsResp msg).toBytes
    pure (some reply)
  | .sinkhole msg => do
    let reply ← Exec.ofExcept msg.createSinkholeResponse.toBytes
    pure (some reply)
  | .forward msg => do
    let reply ← resolve rt queryBytes msg net
    pure (some reply)

/-! ## The replies the server builds -/

variable {rt} {s : DomainSinkhole} {queryBytes : Bytes} {msg : DNSMessage}

/-- What each route says about the datagram. -/
theorem route_spec (rt : Runtime) (s : DomainSinkhole) (queryBytes : Bytes) :
    match route rt s queryBytes with
    | .dropped => get16 queryBytes 0 = none
    | .formatError msgId => get16 queryBytes 0 = some msgId
    | .noQuestions msg => parse queryBytes = .ok msg ∧ msg.questions = []
    | .sinkhole msg => parse queryBytes = .ok msg ∧
        ∃ q rest, msg.questions = q :: rest ∧ (s.isBlocked rt q.qname).1 = true
    | .forward msg => parse queryBytes = .ok msg ∧
        ∃ q rest, msg.questions = q :: rest ∧ (s.isBlocked rt q.qname).1 = false := by
  unfold route
  cases parse queryBytes with
  | error e => cases get16 queryBytes 0 <;> rfl
  | ok msg =>
    dsimp only
    cases hq : msg.questions with
    | nil => exact ⟨rfl, hq⟩
    | cons q rest =>
      dsimp only
      cases hb : (s.isBlocked rt q.qname).1 with
      | true => exact ⟨rfl, q, rest, hq, hb⟩
      | false => exact ⟨rfl, q, rest, hq, hb⟩

theorem parse_of_route_sinkhole (h : route rt s queryBytes = .sinkhole msg) :
    parse queryBytes = .ok msg ∧
      ∃ q rest, msg.questions = q :: rest ∧ (s.isBlocked rt q.qname).1 = true := by
  have hspec := route_spec rt s queryBytes
  rwa [h] at hspec

theorem route_formatError {msgId : Nat} (h : route rt s queryBytes = .formatError msgId) :
    get16 queryBytes 0 = some msgId := by
  have hspec := route_spec rt s queryBytes
  rwa [h] at hspec

/-- Two bytes are enough for a reply. -/
theorem route_ne_dropped (h : 2 ≤ queryBytes.length) : route rt s queryBytes ≠ .dropped := by
  intro hr
  have hspec := route_spec rt s queryBytes
  rw [hr] at hspec
  obtain ⟨msgId, hid⟩ : ∃ n, get16 queryBytes 0 = some n := get16_isSome (by omega)
  rw [hid] at hspec
  cases hspec

/-! ## Their shape -/

theorem errResp_wellFormed {msgId : Nat} (h : msgId < 65536) : (errResp msgId).WellFormed := by
  constructor <;> simp [errResp, DNSMessage.records, rcodeFormerr, h]

theorem noQuestionsResp_wellFormed (h : msg.WellFormed) : (noQuestionsResp msg).WellFormed := by
  constructor <;> simp [noQuestionsResp, DNSMessage.records, rcodeServfail, h.id]

theorem servfail_wellFormed (h : msg.WellFormed) : (servfail msg).WellFormed := by
  constructor <;> simp [servfail, DNSMessage.records, rcodeServfail, h.id, h.opcode, h.rd,
    h.qdcount]
  exact h.questions

theorem sinkholeAnswers_wellFormed {q : DNSQuestion} (h : q.WellFormed) :
    ∀ r ∈ sinkholeAnswers q, r.WellFormed ∧ r.name = q.qname := by
  intro r hr
  unfold sinkholeAnswers at hr
  split at hr
  · obtain rfl := List.mem_singleton.mp hr
    exact ⟨⟨h.name, by simp [typeA], by simp [classIn], by simp, by simp⟩, rfl⟩
  · split at hr
    · obtain rfl := List.mem_singleton.mp hr
      exact ⟨⟨h.name, by simp [typeAaaa], by simp [classIn], by simp, by simp⟩, rfl⟩
    · cases hr

theorem length_sinkholeAnswers (q : DNSQuestion) : (sinkholeAnswers q).length ≤ 1 := by
  unfold sinkholeAnswers
  repeat' split
  all_goals simp

theorem createSinkholeResponse_answers {q : DNSQuestion} {rest : List DNSQuestion}
    (hq : msg.questions = q :: rest) :
    msg.createSinkholeResponse.answers = sinkholeAnswers q := by
  simp only [createSinkholeResponse, hq]

theorem createSinkholeResponse_records {q : DNSQuestion} {rest : List DNSQuestion}
    (hq : msg.questions = q :: rest) :
    msg.createSinkholeResponse.records = sinkholeAnswers q := by
  rw [DNSMessage.records, createSinkholeResponse_answers hq]
  exact (List.append_nil _).trans (List.append_nil _)

theorem createSinkholeResponse_wellFormed (h : msg.WellFormed) {q : DNSQuestion}
    {rest : List DNSQuestion} (hq : msg.questions = q :: rest) :
    msg.createSinkholeResponse.WellFormed where
  id := h.id
  qr := by simp [createSinkholeResponse]
  opcode := h.opcode
  aa := by simp [createSinkholeResponse]
  tc := by simp [createSinkholeResponse]
  rd := h.rd
  ra := by simp [createSinkholeResponse]
  z := by simp [createSinkholeResponse]
  rcode := by simp [createSinkholeResponse, rcodeNoerror]
  questions := h.questions
  records r hr := by
    rw [createSinkholeResponse_records hq] at hr
    exact (sinkholeAnswers_wellFormed (h.questions q (by simp [hq])) r hr).1
  qdcount := h.qdcount
  ancount := by
    have := length_sinkholeAnswers q
    rw [createSinkholeResponse_answers hq]
    omega
  nscount := by simp [createSinkholeResponse]
  arcount := by simp [createSinkholeResponse]

/-- The names a sinkhole writes are names of the query's questions. -/
theorem createSinkholeResponse_names (h : msg.WellFormed) {q : DNSQuestion}
    {rest : List DNSQuestion} (hq : msg.questions = q :: rest) {n : Text} :
    n ∈ msg.createSinkholeResponse.names ↔ ∃ q ∈ msg.questions, n = q.qname := by
  have hrec : ∀ r ∈ sinkholeAnswers q, r.name = q.qname :=
    fun r hr => (sinkholeAnswers_wellFormed (h.questions q (by simp [hq])) r hr).2
  rw [DNSMessage.names, createSinkholeResponse_records hq, List.mem_append, List.mem_map,
    List.mem_map]
  constructor
  · rintro (⟨q', hm, rfl⟩ | ⟨r, hm, rfl⟩)
    · exact ⟨q', hm, rfl⟩
    · exact ⟨q, by simp [hq], hrec r hm⟩
  · rintro ⟨q', hm, rfl⟩
    exact .inl ⟨q', hm, rfl⟩

theorem servfail_names {n : Text} :
    n ∈ (servfail msg).names ↔ ∃ q ∈ msg.questions, n = q.qname := by
  simp [DNSMessage.names, DNSMessage.records, servfail, eq_comm]

end FocusGuard

import FocusGuard.Dns.Server

/-!
# Whether a datagram gets a well-formed reply

The parser is the only step of `handle_query` behind an exception handler, and the serializer
is stricter than the parser: a name with a byte beyond ASCII raises, an empty label ends a
name early and shifts what follows it. A cached reply keeps the QR bit of the response that
was stored.

## Main definitions

* `GetsReply`: the reply exists and is well formed where it is built locally.
* `Writable`: the queries and cache entries that the serializer does justice to.

## Main results

* `getsReply_of_writable`: `Writable` is enough; ASCII names and QR = 1 are needed.
* `handleQuery_raises`: a datagram that gets no reply.
-/

namespace FocusGuard

open Bytes DNSMessage

variable (rt : Runtime) (s : DomainSinkhole) (queryBytes : Bytes) (net : Network)
  (r : DNSResolver)

/-- The reply is what an upstream answered. -/
def AnsweredUpstream : Prop :=
  ∃ msg response, route rt s queryBytes = .forward msg ∧ liveEntry rt r msg net.now = none ∧
    queryUpstreams net queryBytes r.upstreams 0 = some response

/-- The reply starts with the id of the query, is a response, and parses. -/
def WellFormedReply (reply : Bytes) : Prop :=
  reply.take 2 = queryBytes.take 2 ∧ ∃ m, parse reply = .ok m ∧ m.qr = 1

/-- The datagram gets a reply, a well-formed one unless an upstream wrote it. -/
def GetsReply : Prop :=
  ∃ reply, (handleQuery rt s queryBytes net r).1 = .ok (some reply) ∧
    (¬ AnsweredUpstream rt s queryBytes net r → WellFormedReply queryBytes reply)

/-- A condition on the message that a local reply takes its names from: the blocked query, the
cached response, or the query that every upstream left unanswered. -/
def OnSource (blocked cached failed : DNSMessage → Prop) : Prop :=
  match route rt s queryBytes with
  | .dropped | .formatError _ | .noQuestions _ => True
  | .sinkhole msg => blocked msg
  | .forward msg =>
    match liveEntry rt r msg net.now with
    | some entry => ∀ m, parse entry.responseBytes = .ok m → cached m
    | none => queryUpstreams net queryBytes r.upstreams 0 = none → failed msg

def AsciiQuestions (msg : DNSMessage) : Prop :=
  ∀ q ∈ msg.questions, Text.isAscii q.qname = true

def SolidQuestions (msg : DNSMessage) : Prop := ∀ q ∈ msg.questions, Solid (undot q.qname)

/-- The names are ASCII without an empty label; a question that ends the reply may have one. -/
def Writable : Prop :=
  OnSource rt s queryBytes net r
    (fun msg => AsciiQuestions msg ∧ (SolidQuestions msg ∨
      ∃ q, msg.questions = [q] ∧ q.qtype ≠ typeA ∧ q.qtype ≠ typeAaaa))
    (fun m => m.AsciiNames ∧ m.SolidNames ∧ m.qr = 1)
    (fun msg => AsciiQuestions msg ∧ (SolidQuestions msg ∨ ∃ q, msg.questions = [q]))

/-- The names are ASCII, and a cached response is one. -/
def Encodable : Prop :=
  OnSource rt s queryBytes net r AsciiQuestions (fun m => m.AsciiNames ∧ m.qr = 1) AsciiQuestions

variable {rt s queryBytes net r} {m : DNSMessage}

/-! ## Replies from a message -/

theorem wellFormedReply_of_parse {m' : DNSMessage} (hid : get16 queryBytes 0 = some m.id)
    (hp : parse m.wire = .ok m') (hqr : m'.qr = 1) : WellFormedReply queryBytes m.wire := by
  have hd := drop_of_get16 hid
  rw [List.drop_zero] at hd
  exact ⟨by rw [hd]; rfl, m', hp, hqr⟩

/-- A reply with ASCII names and no empty label is well formed. -/
theorem wellFormedReply_of_solid (hwf : m.WellFormed) (hid : get16 queryBytes 0 = some m.id)
    (hqr : m.qr = 1) (hascii : m.AsciiNames) (hsolid : m.SolidNames) :
    WellFormedReply queryBytes m.wire :=
  wellFormedReply_of_parse hid (parse_wire hwf hascii hsolid) hqr

/-- So is a reply that is one question and nothing else. -/
theorem wellFormedReply_of_single (hwf : m.WellFormed) (hid : get16 queryBytes 0 = some m.id)
    (hqr : m.qr = 1) {q : DNSQuestion} (hq : m.questions = [q]) (hr : m.records = []) :
    WellFormedReply queryBytes m.wire := by
  obtain ⟨m', hp, hqr'⟩ := parse_wire_single hwf hq hr
  exact wellFormedReply_of_parse hid hp (hqr'.trans hqr)

/-- What is read back has the QR bit that was written. -/
theorem qr_of_parse_wire (hwf : m.WellFormed) {m' : DNSMessage} (hp : parse m.wire = .ok m') :
    m'.qr = m.qr := by
  obtain ⟨flags, _, _, _, _, h⟩ := parse_eq_ok_iff.mp hp
  have hflags : flags = m.flags := by
    have hh := h.header
    rw [header_wire hwf] at hh
    simp only [Option.some.injEq, Prod.mk.injEq] at hh
    exact hh.2.1.symm
  rw [h.qr, hflags, ← (fields_of_flags hwf).1]

/-- Once the reply is the bytes of a message, it is well formed only if the names of the message
are ASCII and its QR bit is set. -/
theorem ascii_of_wellFormedReply (hwf : m.WellFormed) {reply : Bytes}
    (hb : m.toBytes = .ok reply) (h : WellFormedReply queryBytes reply) :
    m.AsciiNames ∧ m.qr = 1 := by
  obtain ⟨hascii, rfl⟩ := (toBytes_eq_ok_iff hwf).mp hb
  obtain ⟨-, m', hp, hqr⟩ := h
  exact ⟨hascii, (qr_of_parse_wire hwf hp).symm.trans hqr⟩

/-! ## The five local replies -/

/-- The local reply is the bytes of `m`, and `m` takes its names from the source. -/
structure LocalReply (rt : Runtime) (s : DomainSinkhole) (queryBytes : Bytes) (net : Network)
    (r : DNSResolver) (m : DNSMessage) : Prop where
  wellFormed : m.WellFormed
  id : get16 queryBytes 0 = some m.id
  notUpstream : ¬ AnsweredUpstream rt s queryBytes net r
  bytes : (handleQuery rt s queryBytes net r).1 = m.toBytes.map some
  writable : Writable rt s queryBytes net r →
    m.AsciiNames ∧ m.qr = 1 ∧ (m.SolidNames ∨ ∃ q, m.questions = [q] ∧ m.records = [])
  encodable : m.AsciiNames → m.qr = 1 → Encodable rt s queryBytes net r

theorem ofExcept_some {α : Type} (x : Except PyError α) :
    ((do let a ← Exec.ofExcept x; pure (some a) : Exec PyError DNSResolver (Option α)) r).1 =
      x.map some := by
  cases x <;> rfl

theorem LocalReply.toBytes_iff (h : LocalReply rt s queryBytes net r m) :
    GetsReply rt s queryBytes net r ↔
      ∃ reply, m.toBytes = .ok reply ∧ WellFormedReply queryBytes reply := by
  rw [GetsReply, h.bytes]
  constructor
  · rintro ⟨reply, hb, hw⟩
    cases hm : m.toBytes with
    | ok b =>
      rw [hm] at hb
      cases hb
      exact ⟨_, rfl, hw h.notUpstream⟩
    | error e =>
      rw [hm] at hb
      cases hb
  · rintro ⟨reply, hm, hw⟩
    exact ⟨reply, by rw [hm]; rfl, fun _ => hw⟩

theorem id_of_parse {msg : DNSMessage} (h : parse queryBytes = .ok msg) :
    get16 queryBytes 0 = some msg.id := by
  obtain ⟨_, _, _, _, _, hp⟩ := parse_eq_ok_iff.mp h
  exact (header_eq_some_iff.mp hp.header).1

theorem asciiNames_of_questions {msg : DNSMessage}
    (hnames : ∀ n, n ∈ m.names ↔ ∃ q ∈ msg.questions, n = q.qname) :
    m.AsciiNames ↔ AsciiQuestions msg := by
  constructor
  · intro h q hq
    exact h _ ((hnames _).mpr ⟨q, hq, rfl⟩)
  · intro h n hn
    obtain ⟨q, hq, rfl⟩ := (hnames n).mp hn
    exact h q hq

theorem solidNames_of_questions {msg : DNSMessage}
    (hnames : ∀ n, n ∈ m.names ↔ ∃ q ∈ msg.questions, n = q.qname) (h : SolidQuestions msg) :
    m.SolidNames := by
  intro n hn
  obtain ⟨q, hq, rfl⟩ := (hnames n).mp hn
  exact h q hq

theorem localReply_formatError {msgId : Nat} (h : route rt s queryBytes = .formatError msgId) :
    LocalReply rt s queryBytes net r (errResp msgId) where
  wellFormed := errResp_wellFormed (get16_lt (route_formatError h))
  id := route_formatError h
  notUpstream := by
    rintro ⟨msg, _, hf, -⟩
    rw [h] at hf
    cases hf
  bytes := by
    rw [handleQuery, h]
    exact ofExcept_some _
  writable _ := by simp [AsciiNames, SolidNames, DNSMessage.names, DNSMessage.records, errResp]
  encodable _ _ := by simp [Encodable, OnSource, h]

theorem localReply_noQuestions {msg : DNSMessage} (h : route rt s queryBytes = .noQuestions msg) :
    LocalReply rt s queryBytes net r (noQuestionsResp msg) := by
  have hspec := route_spec rt s queryBytes
  rw [h] at hspec
  have hid := id_of_parse hspec.1
  exact {
    wellFormed := noQuestionsResp_wellFormed (parse_wellFormed hspec.1)
    id := hid
    notUpstream := by
      rintro ⟨msg, _, hf, -⟩
      rw [h] at hf
      cases hf
    bytes := by
      rw [handleQuery, h]
      exact ofExcept_some _
    writable := fun _ => by
      simp [AsciiNames, SolidNames, DNSMessage.names, DNSMessage.records, noQuestionsResp]
    encodable := fun _ _ => by simp [Encodable, OnSource, h] }

theorem localReply_sinkhole {msg : DNSMessage} (h : route rt s queryBytes = .sinkhole msg) :
    LocalReply rt s queryBytes net r msg.createSinkholeResponse := by
  obtain ⟨hp, q, rest, hq, -⟩ := parse_of_route_sinkhole h
  have hwf := parse_wellFormed hp
  have hid := id_of_parse hp
  have hnames : ∀ n, n ∈ msg.createSinkholeResponse.names ↔ ∃ q ∈ msg.questions, n = q.qname :=
    fun n => createSinkholeResponse_names hwf hq
  exact {
    wellFormed := createSinkholeResponse_wellFormed hwf hq
    id := hid
    notUpstream := by
      rintro ⟨msg, _, hf, -⟩
      rw [h] at hf
      cases hf
    bytes := by
      rw [handleQuery, h]
      exact ofExcept_some _
    writable := fun hw => by
      simp only [Writable, OnSource, h] at hw
      refine ⟨(asciiNames_of_questions hnames).mpr hw.1, rfl, ?_⟩
      rcases hw.2 with hsolid | ⟨q', hq', hA, hAaaa⟩
      · exact .inl (solidNames_of_questions hnames hsolid)
      · refine .inr ⟨q', hq', ?_⟩
        rw [createSinkholeResponse_records hq', sinkholeAnswers, if_neg hA, if_neg hAaaa]
    encodable := fun ha _ => by
      simp only [Encodable, OnSource, h]
      exact (asciiNames_of_questions hnames).mp ha }

theorem handleQuery_forward {msg : DNSMessage} (h : route rt s queryBytes = .forward msg)
    {x : Except PyError Bytes} {t : DNSResolver} (hx : resolve rt queryBytes msg net r = (x, t)) :
    (handleQuery rt s queryBytes net r).1 = x.map some := by
  rw [handleQuery, h]
  cases x with
  | ok reply => exact congrArg Prod.fst (Exec.bind_of_ok hx)
  | error e => exact congrArg Prod.fst (Exec.bind_of_error hx)

theorem localReply_cached {msg : DNSMessage} {entry : CacheEntry}
    (h : route rt s queryBytes = .forward msg) (hlive : liveEntry rt r msg net.now = some entry)
    {cached : DNSMessage} (hc : parse entry.responseBytes = .ok cached) :
    LocalReply rt s queryBytes net r { cached with id := msg.id } := by
  have hspec := route_spec rt s queryBytes
  rw [h] at hspec
  have hid := id_of_parse hspec.1
  have hwf := parse_wellFormed hc
  exact {
    wellFormed := { hwf with id := get16_lt hid }
    id := hid
    notUpstream := by
      rintro ⟨msg', _, hf, hnone, -⟩
      rw [h] at hf
      cases hf
      rw [hlive] at hnone
      cases hnone
    bytes := by
      rw [← rewriteId_of_parse hc]
      exact handleQuery_forward h (resolve_of_live hlive)
    writable := fun hw => by
      simp only [Writable, OnSource, h, hlive] at hw
      obtain ⟨ha, hsolid, hqr⟩ := hw cached hc
      exact ⟨ha, hqr, .inl hsolid⟩
    encodable := fun ha hqr => by
      simp only [Encodable, OnSource, h, hlive]
      intro m hm
      rw [hc] at hm
      cases hm
      exact ⟨ha, hqr⟩ }

theorem localReply_servfail {msg : DNSMessage} (h : route rt s queryBytes = .forward msg)
    (hlive : liveEntry rt r msg net.now = none)
    (hfail : queryUpstreams net queryBytes r.upstreams 0 = none) :
    LocalReply rt s queryBytes net r (servfail msg) := by
  have hspec := route_spec rt s queryBytes
  rw [h] at hspec
  have hid := id_of_parse hspec.1
  exact {
    wellFormed := servfail_wellFormed (parse_wellFormed hspec.1)
    id := hid
    notUpstream := by
      rintro ⟨_, response, -, -, hsome⟩
      rw [hfail] at hsome
      cases hsome
    bytes := by
      have hres : resolve rt queryBytes msg net r = _ := resolve_of_not_live hlive
      rw [hfail] at hres
      exact handleQuery_forward h hres
    writable := fun hw => by
      simp only [Writable, OnSource, h, hlive] at hw
      obtain ⟨ha, hw⟩ := hw hfail
      refine ⟨(asciiNames_of_questions fun _ => servfail_names).mpr ha, rfl, ?_⟩
      rcases hw with hsolid | ⟨q, hq⟩
      · exact .inl (solidNames_of_questions (fun _ => servfail_names) hsolid)
      · exact .inr ⟨q, hq, rfl⟩
    encodable := fun ha _ => by
      simp only [Encodable, OnSource, h, hlive]
      exact fun _ => (asciiNames_of_questions fun _ => servfail_names).mp ha }

/-- A datagram of two bytes is answered by an upstream or locally. -/
theorem upstream_or_local (hlen : 2 ≤ queryBytes.length) (hs : CacheSound r) :
    (AnsweredUpstream rt s queryBytes net r ∧
      ∃ reply, (handleQuery rt s queryBytes net r).1 = .ok (some reply)) ∨
    ∃ m, LocalReply rt s queryBytes net r m := by
  cases h : route rt s queryBytes with
  | dropped => exact absurd h (route_ne_dropped hlen)
  | formatError msgId => exact .inr ⟨_, localReply_formatError h⟩
  | noQuestions msg => exact .inr ⟨_, localReply_noQuestions h⟩
  | sinkhole msg => exact .inr ⟨_, localReply_sinkhole h⟩
  | forward msg =>
    cases hlive : liveEntry rt r msg net.now with
    | some entry =>
      obtain ⟨key, -, hentry⟩ := liveEntry_mem hlive
      obtain ⟨cached, hc, -⟩ := hs key entry hentry
      exact .inr ⟨_, localReply_cached h hlive hc⟩
    | none =>
      cases hq : queryUpstreams net queryBytes r.upstreams 0 with
      | none => exact .inr ⟨_, localReply_servfail h hlive hq⟩
      | some response =>
        have hres : resolve rt queryBytes msg net r = _ := resolve_of_not_live hlive
        rw [hq] at hres
        exact .inl ⟨⟨msg, response, h, hlive, hq⟩, response, handleQuery_forward h hres⟩

/-! ## The reply -/

/-- Writable names are enough for a well-formed reply, and for one the names have to be ASCII and
a cached response has to be a response. -/
theorem getsReply_of_writable (hr : BuiltUp rt r) (hlen : 2 ≤ queryBytes.length) :
    (Writable rt s queryBytes net r → GetsReply rt s queryBytes net r) ∧
      (GetsReply rt s queryBytes net r → Encodable rt s queryBytes net r) := by
  rcases upstream_or_local hlen hr.sound with ⟨hup, reply, hreply⟩ | ⟨m, hm⟩
  · refine ⟨fun _ => ⟨reply, hreply, fun hn => absurd hup hn⟩, fun _ => ?_⟩
    obtain ⟨msg, response, h, hlive, hq⟩ := hup
    simp only [Encodable, OnSource, h, hlive, hq]
    exact fun hnone => by cases hnone
  · rw [hm.toBytes_iff]
    constructor
    · intro hw
      obtain ⟨hascii, hqr, hsolid | ⟨q, hq, hrec⟩⟩ := hm.writable hw
      · exact ⟨_, toBytes_ok hm.wellFormed hascii,
          wellFormedReply_of_solid hm.wellFormed hm.id hqr hascii hsolid⟩
      · exact ⟨_, toBytes_ok hm.wellFormed hascii,
          wellFormedReply_of_single hm.wellFormed hm.id hqr hq hrec⟩
    · rintro ⟨reply, hb, hw⟩
      obtain ⟨hascii, hqr⟩ := ascii_of_wellFormedReply hm.wellFormed hb hw
      exact hm.encodable hascii hqr

/-- `DomainSinkhole(block_doh=False)`. -/
def openSinkhole : DomainSinkhole where
  blockDoh := false
  blockedTrees := ∅
  allowedTrees := ∅
  allowlistMode := false

/-- No upstream answers in time. -/
def silentNetwork : Network where
  now := 0
  later := 0
  queryUdp _ _ _ := .timeout

theorem queryUpstreams_silent (upstreams : List Upstream) (i : Nat) :
    queryUpstreams silentNetwork queryBytes upstreams i = none := by
  induction upstreams generalizing i with
  | nil => rfl
  | cons _ _ ih => exact ih (i + 1)

theorem openSinkhole_permits {name : Text} (h : Decoded name) :
    (openSinkhole.isBlocked rt name).1 = false := by
  rw [← Bool.not_eq_true, isBlocked_iff rfl h]
  rintro ⟨-, -, rule, hrule, -⟩
  cases hrule

/-- A query with one question for the address of a name in full. -/
theorem parse_query {data : Bytes} {id : Nat} {labels : List Bytes}
    (hheader : header data = some (id, 256, 1, 0, 0, 0))
    (hdrop : data.drop 12 = flatName labels ++ (word16 typeA ++ word16 classIn))
    (hlabels : ∀ l ∈ labels, 0 < l.length ∧ l.length < 192) :
    parse data = .ok { id, questions := [{ qname := nameOf labels, qtype := typeA }] } := by
  have hname := wireName_flatName hlabels hdrop
  have hqtype := drop_add_length hdrop
  have hqclass := (drop_add_length hqtype).trans (List.append_nil (word16 classIn)).symm
  have hread : readQuestion data 12 = .ok (⟨nameOf labels, typeA, classIn⟩, _) :=
    readQuestion_eq_ok_iff.mpr ⟨_, readName_eq_ok_iff.mpr ⟨_, _, hname, rfl⟩,
      get16_of_drop (by simp [typeA]) hqtype, get16_of_drop (by simp [classIn]) hqclass, rfl⟩
  have hparses : Parses data
      { id, questions := [{ qname := nameOf labels, qtype := typeA }] } 256 _ _ _ _ := {
    header := hheader
    questions := .cons hread (.nil _)
    answers := .nil _
    authorities := .nil _
    additionals := .nil _
    qr := rfl
    opcode := rfl
    aa := rfl
    tc := rfl
    rd := rfl
    ra := rfl
    z := rfl
    rcode := rfl }
  exact parse_eq_ok_iff.mpr ⟨_, _, _, _, _, hparses⟩

/-- A question for one label. -/
def labelQuery (label : Bytes) : Bytes :=
  [0x12, 0x34, 1, 0, 0, 1, 0, 0, 0, 0, 0, 0] ++ flatName [label] ++ [0, 1, 0, 1]

def labelMessage (label : Bytes) : DNSMessage where
  id := 0x1234
  questions := [{ qname := nameOf [label], qtype := typeA }]

theorem drop_labelQuery (label : Bytes) :
    (labelQuery label).drop 12 = flatName [label] ++ (word16 typeA ++ word16 classIn) := by
  simp [labelQuery, flatName, word16, byte, typeA, classIn]

theorem parse_labelQuery {label : Bytes} (h0 : 0 < label.length) (h : label.length < 192) :
    parse (labelQuery label) = .ok (labelMessage label) :=
  parse_query rfl (drop_labelQuery label) (List.forall_mem_singleton.mpr ⟨h0, h⟩)

/-- An open sinkhole hands the question to the resolver. -/
theorem route_labelQuery {label : Bytes} (h0 : 0 < label.length) (h : label.length < 192) :
    route rt openSinkhole (labelQuery label) = .forward (labelMessage label) := by
  have hd : DecodedName (nameOf [label]) := nameOf_decoded (by simpa using h)
  have hpermits : (openSinkhole.isBlocked rt (nameOf [label])).1 = false :=
    openSinkhole_permits hd.decoded
  simp only [route, parse_labelQuery h0 h, labelMessage, hpermits]
  rfl

theorem builtUp_init (upstreams : List Upstream) (enabled : Bool) :
    BuiltUp rt (DNSResolver.init upstreams enabled) :=
  .init ⟨upstreams, enabled, rfl⟩

theorem liveEntry_init (upstreams : List Upstream) (enabled : Bool) (msg : DNSMessage) (now : ℚ) :
    liveEntry rt (DNSResolver.init upstreams enabled) msg now = none := by
  cases h : liveEntry rt (DNSResolver.init upstreams enabled) msg now with
  | none => rfl
  | some entry =>
    obtain ⟨key, -, hentry⟩ := liveEntry_mem h
    cases hentry

theorem getsReply_of_writable_tv :
    GetsReply asciiRuntime openSinkhole (labelQuery [0x74, 0x76]) silentNetwork
      (DNSResolver.init [] true) := by
  refine (getsReply_of_writable (builtUp_init [] true) (by decide)).1 ?_
  simp only [Writable, OnSource, route_labelQuery (show 0 < [0x74, 0x76].length by decide)
    (by decide), liveEntry_init]
  exact fun _ => ⟨by unfold AsciiQuestions; decide, .inr ⟨_, rfl⟩⟩

/-- The serializer raises on a name with a byte beyond ASCII. -/
theorem handleQuery_raises : ¬ ∀ (s : DomainSinkhole) (queryBytes : Bytes) (net : Network)
    (r : DNSResolver), BuiltUp asciiRuntime r → 2 ≤ queryBytes.length →
    GetsReply asciiRuntime s queryBytes net r := by
  intro h
  have hreply := h openSinkhole (labelQuery [0xFF]) silentNetwork (DNSResolver.init [] true)
    (builtUp_init [] true) (by decide)
  have hroute : route asciiRuntime openSinkhole (labelQuery [0xFF]) =
      .forward (labelMessage [0xFF]) := route_labelQuery (by decide) (by decide)
  have hlocal := localReply_servfail hroute
    (liveEntry_init [] true (labelMessage [0xFF]) silentNetwork.now) (queryUpstreams_silent _ 0)
  obtain ⟨reply, hb, hw⟩ := hlocal.toBytes_iff.mp hreply
  obtain ⟨hascii, -⟩ := ascii_of_wellFormedReply hlocal.wellFormed hb hw
  have hname := hascii (nameOf [[0xFF]]) (servfail_names.mpr ⟨_, List.mem_singleton_self _, rfl⟩)
  revert hname
  decide

end FocusGuard

import FocusGuard.Dns.Upstream

/-!
# Servers that answer each other

`handle_query` answers every datagram of two bytes or more, responses included: the QR bit of what
comes in is never looked at. A reply that is sent to another server is therefore a query there,
and the `SERVFAIL` for a message without questions is its own answer.

## Main results

* `loopFree_iff`: the replies that no server answers.
* `volley_endless`: one datagram keeps two servers busy forever.
-/

namespace FocusGuard

open Bytes DNSMessage

/-- No server replies to the datagram, whatever its policy, its cache and its upstreams. -/
def Unanswered (data : Bytes) : Prop :=
  ∀ (rt : Runtime) (s : DomainSinkhole) (net : Network) (r : DNSResolver) (reply : Bytes),
    (handleQuery rt s data net r).1 ≠ .ok (some reply)

/-- The reply to the datagram, if there is one, gets no reply. -/
def LoopFree (rt : Runtime) (s : DomainSinkhole) (data : Bytes) (net : Network)
    (r : DNSResolver) : Prop :=
  ∀ reply, (handleQuery rt s data net r).1 = .ok (some reply) → Unanswered reply

/-- The datagram has fewer than two bytes, or the reply to it has a name that cannot be written, or
it is a single byte that an upstream sent. -/
def Quiet (rt : Runtime) (s : DomainSinkhole) (data : Bytes) (net : Network) (r : DNSResolver) :
    Prop :=
  match route rt s data with
  | .dropped => True
  | .formatError _ | .noQuestions _ => False
  | .sinkhole msg => ¬ AsciiQuestions msg
  | .forward msg =>
    match liveEntry rt r msg net.now with
    | some entry => ∀ m, parse entry.responseBytes = .ok m → ¬ m.AsciiNames
    | none =>
      match queryUpstreams net data r.upstreams 0 with
      | some response => response.length = 1
      | none => ¬ AsciiQuestions msg

variable {rt : Runtime} {s : DomainSinkhole} {data : Bytes} {net : Network} {r : DNSResolver}
  {m : DNSMessage}

/-! ## What is answered -/

theorem handleQuery_of_short (h : data.length < 2) :
    handleQuery rt s data net r = (.ok none, r) := by
  have hnone : get16 data 0 = none := by
    cases hg : get16 data 0 with
    | none => rfl
    | some n =>
      have := le_length_of_get16 hg
      omega
  have hroute : route rt s data = .dropped := by
    unfold route
    cases hp : parse data with
    | error e => rw [hnone]
    | ok msg =>
      rw [id_of_parse hp] at hnone
      cases hnone
  rw [handleQuery, hroute]
  rfl

/-- A server with an open sinkhole and an upstream that answers replies to everything else. -/
theorem openSinkhole_replies (h : 2 ≤ data.length) : ∃ reply,
    (handleQuery asciiRuntime openSinkhole data (answering [0]) (DNSResolver.init [] true)).1 =
      .ok (some reply) := by
  cases hroute : route asciiRuntime openSinkhole data with
  | dropped => exact absurd hroute (route_ne_dropped h)
  | formatError msgId =>
    have hlocal : LocalReply asciiRuntime openSinkhole data (answering [0])
        (DNSResolver.init [] true) (errResp msgId) := localReply_formatError hroute
    have hascii : (errResp msgId).AsciiNames := by
      simp [AsciiNames, DNSMessage.names, DNSMessage.records, errResp]
    exact ⟨_, by rw [hlocal.bytes, toBytes_ok hlocal.wellFormed hascii]; rfl⟩
  | noQuestions msg =>
    have hlocal : LocalReply asciiRuntime openSinkhole data (answering [0])
        (DNSResolver.init [] true) (noQuestionsResp msg) := localReply_noQuestions hroute
    have hascii : (noQuestionsResp msg).AsciiNames := by
      simp [AsciiNames, DNSMessage.names, DNSMessage.records, noQuestionsResp]
    exact ⟨_, by rw [hlocal.bytes, toBytes_ok hlocal.wellFormed hascii]; rfl⟩
  | sinkhole msg =>
    obtain ⟨hp, q, rest, hq, hblocked⟩ := parse_of_route_sinkhole hroute
    have hname := ((parse_wellFormed hp).questions q (by simp [hq])).name
    rw [openSinkhole_permits hname.decoded] at hblocked
    cases hblocked
  | forward msg =>
    have hresolve : resolve asciiRuntime data msg (answering [0]) (DNSResolver.init [] true) = _ :=
      resolve_of_not_live (liveEntry_init [] true msg _)
    rw [queryUpstreams_answering (by decide)] at hresolve
    exact ⟨[0], handleQuery_forward hroute hresolve⟩

theorem unanswered_iff : Unanswered data ↔ data.length < 2 := by
  constructor
  · intro h
    by_contra hlen
    have hlong : 2 ≤ data.length := by omega
    obtain ⟨reply, hreply⟩ := openSinkhole_replies hlong
    exact h _ _ _ _ _ hreply
  · intro h rt s net r reply hreply
    rw [handleQuery_of_short h] at hreply
    cases hreply

/-! ## What the replies are -/

/-- A reply that is written from a message is answered, so none must be written. -/
theorem LocalReply.quiet_iff (h : LocalReply rt s data net r m) :
    LoopFree rt s data net r ↔ ¬ m.AsciiNames := by
  have hbytes : ∀ reply, (handleQuery rt s data net r).1 = .ok (some reply) ↔
      m.AsciiNames ∧ reply = m.wire := by
    intro reply
    rw [h.bytes, ← toBytes_eq_ok_iff h.wellFormed]
    cases m.toBytes <;> simp [Except.map]
  simp only [LoopFree, hbytes, unanswered_iff]
  have hlen := length_wire m
  constructor
  · intro hfree hascii
    have := hfree m.wire ⟨hascii, rfl⟩
    omega
  · rintro hascii reply ⟨hn, -⟩
    exact absurd hn hascii

/-- A reply gets no reply exactly when there is none, or it is one byte from an upstream. -/
theorem loopFree_iff : LoopFree rt s data net r ↔ Quiet rt s data net r := by
  cases hroute : route rt s data with
  | dropped =>
    simp only [Quiet, hroute, iff_true]
    intro reply hreply
    rw [handleQuery, hroute] at hreply
    cases hreply
  | formatError msgId =>
    rw [(localReply_formatError hroute).quiet_iff]
    simp [Quiet, hroute, AsciiNames, DNSMessage.names, DNSMessage.records, errResp]
  | noQuestions msg =>
    rw [(localReply_noQuestions hroute).quiet_iff]
    simp [Quiet, hroute, AsciiNames, DNSMessage.names, DNSMessage.records, noQuestionsResp]
  | sinkhole msg =>
    obtain ⟨hp, q, rest, hq, -⟩ := parse_of_route_sinkhole hroute
    rw [(localReply_sinkhole hroute).quiet_iff, asciiNames_of_questions fun _ =>
      createSinkholeResponse_names (parse_wellFormed hp) hq]
    simp only [Quiet, hroute]
  | forward msg =>
    simp only [Quiet, hroute]
    cases hlive : liveEntry rt r msg net.now with
    | some entry =>
      dsimp only
      cases hc : parse entry.responseBytes with
      | ok cached =>
        rw [(localReply_cached hroute hlive hc).quiet_iff]
        simp only [Except.ok.injEq, forall_eq']
        rfl
      | error e =>
        have herror : rewriteId entry.responseBytes msg.id = .error e := by
          rw [rewriteId, hc]
          rfl
        have hresolve : resolve rt data msg net r = _ := resolve_of_live hlive
        rw [herror] at hresolve
        simp [LoopFree, handleQuery_forward hroute hresolve, Except.map]
    | none =>
      dsimp only
      cases hup : queryUpstreams net data r.upstreams 0 with
      | none =>
        rw [(localReply_servfail hroute hlive hup).quiet_iff,
          asciiNames_of_questions fun _ => servfail_names]
      | some response =>
        have hresolve : resolve rt data msg net r = _ := resolve_of_not_live hlive
        rw [hup] at hresolve
        have hpos := List.length_pos_iff.mpr (queryUpstreams_ne_nil hup)
        simp only [LoopFree, handleQuery_forward hroute hresolve, Except.map, Except.ok.injEq,
          Option.some.injEq, forall_eq', unanswered_iff]
        omega

/-- A malformed datagram gets a reply, and that one a reply of its own. -/
theorem formerr_answered : ¬ ∀ (s : DomainSinkhole) (data : Bytes) (net : Network)
    (r : DNSResolver), LoopFree asciiRuntime s data net r := by
  intro h
  have hroute : route asciiRuntime openSinkhole [0, 0] = .formatError 0 := by
    simp [route, parse, header, get16]
  have hlocal : LocalReply asciiRuntime openSinkhole [0, 0] silentNetwork
      (DNSResolver.init [] true) (errResp 0) := localReply_formatError hroute
  refine hlocal.quiet_iff.mp (h _ _ _ _) ?_
  simp [AsciiNames, DNSMessage.names, DNSMessage.records, errResp]

/-! ## Volleys -/

/-- A server, as it is when a datagram arrives. -/
structure Peer where
  rt : Runtime
  sinkhole : DomainSinkhole
  net : Network
  resolver : DNSResolver

/-- The datagram that the server sends back. -/
def Peer.reply (peer : Peer) (data : Bytes) : Option Bytes :=
  match (handleQuery peer.rt peer.sinkhole data peer.net peer.resolver).1 with
  | .ok reply => reply
  | .error _ => none

/-- What is in flight after `n` replies, each sent back by the next server. -/
def volley (peers : Nat → Peer) (data : Bytes) : Nat → Option Bytes
  | 0 => some data
  | n + 1 => (volley peers data n).bind (peers n).reply

/-- Two bytes or more, and no question. -/
structure Questionless (data : Bytes) : Prop where
  length : 2 ≤ data.length
  questions : ∀ msg, parse data = .ok msg → msg.questions = []

/-- A reply that is a bare header is such a datagram again. -/
theorem questionless_wire (hwf : m.WellFormed) (hq : m.questions = []) (hr : m.records = []) :
    m.AsciiNames ∧ Questionless m.wire := by
  have hnames : m.names = [] := by simp [DNSMessage.names, hq, hr]
  have hascii : m.AsciiNames := by simp [AsciiNames, hnames]
  have hsolid : m.SolidNames := by simp [SolidNames, hnames]
  have hlen := length_wire m
  refine ⟨hascii, by omega, fun msg hp => ?_⟩
  rw [parse_wire hwf hascii hsolid] at hp
  cases hp
  simp [undotted, hq]

/-- Every server answers it by another one. -/
theorem Questionless.reply {data : Bytes} (h : Questionless data) (peer : Peer) :
    ∃ reply, peer.reply data = some reply ∧ Questionless reply := by
  have hlocal : ∀ m, LocalReply peer.rt peer.sinkhole data peer.net peer.resolver m →
      m.questions = [] → m.records = [] →
      ∃ reply, peer.reply data = some reply ∧ Questionless reply := by
    intro m hm hq hr
    obtain ⟨hascii, hnext⟩ := questionless_wire hm.wellFormed hq hr
    refine ⟨m.wire, ?_, hnext⟩
    rw [Peer.reply, hm.bytes, toBytes_ok hm.wellFormed hascii]
    rfl
  cases hroute : route peer.rt peer.sinkhole data with
  | dropped => exact absurd hroute (route_ne_dropped h.length)
  | formatError msgId => exact hlocal _ (localReply_formatError hroute) rfl rfl
  | noQuestions msg => exact hlocal _ (localReply_noQuestions hroute) rfl rfl
  | sinkhole msg =>
    obtain ⟨hp, q, rest, hq, -⟩ := parse_of_route_sinkhole hroute
    rw [h.questions msg hp] at hq
    cases hq
  | forward msg =>
    have hspec := route_spec peer.rt peer.sinkhole data
    rw [hroute] at hspec
    obtain ⟨hp, q, rest, hq, -⟩ := hspec
    rw [h.questions msg hp] at hq
    cases hq

/-- One datagram without a question, malformed or not, keeps any servers busy forever. -/
theorem volley_endless {data : Bytes} (h : Questionless data) (peers : Nat → Peer) (n : Nat) :
    ∃ reply, volley peers data n = some reply ∧ Questionless reply := by
  induction n with
  | zero => exact ⟨data, rfl, h⟩
  | succ n ih =>
    obtain ⟨reply, hn, hreply⟩ := ih
    rw [volley, hn]
    exact hreply.reply (peers n)

end FocusGuard

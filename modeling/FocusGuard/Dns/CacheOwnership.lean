import FocusGuard.Dns.Upstream

/-!
# Whose answer the cache gives

A cache entry is found by the decoded name and the type of a first question. Decoding folds
letter case, joins the labels by dots whatever they contain, and the class is not looked at, so
two different questions can have one key. They do not when they have one class and cut the name
into labels of the same lengths.

## Main results

* `hit_belongs`: a hit was received for the question, not long ago, and bears the id.
* `class_not_in_key`: a question of another class is answered from the same entry.
-/

namespace FocusGuard

open Bytes Reader DNSMessage

variable {rt : Runtime}

/-! ## First questions -/

/-- The first question as it stands in the bytes of the query. -/
structure Query.Asks (q : Query) (labels : List Bytes) (question : DNSQuestion) : Prop where
  head : q.msg.questions.head? = some question
  wire : ∃ pointers stop, WireName q.bytes 12 pointers labels stop

/-- The same labels up to ASCII case, the same type and the same class. -/
def SameQuestion (q q' : Query) : Prop :=
  ∃ labels labels' question question', q.Asks labels question ∧ q'.Asks labels' question' ∧
    labels.map (·.map lowerByte) = labels'.map (·.map lowerByte) ∧
    question.qtype = question'.qtype ∧ question.qclass = question'.qclass

/-- The first questions have one class, and their labels have the same lengths in order. -/
def SameCut (q q' : Query) : Prop :=
  ∀ labels labels' question question', q.Asks labels question → q'.Asks labels' question' →
    question.qclass = question'.qclass ∧ labels.map List.length = labels'.map List.length

variable {q q' : Query} {labels labels' : List Bytes} {question : DNSQuestion}

theorem Query.exists_asks (q : Query) (h : q.msg.questions.head? = some question) :
    ∃ labels, q.Asks labels question ∧ question.qname = nameOf labels := by
  obtain ⟨_, _, _, _, _, hp⟩ := parse_eq_ok_iff.mp q.parsed
  have hread := hp.questions
  obtain ⟨rest, hq⟩ := List.head?_eq_some_iff.mp h
  rw [hq] at hread
  cases hread with
  | cons hread _ =>
    obtain ⟨stop, hn, -⟩ := readQuestion_eq_ok_iff.mp hread
    obtain ⟨pointers, labels, hw, hname⟩ := readName_eq_ok_iff.mp hn
    exact ⟨labels, ⟨h, pointers, stop, hw⟩, hname⟩

/-- An ASCII label is told by its text, up to letter case. -/
theorem lowered_of_decodeLabel {label : Bytes} (h : Text.isAscii (decodeLabel label) = true) :
    label.map lowerByte = encodeLabel (decodeLabel label) := by
  rw [encodeLabel, decodeLabel, List.map_map]
  refine List.map_congr_left fun b hb => ?_
  rw [Text.isAscii, List.all_eq_true] at h
  exact (byte_decodeByte (h _ (List.mem_map_of_mem hb))).symm

/-- ASCII names with labels of the same lengths are told by their text, up to letter case. -/
theorem lowered_of_nameOf (hname : nameOf labels = nameOf labels')
    (hascii : Text.isAscii (nameOf labels) = true)
    (hlen : labels.map List.length = labels'.map List.length) :
    labels.map (·.map lowerByte) = labels'.map (·.map lowerByte) := by
  have hdecoded : labels.map decodeLabel = labels'.map decodeLabel := by
    refine Text.join_inj_of_length hname ?_
    simpa [decodeLabel, Function.comp_def] using hlen
  have hlabel : ∀ ls : List Bytes, nameOf ls = nameOf labels →
      ls.map (·.map lowerByte) = (ls.map decodeLabel).map encodeLabel := by
    intro ls hls
    rw [List.map_map]
    refine List.map_congr_left fun label hl => lowered_of_decodeLabel ?_
    refine isAscii_of_subset (hls ▸ hascii) fun c hc => ?_
    exact Text.mem_join_of_mem (List.mem_map_of_mem hl) hc
  rw [hlabel labels rfl, hlabel labels' hname.symm, hdecoded]

/-! ## Hits -/

/-- The datagram was not only accepted, but stored. -/
def Traffic.Stored (rt : Runtime) (t : Traffic) (x : Received) : Prop :=
  t.resolver.cacheEnabled = true ∧ x ∈ t.received ∧ ∃ key entry, x.Makes rt key entry

/-- No earlier datagram was stored for a query that has the same ASCII name and type, but another
class or labels of other lengths. -/
def Traffic.Tells (rt : Runtime) (t : Traffic) (q : Query) : Prop :=
  ∀ x, t.Stored rt x → getCacheKey rt x.query.msg = getCacheKey rt q.msg →
    (∀ question ∈ q.msg.questions.head?, Text.isAscii question.qname = true) → SameCut x.query q

/-- The reply is written from a datagram that was accepted for the same question, less than its
lifetime ago, and starts with the id of the query. -/
def HitFrom (t : Traffic) (q : Query) (now : ℚ) (reply : Bytes) (x : Received) : Prop :=
  x ∈ t.received ∧ SameQuestion x.query q ∧ rewriteId x.response q.msg.id = .ok reply ∧
    x.time ≤ now ∧
    (∃ m, parse x.response = .ok m ∧ now - x.time < max 10 (min (minTtl m.answers) 3600)) ∧
    get16 reply 0 = some q.msg.id

/-- Whatever the query is answered from the cache was received for it. -/
def HitBelongs (rt : Runtime) (t : Traffic) (q : Query) (now : ℚ) : Prop :=
  ∀ reply, (getCachedResponse rt q.msg now t.resolver).1 = .ok (some reply) →
    ∃ x, HitFrom t q now reply x

theorem sameQuestion_of_sameCut {key : CacheKey} (hkey : getCacheKey rt q.msg = some key)
    (hkey' : getCacheKey rt q'.msg = some key) (hascii : Text.isAscii key.1 = true)
    (hcut : SameCut q q') : SameQuestion q q' := by
  rw [getCacheKey_of_parse q.parsed, Option.map_eq_some_iff] at hkey
  rw [getCacheKey_of_parse q'.parsed, Option.map_eq_some_iff] at hkey'
  obtain ⟨question, hhead, rfl⟩ := hkey
  obtain ⟨question', hhead', hsame⟩ := hkey'
  obtain ⟨hname, htype⟩ := Prod.mk.inj hsame
  obtain ⟨labels, hasks, hlabels⟩ := q.exists_asks hhead
  obtain ⟨labels', hasks', hlabels'⟩ := q'.exists_asks hhead'
  obtain ⟨hclass, hlen⟩ := hcut _ _ _ _ hasks hasks'
  have hnames : nameOf labels = nameOf labels' := by rw [← hlabels, ← hlabels', hname]
  have hlowered := lowered_of_nameOf hnames (hlabels ▸ hascii) hlen
  exact ⟨labels, labels', question, question', hasks, hasks', hlowered, htype.symm, hclass⟩

theorem id_of_wire {m : DNSMessage} (h : m.WellFormed) : get16 m.wire 0 = some m.id :=
  (header_eq_some_iff.mp (header_wire h)).1

theorem reply_of_hit {r : DNSResolver} {now : ℚ} {reply : Bytes}
    (h : (getCachedResponse rt q.msg now r).1 = .ok (some reply)) :
    ∃ entry, liveEntry rt r q.msg now = some entry ∧
      rewriteId entry.responseBytes q.msg.id = .ok reply := by
  cases hlive : liveEntry rt r q.msg now with
  | none =>
    rw [getCachedResponse_of_not_live hlive] at h
    cases h
  | some entry =>
    rw [getCachedResponse_of_live hlive] at h
    cases hr : rewriteId entry.responseBytes q.msg.id with
    | ok reply' =>
      rw [hr] at h
      cases h
      exact ⟨entry, rfl, hr⟩
    | error e =>
      rw [hr] at h
      cases h

theorem lt_of_live {r : DNSResolver} {msg : DNSMessage} {now : ℚ} {entry : CacheEntry}
    (h : liveEntry rt r msg now = some entry) : now < entry.expiresAt := by
  unfold liveEntry at h
  split at h
  · obtain ⟨-, hlive⟩ := Option.filter_eq_some_iff.mp h
    simpa using hlive
  · cases h

theorem cacheEnabled_of_live {r : DNSResolver} {msg : DNSMessage} {now : ℚ} {entry : CacheEntry}
    (h : liveEntry rt r msg now = some entry) : r.cacheEnabled = true := by
  by_contra hoff
  rw [liveEntry, if_neg hoff] at h
  cases h

/-- In every interleaving of calls whose datagrams echo their queries, a query that the stored ones
with its key do not differ from in class or label lengths gets its own answer. -/
theorem hit_belongs {t₀ t : Traffic} {es : List CallEvent} {now : ℚ} (hfresh : t₀.Fresh)
    (hrun : Run (CallStep rt) t₀ es t) (hecho : ∀ e ∈ es, e.Accepts AnswersQuery)
    (hclock : t.clock ≤ now) (hq : t.Tells rt q) : HitBelongs rt t q now := by
  intro reply hreply
  have hserved : Served rt (CallEvent.Accepts AnswersQuery) t := ⟨t₀, es, hfresh, hrun, hecho⟩
  obtain ⟨entry, hlive, hwritten⟩ := reply_of_hit hreply
  obtain ⟨key, hkey, hentry⟩ := liveEntry_mem hlive
  obtain ⟨x, hx, hmakes⟩ := hserved.sound.entries key entry hentry
  have hstored : t.Stored rt x := ⟨cacheEnabled_of_live hlive, hx, key, entry, hmakes⟩
  obtain ⟨hxkey, m, hm, hanswers, rfl⟩ := hmakes
  have hqid : q.msg.id < 65536 := (parse_wellFormed q.parsed).id
  obtain ⟨hascii, hwire⟩ := (getCachedResponse_iff hlive hm hqid).mp hreply
  have hid : get16 reply 0 = some q.msg.id :=
    hwire ▸ id_of_wire (wellFormed_withId (parse_wellFormed hm) hqid)
  have hname : Text.isAscii key.1 = true := by
    -- the datagram echoes the question, and its names are written in full
    obtain ⟨m', hm', -, hquestions⟩ := hserved.forall_received x hx
    rw [hm] at hm'
    cases hm'
    have hk := hxkey
    rw [getCacheKey_of_parse x.query.parsed, Option.map_eq_some_iff] at hk
    obtain ⟨question, hhead, rfl⟩ := hk
    have hmem : question ∈ m.questions := hquestions ▸ List.mem_of_head? hhead
    exact (asciiNames_iff.mp hascii).1 question hmem
  have hcut : SameCut x.query q := by
    refine hq x hstored (hxkey.trans hkey.symm) fun question hhead => ?_
    rw [getCacheKey_of_parse q.parsed, Option.map_eq_some_iff] at hkey
    obtain ⟨question', hhead', rfl⟩ := hkey
    rw [hhead'] at hhead
    cases hhead
    exact hname
  have hlt : now < x.time + (max 10 (min (minTtl m.answers) 3600) : Nat) := lt_of_live hlive
  refine ⟨x, hx, sameQuestion_of_sameCut hxkey hkey hname hcut, hwritten,
    (hserved.sound.past x hx).trans hclock, ⟨m, hm, ?_⟩, hid⟩
  push_cast at hlt ⊢
  linarith

theorem SameCut.refl (q : Query) : SameCut q q := by
  rintro labels labels' question question' ⟨hhead, _, _, hw⟩ ⟨hhead', _, _, hw'⟩
  obtain ⟨-, rfl, -⟩ := hw.deterministic hw'
  rw [hhead] at hhead'
  cases hhead'
  exact ⟨rfl, rfl⟩

theorem hit_belongs_tv :
    (∃ reply, (getCachedResponse asciiRuntime tvQuery.msg 1 tvTraffic.resolver).1 =
      .ok (some reply)) ∧ HitBelongs asciiRuntime tvTraffic tvQuery 1 := by
  refine ⟨hit_tvTraffic getCacheKey_tv (by norm_num), hit_belongs ⟨⟨[], true, rfl⟩, rfl, rfl⟩
    run_tvTraffic tvTraffic_echoes (by decide) ?_⟩
  rintro x ⟨-, hx, -⟩ _ _
  obtain rfl := List.mem_singleton.mp hx
  exact .refl tvQuery

/-- The same name and type in the CHAOS class. -/
def chaosMessage : DNSMessage where
  questions := [{ qname := ['t', 'v'], qtype := typeA, qclass := 3 }]

theorem parse_chaosMessage : parse chaosMessage.wire = .ok chaosMessage := by
  have hwf : chaosMessage.WellFormed := by
    constructor <;> simp [chaosMessage, DNSMessage.records]
    exact ⟨decodedName_tv, by decide, by decide⟩
  have hsolid : chaosMessage.SolidNames := by
    unfold SolidNames Solid
    decide
  rw [parse_wire hwf (by unfold AsciiNames; decide) hsolid]
  decide

def chaosQuery : Query where
  bytes := chaosMessage.wire
  msg := chaosMessage
  parsed := parse_chaosMessage

/-- A question of another class is answered from the same entry. -/
theorem class_not_in_key : ¬ ∀ (t₀ t : Traffic) (es : List CallEvent) (q : Query) (now : ℚ),
    t₀.Fresh → Run (CallStep asciiRuntime) t₀ es t → (∀ e ∈ es, e.Accepts AnswersQuery) →
    t.clock ≤ now → HitBelongs asciiRuntime t q now := by
  intro h
  have hnow : (1 : ℚ) < 60 := by norm_num
  obtain ⟨reply, hreply⟩ := hit_tvTraffic (q := chaosQuery) (by decide) hnow
  obtain ⟨x, hx, hsame, -⟩ := h freshTraffic tvTraffic _ chaosQuery 1 ⟨⟨[], true, rfl⟩, rfl, rfl⟩
    run_tvTraffic tvTraffic_echoes (by decide) reply hreply
  obtain rfl := List.mem_singleton.mp hx
  obtain ⟨_, _, question, question', hasks, hasks', -, -, hclass⟩ := hsame
  obtain rfl : _ = question := Option.some.inj hasks.head
  obtain rfl : _ = question' := Option.some.inj hasks'.head
  revert hclass
  decide

end FocusGuard

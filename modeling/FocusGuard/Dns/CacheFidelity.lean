import FocusGuard.Dns.Relocation
import FocusGuard.Dns.Replies

/-!
# What the cache serves

A cached response is parsed and serialized again before it is served. It says the same as the
stored response when that one is relocatable. A root owner name, which every response with an
EDNS record has, is written as two zero bytes and shifts what follows; a name beyond ASCII
raises; a pointer inside RDATA goes stale when the record moves.

## Main results

* `kept_over_run`: an entry survives lookups before it expires and stores under other keys.
* `servesFaithfully_of_relocatable`: the stored response is served faithfully.
* `root_owner_not_served`: a response with an EDNS record is not.
-/

namespace FocusGuard

open Bytes Reader DNSMessage

/-- The event neither expires nor replaces the entry under the key. -/
def CacheEvent.Leaves (rt : Runtime) (key : CacheKey) (expiresAt : ℚ) : CacheEvent → Prop
  | .lookup msg now => getCacheKey rt msg = some key → now < expiresAt
  | .store msg _ _ => getCacheKey rt msg ≠ some key

/-- The reply to the query is read as the stored response under the id of the query. -/
def ServesFaithfully (rt : Runtime) (response : Bytes) (m query : DNSMessage) (now : ℚ)
    (r : DNSResolver) : Prop :=
  ∃ reply m', (getCachedResponse rt query now r).1 = .ok (some reply) ∧ parse reply = .ok m' ∧
    m'.id = query.id ∧ m'.view reply = m.view response

variable {rt : Runtime} {r r' : DNSResolver} {key : CacheKey} {entry : CacheEntry}
  {msg query m : DNSMessage} {response : Bytes} {now stored : ℚ}

/-! ## The entry -/

/-- The resolver caches and holds the entry. -/
def Holds (r : DNSResolver) (key : CacheKey) (entry : CacheEntry) : Prop :=
  r.cacheEnabled = true ∧ r.cache key = some entry

theorem holds_after_store (henabled : r.cacheEnabled = true) (hkey : getCacheKey rt msg = some key)
    (hresponse : parse response = .ok m) (hanswers : m.answers ≠ []) :
    Holds (storeCache rt msg response stored r).2 key
      ⟨response, stored + effectiveTtl m.answers⟩ := by
  simp only [storeCache, henabled, hkey, hresponse, hanswers, if_true, if_false]
  exact ⟨rfl, Function.update_self _ _ _⟩

theorem CacheStep.holds {e : CacheEvent} (h : CacheStep rt r e r')
    (he : e.Leaves rt key entry.expiresAt) (hr : Holds r key entry) : Holds r' key entry := by
  obtain ⟨hen, hentry⟩ := hr
  cases e with
  | lookup msg now =>
    obtain rfl : r' = _ := h
    rcases getCachedResponse_state rt msg now r with hst | ⟨k, found, hk, hfound, hexp, hst⟩
    · rw [hst]
      exact ⟨hen, hentry⟩
    · rw [hst]
      refine ⟨hen, ?_⟩
      dsimp only
      by_cases hkk : key = k
      · subst hkk
        rw [hentry] at hfound
        cases hfound
        exact absurd (he hk) hexp
      · rw [Function.update_of_ne hkk]
        exact hentry
  | store msg response now =>
    obtain rfl : r' = _ := h
    rcases storeCache_state rt msg response now r with hst | ⟨k, parsed, hk, -, -, hst⟩
    · rw [hst]
      exact ⟨hen, hentry⟩
    · rw [hst]
      refine ⟨hen, ?_⟩
      have hkk : key ≠ k := by
        rintro rfl
        exact he hk
      dsimp only
      rw [Function.update_of_ne hkk]
      exact hentry

/-- An entry survives lookups before it expires and stores under other keys. -/
theorem kept_over_run {es : List CacheEvent} (hrun : Run (CacheStep rt) r es r')
    (hes : ∀ e ∈ es, e.Leaves rt key entry.expiresAt) (hr : Holds r key entry) :
    Holds r' key entry := by
  have hstep : ∀ s e t, CacheEvent.Leaves rt key entry.expiresAt e → Holds s key entry →
      CacheStep rt s e t → Holds t key entry := fun _ _ _ he hs hst => CacheStep.holds hst he hs
  exact hrun.invariant (I := fun s => Holds s key entry) hstep hes hr

theorem Holds.liveEntry (h : Holds r key entry) (hkey : getCacheKey rt query = some key)
    (hnow : now < entry.expiresAt) : liveEntry rt r query now = some entry := by
  simp [FocusGuard.liveEntry, h.1, hkey, h.2, Option.filter, hnow]

/-! ## The reply -/

/-- A live entry is served as the bytes of the stored message under the new id. -/
theorem getCachedResponse_iff (hlive : liveEntry rt r query now = some entry)
    (hresponse : parse entry.responseBytes = .ok m) (hid : query.id < 65536) {reply : Bytes} :
    (getCachedResponse rt query now r).1 = .ok (some reply) ↔
      m.AsciiNames ∧ reply = ({ m with id := query.id } : DNSMessage).wire := by
  have hwf := wellFormed_withId (parse_wellFormed hresponse) hid
  rw [getCachedResponse_of_live hlive, rewriteId_of_parse hresponse]
  have hiff : ({ m with id := query.id } : DNSMessage).toBytes = .ok reply ↔ m.AsciiNames ∧ _ :=
    toBytes_eq_ok_iff hwf
  rw [← hiff]
  cases ({ m with id := query.id } : DNSMessage).toBytes <;> simp

theorem servesFaithfully_iff (hlive : liveEntry rt r query now = some entry)
    (hresponse : parse entry.responseBytes = .ok m) (hid : query.id < 65536) :
    ServesFaithfully rt entry.responseBytes m query now r ↔ m.AsciiNames ∧
      ∃ m', parse ({ m with id := query.id } : DNSMessage).wire = .ok m' ∧ m'.id = query.id ∧
        m'.view ({ m with id := query.id } : DNSMessage).wire = m.view entry.responseBytes := by
  constructor
  · rintro ⟨reply, m', hreply, hp, hid', hview⟩
    obtain ⟨hascii, rfl⟩ := (getCachedResponse_iff hlive hresponse hid).mp hreply
    exact ⟨hascii, m', hp, hid', hview⟩
  · rintro ⟨hascii, m', hp, hid', hview⟩
    exact ⟨_, m', (getCachedResponse_iff hlive hresponse hid).mpr ⟨hascii, rfl⟩, hp, hid', hview⟩

/-- A response that is served faithfully has ASCII names, and no empty label unless an item has
type 0. -/
theorem solid_of_servesFaithfully (hlive : liveEntry rt r query now = some entry)
    (hresponse : parse entry.responseBytes = .ok m) (hid : query.id < 65536)
    (h : ServesFaithfully rt entry.responseBytes m query now r) : m.AsciiNames ∧
      ((∀ q ∈ m.questions, q.qtype ≠ 0) → (∀ x ∈ m.records, x.rtype ≠ 0) →
        ∀ n ∈ m.names, Solid n) := by
  obtain ⟨hascii, m', hp, -, hview⟩ := (servesFaithfully_iff hlive hresponse hid).mp h
  have hwf := wellFormed_withId (parse_wellFormed hresponse) hid
  have hview' : m'.view ({ m with id := query.id } : DNSMessage).wire =
      ({ m with id := query.id } : DNSMessage).view entry.responseBytes := hview
  exact ⟨hascii, fun hq hr =>
    solid_of_view_eq (m := { m with id := query.id }) hwf hascii hp hview' hq hr⟩

theorem id_lt_of_parse {queryBytes : Bytes} (h : parse queryBytes = .ok query) :
    query.id < 65536 :=
  (parse_wellFormed h).id

/-- After a response with an answer has been stored, every query under its key is served
faithfully until it expires, if the response is relocatable; and only a response with ASCII
names and without empty labels is, unless an item has type 0. -/
theorem servesFaithfully_of_relocatable {queryBytes : Bytes} {es : List CacheEvent}
    (hresponse : parse response = .ok m) (hanswers : m.answers ≠ [])
    (hquery : parse queryBytes = .ok query) (henabled : r.cacheEnabled = true)
    (hkey : getCacheKey rt msg = some key) (hkey' : getCacheKey rt query = some key)
    (hrun : Run (CacheStep rt) (storeCache rt msg response stored r).2 es r')
    (hes : ∀ e ∈ es, e.Leaves rt key (stored + effectiveTtl m.answers))
    (hnow : now < stored + effectiveTtl m.answers) :
    (Relocatable response m → ServesFaithfully rt response m query now r') ∧
      (ServesFaithfully rt response m query now r' → m.AsciiNames ∧
        ((∀ q ∈ m.questions, q.qtype ≠ 0) → (∀ x ∈ m.records, x.rtype ≠ 0) →
          ∀ n ∈ m.names, Solid n)) := by
  have hholds := kept_over_run hrun hes (holds_after_store henabled hkey hresponse hanswers)
  have hlive := hholds.liveEntry hkey' hnow
  have hid := id_lt_of_parse hquery
  constructor
  · intro hrel
    refine (servesFaithfully_iff hlive hresponse hid).mpr ⟨hrel.ascii, ?_⟩
    exact view_wire hresponse hrel hid
  · exact solid_of_servesFaithfully hlive hresponse hid

/-- The question `tv`, as it is sent and answered below. -/
def tvQuestion : DNSQuestion where
  qname := ['t', 'v']
  qtype := typeA

def tvAnswer : DNSRecord where
  name := ['t', 'v']
  rtype := typeA
  ttl := 60
  rdata := [1, 2, 3, 4]

/-- A response with one address and nothing else. -/
def plainResponse : DNSMessage where
  id := 7
  qr := 1
  ra := 1
  questions := [tvQuestion]
  answers := [tvAnswer]

theorem decodedName_tv : DecodedName ['t', 'v'] :=
  ⟨by unfold Decoded; decide, by decide, by decide⟩

theorem plainResponse_wellFormed : plainResponse.WellFormed := by
  constructor <;> simp [plainResponse, DNSMessage.records]
  · exact ⟨decodedName_tv, by decide, by decide⟩
  · exact ⟨decodedName_tv, by decide, by decide, by decide, by decide⟩

theorem getCacheKey_tv : getCacheKey asciiRuntime (labelMessage [0x74, 0x76]) =
    some (['t', 'v'], typeA) := by decide

theorem effectiveTtl_tvAnswer : effectiveTtl [tvAnswer] = 60 := by decide

section Example

variable {data : Bytes}

theorem wireName_tv (h : data.drop 12 = flatName [[0x74, 0x76]] ++ data.drop 16) :
    WireName data 12 [] [[0x74, 0x76]] 16 := wireName_flatName (by decide) h

/-- A pointer to the name of the question. -/
theorem wireName_pointer (h : data.drop 12 = flatName [[0x74, 0x76]] ++ data.drop 16)
    (hpointer : data.drop 20 = 0xC0 :: 12 :: data.drop 22) :
    WireName data 20 [pointerOf 0xC0 12] [[0x74, 0x76]] 22 := by
  have htarget : (pointerOf 0xC0 12).val = 12 := by decide
  exact .pointer hpointer (by decide) (by rw [htarget]; exact wireName_tv h)

/-- A response with an alias, whose RDATA ends with a pointer to the name of the question. -/
def aliasResponse : Bytes :=
  [0, 7, 0x81, 0x80, 0, 1, 0, 1, 0, 0, 0, 0] ++ [2, 0x74, 0x76, 0, 0, 1, 0, 1] ++
    [0xC0, 12, 0, 5, 0, 1, 0, 0, 0, 60, 0, 4, 1, 0x77, 0xC0, 12]

def aliasAnswer : DNSRecord where
  name := ['t', 'v']
  rtype := typeCname
  ttl := 60
  rdata := [1, 0x77, 0xC0, 12]

def aliasMessage : DNSMessage where
  id := 7
  qr := 1
  ra := 1
  questions := [tvQuestion]
  answers := [aliasAnswer]

theorem readQuestion_aliasResponse : readQuestion aliasResponse 12 = .ok (tvQuestion, 20) :=
  readQuestion_eq_ok_iff.mpr ⟨16, readName_eq_ok_iff.mpr ⟨_, _, wireName_tv rfl, by decide⟩,
    by decide, by decide, rfl⟩

theorem parses_aliasResponse : Parses aliasResponse aliasMessage 0x8180 20 36 36 36 := by
  have hname : aliasResponse.drop 12 = flatName [[0x74, 0x76]] ++ aliasResponse.drop 16 := rfl
  have hanswer : readRecord aliasResponse 20 = .ok (aliasAnswer, 36) :=
    readRecord_eq_ok_iff.mpr ⟨22, 4,
      readName_eq_ok_iff.mpr ⟨_, _, wireName_pointer hname rfl, by decide⟩,
      by decide, by decide, by decide, by decide, by decide, by decide, rfl⟩
  exact {
    header := by decide
    questions := .cons readQuestion_aliasResponse (.nil _)
    answers := .cons hanswer (.nil _)
    authorities := .nil _
    additionals := .nil _
    qr := by decide
    opcode := by decide
    aa := by decide
    tc := by decide
    rd := by decide
    ra := by decide
    z := by decide
    rcode := by decide }

/-- The name that the pointer leads to keeps its place, as all do up to the owner of the answer. -/
theorem aliasResponse_relocatable : Relocatable aliasResponse aliasMessage where
  ascii := by
    unfold AsciiNames
    decide
  solid := by
    unfold Solid
    decide
  rdata := by
    refine ⟨20, ⟨_, _, _, _, _, parses_aliasResponse, by decide, fun offset ho hlt => ?_⟩,
      fun x hx => ?_⟩
    · rcases List.mem_append.mp ho with ho | ho
      · obtain rfl : offset = 12 := by
          simpa [aliasMessage, starts, readQuestion_aliasResponse] using ho
        exact ⟨_, _, wireName_tv rfl, by decide⟩
      · have hle := ReadsTo.le_of_mem_starts (fun _ _ _ hr => (readRecord_bounds hr).1.le) ho
        omega
    · obtain rfl : x = aliasAnswer := by simpa [DNSMessage.records, aliasMessage] using hx
      have hscan : scan aliasAnswer.rdata = ([[0x77]], .pointer (pointerOf 0xC0 12) []) := by
        simp [aliasAnswer, scan]
      have hend : InPrefix aliasResponse 20 15 :=
        .root (by decide) (by decide)
          (show aliasResponse.drop 15 = 0 :: aliasResponse.drop 16 from rfl)
      have hname : InPrefix aliasResponse 20 12 :=
        .label (by decide) (by decide)
          (show aliasResponse.drop 12 = 2 :: aliasResponse.drop 13 from rfl) (by decide) (by decide)
          (by unfold NotUpper; decide) hend
      have hmoves : NameMoves aliasResponse 20 aliasAnswer.rdata := by
        rw [NameMoves, hscan]
        exact hname
      refine ⟨fun _ _ => hmoves, fun hmx => ?_, fun hsoa => ?_⟩
      · exact absurd hmx (by decide)
      · exact absurd hsoa (by decide)

/-- The alias is looked up halfway, and served faithfully in its last second. -/
theorem servesFaithfully_of_relocatable_tv :
    let r := (storeCache asciiRuntime (labelMessage [0x74, 0x76]) aliasResponse 0
      (DNSResolver.init [] true)).2
    ServesFaithfully asciiRuntime aliasResponse aliasMessage (labelMessage [0x74, 0x76]) 59
      (getCachedResponse asciiRuntime (labelMessage [0x74, 0x76]) 30 r).2 := by
  intro r
  have httl : effectiveTtl aliasMessage.answers = 60 := by decide
  have hparse : parse aliasResponse = .ok aliasMessage :=
    parse_eq_ok_iff.mpr ⟨_, _, _, _, _, parses_aliasResponse⟩
  have hquery : parse (labelQuery [0x74, 0x76]) = .ok (labelMessage [0x74, 0x76]) :=
    parse_labelQuery (by decide) (by decide)
  have hrun : Run (CacheStep asciiRuntime) r [.lookup (labelMessage [0x74, 0x76]) 30]
      (getCachedResponse asciiRuntime (labelMessage [0x74, 0x76]) 30 r).2 := .single rfl
  have hleaves : ∀ e ∈ [CacheEvent.lookup (labelMessage [0x74, 0x76]) 30],
      e.Leaves asciiRuntime (['t', 'v'], typeA) (0 + effectiveTtl aliasMessage.answers) := by
    intro e he
    obtain rfl := List.mem_singleton.mp he
    intro _
    rw [httl]
    norm_num
  have hnow : (59 : ℚ) < 0 + effectiveTtl aliasMessage.answers := by
    rw [httl]
    norm_num
  exact (servesFaithfully_of_relocatable hparse (by simp [aliasMessage]) hquery rfl getCacheKey_tv
    getCacheKey_tv hrun hleaves hnow).1 aliasResponse_relocatable

/-- A response that ends with an EDNS record, whose owner is the root: one zero byte. -/
def ednsResponse : Bytes :=
  [0, 7, 0x81, 0x80, 0, 1, 0, 1, 0, 0, 0, 1] ++ [2, 0x74, 0x76, 0, 0, 1, 0, 1] ++
    [0xC0, 12, 0, 1, 0, 1, 0, 0, 0, 60, 0, 4, 1, 2, 3, 4] ++
    [0, 0, 41, 16, 0, 0, 0, 0, 0, 0, 0]

def ednsMessage : DNSMessage where
  id := 7
  qr := 1
  ra := 1
  questions := [tvQuestion]
  answers := [tvAnswer]
  additionals := [{ name := [], rtype := 41, rclass := 4096, ttl := 0 }]

theorem parse_ednsResponse : parse ednsResponse = .ok ednsMessage := by
  have hname : ednsResponse.drop 12 = flatName [[0x74, 0x76]] ++ ednsResponse.drop 16 := rfl
  have hroot : WireName ednsResponse 36 [] [] 37 :=
    .root (show ednsResponse.drop 36 = 0 :: ednsResponse.drop 37 from rfl)
  have hquestion : readQuestion ednsResponse 12 = .ok (tvQuestion, 20) :=
    readQuestion_eq_ok_iff.mpr ⟨16, readName_eq_ok_iff.mpr ⟨_, _, wireName_tv hname, by decide⟩,
      by decide, by decide, rfl⟩
  have hanswer : readRecord ednsResponse 20 = .ok (tvAnswer, 36) :=
    readRecord_eq_ok_iff.mpr ⟨22, 4,
      readName_eq_ok_iff.mpr ⟨_, _, wireName_pointer hname rfl, by decide⟩,
      by decide, by decide, by decide, by decide, by decide, by decide, rfl⟩
  have hedns : readRecord ednsResponse 36 =
      .ok ({ name := [], rtype := 41, rclass := 4096, ttl := 0 }, 47) :=
    readRecord_eq_ok_iff.mpr ⟨37, 0, readName_eq_ok_iff.mpr ⟨_, _, hroot, rfl⟩,
      by decide, by decide, by decide, by decide, by decide, by decide, rfl⟩
  have hparses : Parses ednsResponse ednsMessage 0x8180 20 36 36 47 := {
    header := by decide
    questions := .cons hquestion (.nil _)
    answers := .cons hanswer (.nil _)
    authorities := .nil _
    additionals := .cons hedns (.nil _)
    qr := by decide
    opcode := by decide
    aa := by decide
    tc := by decide
    rd := by decide
    ra := by decide
    z := by decide
    rcode := by decide }
  exact parse_eq_ok_iff.mpr ⟨_, _, _, _, _, hparses⟩

/-- A response with an EDNS record is not served as it was stored. -/
theorem root_owner_not_served : ¬ ∀ (response : Bytes) (m msg query : DNSMessage)
    (queryBytes : Bytes) (key : CacheKey) (stored now : ℚ) (r : DNSResolver),
    parse response = .ok m → m.answers ≠ [] → parse queryBytes = .ok query →
    r.cacheEnabled = true → getCacheKey asciiRuntime msg = some key →
    getCacheKey asciiRuntime query = some key → now < stored + effectiveTtl m.answers →
    ServesFaithfully asciiRuntime response m query now
      (storeCache asciiRuntime msg response stored r).2 := by
  intro h
  have hnow : (59 : ℚ) < 0 + effectiveTtl ednsMessage.answers := by
    rw [show effectiveTtl ednsMessage.answers = 60 from effectiveTtl_tvAnswer]
    norm_num
  have hanswers : ednsMessage.answers ≠ [] := by simp [ednsMessage]
  have hquery : parse (labelQuery [0x74, 0x76]) = .ok (labelMessage [0x74, 0x76]) :=
    parse_labelQuery (by decide) (by decide)
  have hserved := h ednsResponse ednsMessage (labelMessage [0x74, 0x76])
    (labelMessage [0x74, 0x76]) (labelQuery [0x74, 0x76]) (['t', 'v'], typeA) 0 59
    (DNSResolver.init [] true) parse_ednsResponse hanswers hquery rfl getCacheKey_tv getCacheKey_tv
    hnow
  have hholds : Holds (storeCache asciiRuntime (labelMessage [0x74, 0x76]) ednsResponse 0
      (DNSResolver.init [] true)).2 _ _ :=
    holds_after_store rfl getCacheKey_tv parse_ednsResponse hanswers
  obtain ⟨-, hsolid⟩ := solid_of_servesFaithfully (hholds.liveEntry getCacheKey_tv hnow)
    parse_ednsResponse (id_lt_of_parse hquery) hserved
  exact hsolid (by decide) (by decide) [] (by decide) [] (by decide) rfl

end Example

end FocusGuard

import FocusGuard.Dns.Rules
import FocusGuard.Dns.Server

/-!
# A blocked name on the wire never reaches an upstream

However a name under a rule is encoded (letter case, leading labels of arbitrary bytes,
compression pointers), decoding and stripping leave the labels of the rule at its end. The one
way past a rule is the shield of the essential system domains, and it is applied to the
stripped name: `" pool.ntp.org"` passes for `pool.ntp.org`.

## Main results

* `blocked_not_forwarded`: the query is answered from the sinkhole or is malformed.
* `leading_blank_forwarded`: a name that is not essential is let through as one that is.
-/

namespace FocusGuard

open Bytes DNSMessage

/-- A label on the wire spells the given one, in any letter case. -/
def SameLabel (wire : Bytes) (label : Text) : Prop :=
  wire.map lowerByte = (encodeLabel label).map lowerByte

/-- The labels on the wire end with the labels of the rule. -/
def EndsWith (labels : List Bytes) (rule : Key) : Prop :=
  ∃ lead last, labels = lead ++ last ∧ List.Forall₂ SameLabel last rule.reverse

/-- The rules of the sinkhole were installed by its constructor or by `set_blocked_domains`. -/
def Installed (rt : Runtime) (s : DomainSinkhole) : Prop :=
  ∃ blockDoh domains, DomainSinkhole.blockedRules rt blockDoh domains = .ok s.blockedTrees

variable {rt : Runtime}

/-! ## Rules -/

/-- Cleaning an ASCII name leaves a clean one. -/
theorem clean_cleanDomain {name : Text} (h : ∀ c ∈ name, Text.isAsciiChar c = true) :
    Clean (cleanDomain rt name) := by
  have hdec : Decoded name := fun c hc => .inl (h c hc)
  rw [cleanDomain_of_decoded hdec]
  refine ⟨?_, ?_, ?_⟩
  · intro c hc
    obtain ⟨b, hb, rfl⟩ := List.mem_map.mp hc
    have hascii := h b (Text.mem_of_mem_stripBy hb)
    refine ⟨?_, Text.toLower_toLower b⟩
    rcases decoded_char_toLower (.inl hascii) with hb' | hb'
    · exact hb'
    · rcases Text.toLower_cases b with hc | ⟨-, hhi, hc⟩
      · rwa [hc]
      · simp only [Text.isAsciiChar, hc, decide_eq_true_eq]
        omega
  · intro c hc
    rw [List.head?_map] at hc
    obtain ⟨b, hb, rfl⟩ := Option.map_eq_some_iff.mp hc
    rw [isDomainBlank_toLower]
    exact Text.head?_stripBy hb
  · intro c hc
    rw [List.getLast?_map] at hc
    obtain ⟨b, hb, rfl⟩ := Option.map_eq_some_iff.mp hc
    rw [isDomainBlank_toLower]
    exact Text.getLast?_stripBy hb

/-- A rule is the labels of a name that cleaning leaves as it is. -/
theorem Installed.rule_clean {s : DomainSinkhole} (h : Installed rt s) {rule : Key}
    (hr : rule ∈ s.blockedTrees) : ∃ name, Clean name ∧ rule.reverse = labelsOf name := by
  obtain ⟨blockDoh, domains, hok⟩ := h
  obtain ⟨-, htrees⟩ := blockedRules_eq_ok_iff.mp hok
  rw [htrees, mem_rulesOf] at hr
  obtain ⟨d, -, hd⟩ := hr
  unfold ruleOf at hd
  split at hd
  · next norm hn =>
    cases hd
    refine ⟨cleanDomain rt norm, ?_, List.reverse_reverse _⟩
    exact clean_cleanDomain fun c hc => (normalizeText_plain hn c hc).1
  · cases hd

/-! ## Decoding -/

theorem decodeLabel_of_sameLabel {wire : Bytes} {label : Text} (h : SameLabel wire label)
    (hascii : Text.isAscii label = true) (hlower : ∀ c ∈ label, c.toLower = c) :
    decodeLabel wire = label := by
  have hlow : ∀ l : Bytes, decodeLabel (l.map lowerByte) = decodeLabel l := by
    intro l
    rw [decodeLabel, List.map_map]
    exact List.map_congr_left fun b _ => decodeByte_lowerByte b
  rw [← hlow, h, hlow, decodeLabel_encodeLabel hascii hlower]

/-- Labels that spell the labels of a clean name are decoded to them. -/
theorem decodeLabels_of_forall₂ {last : List Bytes} {pieces : List Text}
    (h : List.Forall₂ SameLabel last pieces)
    (hp : ∀ piece ∈ pieces, Text.isAscii piece = true ∧ ∀ c ∈ piece, c.toLower = c) :
    last.map decodeLabel = pieces := by
  induction h with
  | nil => rfl
  | cons hl _ ih =>
    obtain ⟨⟨hascii, hlower⟩, hrest⟩ := List.forall_mem_cons.mp hp
    rw [List.map_cons, decodeLabel_of_sameLabel hl hascii hlower, ih hrest]

/-- What follows the first dot of a stripped text keeps its labels. -/
theorem suffix_dropWhile {x name : Text} :
    labelsOf name <:+ labelsOf ((x ++ ['.']).dropWhile isDomainBlank ++ name) := by
  obtain ⟨y, hy⟩ := List.dropWhile_suffix isDomainBlank (l := x ++ ['.'])
  generalize (x ++ ['.']).dropWhile isDomainBlank = z at hy
  rcases List.eq_nil_or_concat z with rfl | ⟨w, c, rfl⟩
  · exact List.suffix_refl _
  · have hc : c = '.' := by
      rw [List.concat_eq_append, ← List.append_assoc] at hy
      simpa using (List.append_inj' hy rfl).2
    rw [hc, List.concat_eq_append, List.append_assoc, List.singleton_append,
      labelsOf, labelsOf, Text.splitOn_append_cons]
    exact List.suffix_append _ _

theorem decodeLabels_of_clean {last : List Bytes} {name : Text} (hclean : Clean name)
    (h : List.Forall₂ SameLabel last (labelsOf name)) :
    last.map decodeLabel = labelsOf name := by
  refine decodeLabels_of_forall₂ h fun piece hp => ⟨?_, fun c hc => ?_⟩
  · rw [Text.isAscii, List.all_eq_true]
    exact fun c hc => (hclean.1 c (Text.mem_of_mem_splitOn hp hc)).1
  · exact (hclean.1 c (Text.mem_of_mem_splitOn hp hc)).2

/-- An empty name has one empty label, and no label on the wire spells that. -/
theorem ne_nil_of_decodeLabels {last : List Bytes} {name : Text}
    (h : last.map decodeLabel = labelsOf name) (hpos : ∀ l ∈ last, 0 < l.length) : name ≠ [] := by
  rintro rfl
  have hone : last.map decodeLabel = [[]] := h
  obtain ⟨wire, rfl, hwire⟩ := List.map_eq_singleton_iff.mp hone
  have hlength := hpos wire (by simp)
  rw [List.map_eq_nil_iff.mp hwire] at hlength
  cases hlength

theorem cleanDomain_nameOf {labels : List Bytes} (h : ∀ l ∈ labels, l.length < 192) :
    cleanDomain rt (nameOf labels) = Text.stripBy isDomainBlank (nameOf labels) := by
  have hdecoded := nameOf_decoded h
  rw [cleanDomain_of_decoded hdecoded.decoded]
  exact (List.map_congr_left fun c hc => hdecoded.lower c (Text.mem_of_mem_stripBy hc)).trans
    (List.map_id _)

/-- What is stripped off a longer name is off its lead, and the labels of the rest stay. -/
theorem stripBy_nameOf_append {name : Text} (hclean : Clean name) (hne : name ≠ [])
    {last : List Bytes} (hdecode : last.map decodeLabel = labelsOf name) (lead : List Bytes) :
    ∃ x, Text.stripBy isDomainBlank (nameOf (lead ++ last)) = x ++ name ∧
      labelsOf name <:+ labelsOf (x ++ name) := by
  by_cases hlead : lead = []
  · have heq : nameOf (lead ++ last) = name := by
      rw [hlead, List.nil_append, nameOf, hdecode, Text.join_splitOn]
    rw [heq, Text.stripBy_eq_self hclean.2.1 hclean.2.2]
    exact ⟨[], rfl, List.suffix_refl _⟩
  · have heq : nameOf (lead ++ last) = (Text.join '.' (lead.map decodeLabel) ++ ['.']) ++ name := by
      rw [nameOf, List.map_append, hdecode, Text.join_append (by simpa using hlead)
        (List.splitOn_ne_nil _ _), Text.join_splitOn, List.append_assoc, List.singleton_append]
    rw [heq, Text.stripBy_append hne hclean.2.1 hclean.2.2]
    exact ⟨_, rfl, suffix_dropWhile⟩

/-- The stripped text of a name that ends with the labels of a rule still does. -/
theorem covered_of_endsWith {s : DomainSinkhole} (hs : Installed rt s) {rule : Key}
    (hr : rule ∈ s.blockedTrees) {labels : List Bytes} (hl : EndsWith labels rule)
    (hlen : ∀ l ∈ labels, 0 < l.length ∧ l.length < 192) :
    cleanDomain rt (nameOf labels) ≠ [] ∧
      Covered s.blockedTrees (cleanDomain rt (nameOf labels)) := by
  obtain ⟨name, hclean, hname⟩ := hs.rule_clean hr
  obtain ⟨lead, last, rfl, hlast⟩ := hl
  rw [hname] at hlast
  have hdecode := decodeLabels_of_clean hclean hlast
  have hne : name ≠ [] :=
    ne_nil_of_decodeLabels hdecode fun l hl => (hlen l (List.mem_append_right _ hl)).1
  obtain ⟨x, hx, hsuffix⟩ := stripBy_nameOf_append hclean hne hdecode lead
  rw [cleanDomain_nameOf fun l hl => (hlen l hl).2, hx]
  refine ⟨by simp [hne], rule, hr, ?_, hname ▸ hsuffix⟩
  rintro rfl
  exact List.splitOn_ne_nil '.' name hname.symm

/-! ## Enforcement -/

/-- The one question of a message is the name at offset 12. -/
theorem single_question {data : Bytes} {m : DNSMessage} (h : parse data = .ok m)
    (hqd : get16 data 4 = some 1) {pointers : List (Fin 16384)} {labels : List Bytes} {stop : Nat}
    (hname : WireName data 12 pointers labels stop) :
    ∃ q, m.questions = [q] ∧ q.qname = nameOf labels := by
  obtain ⟨_, _, _, _, _, hp⟩ := parse_eq_ok_iff.mp h
  obtain ⟨-, -, hcount, -⟩ := header_eq_some_iff.mp hp.header
  rw [hqd, Option.some.injEq] at hcount
  obtain ⟨q, hq⟩ := List.length_eq_one_iff.mp hcount.symm
  have hquestions := hp.questions
  rw [hq] at hquestions
  cases hquestions with
  | cons hread _ =>
    obtain ⟨stop', hn, -⟩ := readQuestion_eq_ok_iff.mp hread
    obtain ⟨ps, ls, hw, hqn⟩ := readName_eq_ok_iff.mp hn
    obtain ⟨-, rfl, -⟩ := hname.deterministic hw
    exact ⟨q, hq, hqn⟩

/-- A query under a rule is answered from the sinkhole or is malformed, unless its name is
stripped to one that is essential. -/
theorem route_of_endsWith {s : DomainSinkhole} (hmode : s.allowlistMode = false)
    (hs : Installed rt s) {rule : Key} (hr : rule ∈ s.blockedTrees) {data : Bytes}
    (hqd : get16 data 4 = some 1) {pointers : List (Fin 16384)} {labels : List Bytes} {stop : Nat}
    (hname : WireName data 12 pointers labels stop) (hl : EndsWith labels rule)
    (hess : ¬ Essential (cleanDomain rt (nameOf labels))) :
    (∃ msg q, route rt s data = .sinkhole msg ∧ msg.questions = [q] ∧ q.qname = nameOf labels) ∨
      ∃ msgId, route rt s data = .formatError msgId := by
  cases hp : parse data with
  | error e =>
    right
    have hlen : 2 ≤ data.length := by
      have := hname.offset_lt_stop
      omega
    obtain ⟨msgId, hid⟩ : ∃ n, get16 data 0 = some n := get16_isSome (by omega)
    exact ⟨msgId, by simp only [route, hp, hid]⟩
  | ok msg =>
    left
    obtain ⟨q, hq, hqn⟩ := single_question hp hqd hname
    obtain ⟨hne, hcov⟩ := covered_of_endsWith hs hr hl hname.length_labels
    have hdecoded := nameOf_decoded fun l hl => (hname.length_labels l hl).2
    have hblocked : (s.isBlocked rt q.qname).1 = true := by
      rw [hqn]
      exact (isBlocked_iff hmode hdecoded.decoded).mpr ⟨hne, hess, hcov⟩
    refine ⟨msg, q, ?_, hq, hqn⟩
    simp only [route, hp, hq, hblocked, if_true]

/-- A name that ends with the labels of a rule in force and is not stripped to an essential
one is never forwarded. Where its text is ASCII the reply does not depend on the network,
and the resolver is left as it was. -/
theorem blocked_not_forwarded {s : DomainSinkhole} (hmode : s.allowlistMode = false)
    (hs : Installed rt s) {rule : Key} (hr : rule ∈ s.blockedTrees) {data : Bytes}
    (hqd : get16 data 4 = some 1) {pointers : List (Fin 16384)} {labels : List Bytes} {stop : Nat}
    (hname : WireName data 12 pointers labels stop) (hl : EndsWith labels rule)
    (hess : ¬ Essential (cleanDomain rt (nameOf labels))) :
    (¬ ∃ msg, route rt s data = .forward msg) ∧
      (Text.isAscii (nameOf labels) = true → ∃ reply,
        ((∃ msg, route rt s data = .sinkhole msg ∧
            reply = msg.createSinkholeResponse.wire) ∨
          ∃ msgId, route rt s data = .formatError msgId ∧ reply = (errResp msgId).wire) ∧
        ∀ net r, handleQuery rt s data net r = (.ok (some reply), r)) := by
  rcases route_of_endsWith hmode hs hr hqd hname hl hess with ⟨msg, q, hroute, hq, hqn⟩ | ⟨id, hid⟩
  · refine ⟨by simp [hroute], fun hascii => ⟨_, .inl ⟨msg, hroute, rfl⟩, fun net r => ?_⟩⟩
    have hwf := parse_wellFormed (parse_of_route_sinkhole hroute).1
    have hnames : msg.createSinkholeResponse.AsciiNames := by
      intro n hn
      obtain ⟨q', hq', rfl⟩ := (createSinkholeResponse_names hwf hq).mp hn
      rw [hq, List.mem_singleton] at hq'
      rw [hq', hqn]
      exact hascii
    have hbytes := toBytes_ok (createSinkholeResponse_wellFormed hwf hq) hnames
    rw [handleQuery, hroute]
    dsimp only
    rw [hbytes]
    rfl
  · refine ⟨by simp [hid], fun _ => ⟨_, .inr ⟨id, hid, rfl⟩, fun net r => ?_⟩⟩
    have hbytes := toBytes_ok (errResp_wellFormed (get16_lt (route_formatError hid)))
      (by simp [AsciiNames, DNSMessage.names, DNSMessage.records, errResp])
    rw [handleQuery, hid]
    dsimp only
    rw [hbytes]
    rfl

/-- A question for `WwW.YouTube.com`. -/
def mixedCaseQuery : Bytes :=
  [0, 7, 1, 0, 0, 1, 0, 0, 0, 0, 0, 0] ++ flatName [[87, 119, 87],
    [89, 111, 117, 84, 117, 98, 101], [99, 111, 109]] ++ [0, 1, 0, 1]

/-- A sinkhole in blocklist mode with the rules for the domains. -/
def sinkholeFor (domains : List Text) : DomainSinkhole where
  blockDoh := false
  blockedTrees := rulesOf asciiRuntime domains
  allowedTrees := ∅
  allowlistMode := false

theorem sinkholeFor_installed {domains : List Text} (h : ∀ d ∈ domains, Plain d) :
    Installed asciiRuntime (sinkholeFor domains) :=
  ⟨false, domains, blockedRules_eq_ok_iff.mpr ⟨fun d hd => (h d hd).ruleSafe, rfl⟩⟩

theorem blocked_not_forwarded_mixed_case :
    (¬ ∃ msg, route asciiRuntime (sinkholeFor ["youtube.com"]) mixedCaseQuery = .forward msg) ∧
      ∃ reply, ∀ net r, handleQuery asciiRuntime (sinkholeFor ["youtube.com"]) mixedCaseQuery
        net r = (.ok (some reply), r) := by
  have hdrop : mixedCaseQuery.drop 12 = flatName [[87, 119, 87],
      [89, 111, 117, 84, 117, 98, 101], [99, 111, 109]] ++ [0, 1, 0, 1] := rfl
  have hname := wireName_flatName (by decide) hdrop
  have hrule : (["com".toList, "youtube".toList] : Key) ∈
      (sinkholeFor ["youtube.com"]).blockedTrees :=
    mem_rulesOf.mpr ⟨"youtube.com", by decide, by decide⟩
  have hends : EndsWith [[87, 119, 87], [89, 111, 117, 84, 117, 98, 101], [99, 111, 109]]
      ["com".toList, "youtube".toList] :=
    ⟨[[87, 119, 87]], _, rfl, .cons (by unfold SameLabel; decide)
      (.cons (by unfold SameLabel; decide) .nil)⟩
  have hclean : cleanDomain asciiRuntime (nameOf [[87, 119, 87],
      [89, 111, 117, 84, 117, 98, 101], [99, 111, 109]]) = "www.youtube.com".toList := by
    decide
  have hess : ¬ Essential (cleanDomain asciiRuntime (nameOf [[87, 119, 87],
      [89, 111, 117, 84, 117, 98, 101], [99, 111, 109]])) := by
    rw [hclean, Essential]
    decide
  obtain ⟨hroute, hreply⟩ := blocked_not_forwarded rfl (sinkholeFor_installed (by decide)) hrule
    (by decide) hname hends hess
  obtain ⟨reply, -, hreply⟩ := hreply (by decide)
  exact ⟨hroute, reply, hreply⟩

/-- A question for `" pool.ntp.org"`, a name with a blank in front. -/
def blankQuery : DNSMessage where
  questions := [{ qname := " pool.ntp.org", qtype := typeA }]

/-- A name that is not essential is let through as one that is. -/
theorem leading_blank_forwarded : ¬ ∀ (s : DomainSinkhole) (rule : Key) (data : Bytes)
    (pointers : List (Fin 16384)) (labels : List Bytes) (stop : Nat), s.allowlistMode = false →
    Installed asciiRuntime s → rule ∈ s.blockedTrees → get16 data 4 = some 1 →
    WireName data 12 pointers labels stop → EndsWith labels rule → ¬ Essential (nameOf labels) →
    ¬ ∃ msg, route asciiRuntime s data = .forward msg := by
  intro h
  have hdrop : blankQuery.wire.drop 12 = flatName [[32, 112, 111, 111, 108],
      [110, 116, 112], [111, 114, 103]] ++ [0, 1, 0, 1] := by decide
  have hname := wireName_flatName (by decide) hdrop
  have hrule : (["org".toList, "ntp".toList] : Key) ∈ (sinkholeFor ["ntp.org"]).blockedTrees :=
    mem_rulesOf.mpr ⟨"ntp.org", by decide, by decide⟩
  have hends : EndsWith [[32, 112, 111, 111, 108], [110, 116, 112], [111, 114, 103]]
      ["org".toList, "ntp".toList] :=
    ⟨[[32, 112, 111, 111, 108]], _, rfl, .cons (by unfold SameLabel; decide)
      (.cons (by unfold SameLabel; decide) .nil)⟩
  have hess : ¬ Essential (nameOf [[32, 112, 111, 111, 108], [110, 116, 112], [111, 114, 103]]) := by
    unfold Essential
    decide
  have hdecoded : DecodedName " pool.ntp.org".toList :=
    ⟨by unfold Decoded; decide, by decide, by decide⟩
  have hwf : blankQuery.WellFormed := by
    constructor <;> simp [blankQuery, DNSMessage.records]
    exact ⟨hdecoded, by decide, by decide⟩
  have hparse : parse blankQuery.wire = .ok blankQuery.undotted :=
    parse_wire hwf (by unfold AsciiNames; decide) (by unfold SolidNames Solid; decide)
  have hclean : cleanDomain asciiRuntime " pool.ntp.org".toList = "pool.ntp.org".toList := by
    decide
  have hpermitted : ((sinkholeFor ["ntp.org"]).isBlocked asciiRuntime
      " pool.ntp.org".toList).1 = false := by
    rw [← Bool.not_eq_true, isBlocked_iff rfl hdecoded.decoded, hclean]
    rintro ⟨-, hn, -⟩
    exact hn ⟨"pool.ntp.org", by decide, Text.under_refl _⟩
  have hquestions : blankQuery.undotted.questions =
      [{ qname := " pool.ntp.org".toList, qtype := typeA }] := by decide
  refine h _ _ _ _ _ _ rfl (sinkholeFor_installed (by decide)) hrule (by decide) hname hends
    hess ⟨blankQuery.undotted, ?_⟩
  simp only [route, hparse, hquestions, hpermitted]
  rfl

end FocusGuard

import FocusGuard.Dns.RoundTrip
import FocusGuard.Lib.Runs
import Mathlib.Data.Rat.Defs
import Mathlib.Algebra.Order.Field.Rat
import Mathlib.Logic.Function.Basic

/-!
# The upstream resolver and its cache

`focusguard/dns/resolver.py`. The cache keeps the bytes of a response and serves what its own
parser and serializer make of them. A call of `resolve` is suspended while it waits for an
upstream, so other calls may look up and store in between: what holds of the cache is
proved for runs of lookups and stores in any order.

## Main results

* `resolve_run`: a call of `resolve` is a lookup and at most one store.
* `CacheSound`: every entry parses and has an answer, in every cache that calls build up.
-/

namespace FocusGuard

open DNSMessage

/-- A host and a port. -/
abbrev Upstream := Text × Nat

def defaultUpstreams : List Upstream :=
  [("1.1.1.1".toList, 53), ("9.9.9.9".toList, 53), ("1.0.0.1".toList, 53),
    ("149.112.112.112".toList, 53)]

/-- What one call of `_query_udp` comes to. -/
inductive Outcome where
  | answer (data : Bytes)
  | timeout
  | osError

/-- What a call of `resolve` meets: the clock at the lookup and at the store, and what the
`i`-th attempt comes to, given the bytes that are sent and the server they are sent to. -/
structure Network where
  now : ℚ
  later : ℚ
  queryUdp : Nat → Bytes → Upstream → Outcome

structure CacheEntry where
  responseBytes : Bytes
  expiresAt : ℚ

/-- A lower-cased name and a type. -/
abbrev CacheKey := Text × Nat

structure DNSResolver where
  upstreams : List Upstream
  cacheEnabled : Bool
  cache : CacheKey → Option CacheEntry

/-- `DNSResolver(upstreams, cache_enabled)`; an empty list stands for no list. -/
def DNSResolver.init (upstreams : List Upstream) (cacheEnabled : Bool) : DNSResolver where
  upstreams := if upstreams = [] then defaultUpstreams else upstreams
  cacheEnabled := cacheEnabled
  cache _ := none

variable (rt : Runtime)

def getCacheKey (msg : DNSMessage) : Option CacheKey :=
  match msg.questions with
  | [] => none
  | q :: _ => some (rt.lower q.qname, q.qtype)

/-- The cached message under the id of the query. -/
def rewriteId (responseBytes : Bytes) (id : Nat) : Except PyError Bytes := do
  let cachedMsg ← parse responseBytes
  { cachedMsg with id := id }.toBytes

def getCachedResponse (msg : DNSMessage) (now : ℚ) : Exec PyError DNSResolver (Option Bytes) :=
  fun r =>
    if r.cacheEnabled then
      match getCacheKey rt msg with
      | none => (.ok none, r)
      | some key =>
        match r.cache key with
        | none => (.ok none, r)
        | some entry =>
          if now < entry.expiresAt then
            match rewriteId entry.responseBytes msg.id with
            | .ok reply => (.ok (some reply), r)
            | .error e => (.error e, r)
          else (.ok none, { r with cache := Function.update r.cache key none })
    else (.ok none, r)

/-- `min(r.ttl for r in answers)`, which is only asked for when there are answers. -/
def minTtl (answers : List DNSRecord) : Nat := (answers.map (·.ttl)).min?.getD 0

/-- `max(10, min(min_ttl, 3600))`. -/
def effectiveTtl (answers : List DNSRecord) : Nat := max 10 (min (minTtl answers) 3600)

/-- `store_cache`: a response that does not parse or has no answer is not stored. -/
def storeCache (msg : DNSMessage) (responseBytes : Bytes) (now : ℚ) :
    Exec PyError DNSResolver Unit := fun r =>
  if r.cacheEnabled then
    match getCacheKey rt msg, parse responseBytes with
    | some key, .ok parsed =>
      if parsed.answers = [] then (.ok (), r)
      else
        let entry := ⟨responseBytes, now + effectiveTtl parsed.answers⟩
        (.ok (), { r with cache := Function.update r.cache key (some entry) })
    | _, _ => (.ok (), r)
  else (.ok (), r)

/-- The loop over the upstreams: the first non-empty answer, from the `i`-th attempt on. -/
def queryUpstreams (net : Network) (queryBytes : Bytes) : List Upstream → Nat → Option Bytes
  | [], _ => none
  | upstream :: rest, i =>
    match net.queryUdp i queryBytes upstream with
    | .answer data => if data = [] then queryUpstreams net queryBytes rest (i + 1) else some data
    | .timeout | .osError => queryUpstreams net queryBytes rest (i + 1)

/-- The reply after all upstreams failed. -/
def servfail (msg : DNSMessage) : DNSMessage where
  id := msg.id
  qr := 1
  opcode := msg.opcode
  rd := msg.rd
  ra := 1
  rcode := rcodeServfail
  questions := msg.questions

def resolve (queryBytes : Bytes) (msg : DNSMessage) (net : Network) :
    Exec PyError DNSResolver Bytes := do
  match ← getCachedResponse rt msg net.now with
  | some cached => pure cached
  | none =>
    let r ← Exec.get
    match queryUpstreams net queryBytes r.upstreams 0 with
    | some response => do
      storeCache rt msg response net.later
      pure response
    | none => Exec.ofExcept (servfail msg).toBytes

/-! ## Lookups and stores -/

variable {rt} {r r' : DNSResolver} {msg : DNSMessage} {key : CacheKey} {now : ℚ}

theorem rewriteId_of_parse {response : Bytes} {m : DNSMessage} {id : Nat}
    (h : parse response = .ok m) :
    rewriteId response id = ({ m with id := id } : DNSMessage).toBytes := by
  rw [rewriteId, h]
  rfl

/-- The entry that a lookup is answered from. -/
def liveEntry (rt : Runtime) (r : DNSResolver) (msg : DNSMessage) (now : ℚ) : Option CacheEntry :=
  if r.cacheEnabled then
    ((getCacheKey rt msg).bind r.cache).filter fun entry => now < entry.expiresAt
  else none

theorem getCachedResponse_of_live {entry : CacheEntry} (h : liveEntry rt r msg now = some entry) :
    getCachedResponse rt msg now r = (match rewriteId entry.responseBytes msg.id with
      | .ok reply => (.ok (some reply), r)
      | .error e => (.error e, r)) := by
  unfold liveEntry at h
  split at h
  · next hen =>
    obtain ⟨hb, hlive⟩ := Option.filter_eq_some_iff.mp h
    obtain ⟨key, hk, he⟩ := Option.bind_eq_some_iff.mp hb
    have hlt : now < entry.expiresAt := by simpa using hlive
    simp only [getCachedResponse, hen, hk, he, hlt, if_true]
  · cases h

theorem getCachedResponse_of_not_live (h : liveEntry rt r msg now = none) :
    (getCachedResponse rt msg now r).1 = .ok none := by
  unfold liveEntry at h
  unfold getCachedResponse
  split at h
  · next hen =>
    rw [if_pos hen]
    split
    · rfl
    · next key hk =>
      split
      · rfl
      · next entry he =>
        split
        · next hlt =>
          have hle : entry.expiresAt ≤ now := by simpa [hk, he] using h
          exact absurd hlt (not_lt.mpr hle)
        · rfl
  · next hen => rw [if_neg hen]

/-- A lookup deletes at most the entry it found expired. -/
theorem getCachedResponse_state (rt : Runtime) (msg : DNSMessage) (now : ℚ) (r : DNSResolver) :
    (getCachedResponse rt msg now r).2 = r ∨
    ∃ key entry, getCacheKey rt msg = some key ∧ r.cache key = some entry ∧
      ¬ now < entry.expiresAt ∧
      (getCachedResponse rt msg now r).2 = { r with cache := Function.update r.cache key none } := by
  unfold getCachedResponse
  split
  · split
    · exact .inl rfl
    · next key hk =>
      split
      · exact .inl rfl
      · next entry he =>
        split
        · split <;> exact .inl rfl
        · next hexp => exact .inr ⟨key, entry, hk, he, hexp, rfl⟩
  · exact .inl rfl

/-- A store replaces at most the entry of its own key, by a response with an answer. -/
theorem storeCache_state (rt : Runtime) (msg : DNSMessage) (response : Bytes) (now : ℚ)
    (r : DNSResolver) : (storeCache rt msg response now r).2 = r ∨
    ∃ key parsed, getCacheKey rt msg = some key ∧ parse response = .ok parsed ∧
      parsed.answers ≠ [] ∧
      (storeCache rt msg response now r).2 = { r with
        cache := Function.update r.cache key
          (some ⟨response, now + effectiveTtl parsed.answers⟩) } := by
  unfold storeCache
  split
  · split
    · next key parsed hk hp =>
      split
      · exact .inl rfl
      · next hne => exact .inr ⟨key, parsed, hk, hp, hne, rfl⟩
    · exact .inl rfl
  · exact .inl rfl

/-- A lookup leaves no entry that was not there. -/
theorem cache_of_getCachedResponse {entry : CacheEntry}
    (h : (getCachedResponse rt msg now r).2.cache key = some entry) :
    r.cache key = some entry := by
  rcases getCachedResponse_state rt msg now r with hr | ⟨k, -, -, -, -, hr⟩
  · rwa [hr] at h
  · rw [hr] at h
    dsimp only at h
    by_cases hkey : key = k
    · simp [hkey] at h
    · rwa [Function.update_of_ne hkey] at h

/-- An entry behind a store was there before, or it is the response. -/
theorem cache_of_storeCache {response : Bytes} {entry : CacheEntry}
    (h : (storeCache rt msg response now r).2.cache key = some entry) :
    r.cache key = some entry ∨ ∃ parsed, getCacheKey rt msg = some key ∧
      parse response = .ok parsed ∧ parsed.answers ≠ [] ∧
      entry = ⟨response, now + effectiveTtl parsed.answers⟩ := by
  rcases storeCache_state rt msg response now r with hr | ⟨k, parsed, hk, hp, hne, hr⟩
  · rw [hr] at h
    exact .inl h
  · rw [hr] at h
    dsimp only at h
    by_cases hkey : key = k
    · subst hkey
      rw [Function.update_self] at h
      exact .inr ⟨parsed, hk, hp, hne, (Option.some.inj h).symm⟩
    · rw [Function.update_of_ne hkey] at h
      exact .inl h

theorem storeCache_upstreams (rt : Runtime) (msg : DNSMessage) (response : Bytes) (now : ℚ)
    (r : DNSResolver) : (storeCache rt msg response now r).2.upstreams = r.upstreams := by
  rcases storeCache_state rt msg response now r with h | ⟨key, parsed, -, -, -, h⟩
  · rw [h]
  · rw [h]

theorem storeCache_ok {response : Bytes} :
    storeCache rt msg response now r = (.ok (), (storeCache rt msg response now r).2) := by
  unfold storeCache
  repeat' split
  all_goals rfl

/-! ## What a call of `resolve` does -/

theorem resolve_of_live {queryBytes : Bytes} {net : Network} {entry : CacheEntry}
    (h : liveEntry rt r msg net.now = some entry) :
    resolve rt queryBytes msg net r = (rewriteId entry.responseBytes msg.id, r) := by
  have hg := getCachedResponse_of_live h
  cases hr : rewriteId entry.responseBytes msg.id with
  | ok reply =>
    rw [hr] at hg
    exact Exec.bind_of_ok hg
  | error e =>
    rw [hr] at hg
    exact Exec.bind_of_error hg

theorem getCachedResponse_upstreams (rt : Runtime) (msg : DNSMessage) (now : ℚ)
    (r : DNSResolver) : (getCachedResponse rt msg now r).2.upstreams = r.upstreams := by
  rcases getCachedResponse_state rt msg now r with h | ⟨key, entry, -, -, -, h⟩
  · rw [h]
  · rw [h]

/-- Past the cache, the call returns the answer of an upstream or a `SERVFAIL`. -/
theorem resolve_of_not_live {queryBytes : Bytes} {net : Network}
    (h : liveEntry rt r msg net.now = none) :
    resolve rt queryBytes msg net r = (match queryUpstreams net queryBytes r.upstreams 0 with
      | some response => (.ok response,
          (storeCache rt msg response net.later (getCachedResponse rt msg net.now r).2).2)
      | none => ((servfail msg).toBytes, (getCachedResponse rt msg net.now r).2)) := by
  have hg : getCachedResponse rt msg net.now r =
      (.ok none, (getCachedResponse rt msg net.now r).2) :=
    Prod.ext (getCachedResponse_of_not_live h) rfl
  have hu := getCachedResponse_upstreams rt msg net.now r
  refine (Exec.bind_of_ok hg).trans ((Exec.bind_of_ok (Exec.get_apply _)).trans ?_)
  rw [hu]
  cases queryUpstreams net queryBytes r.upstreams 0 with
  | some response => exact (Exec.bind_of_ok storeCache_ok).trans rfl
  | none => rfl

/-! ## The cache over runs -/

/-- The two ways in which a call of `resolve` reads or writes the cache, each in one go. -/
inductive CacheEvent where
  | lookup (msg : DNSMessage) (now : ℚ)
  | store (msg : DNSMessage) (response : Bytes) (now : ℚ)

def CacheStep (rt : Runtime) (r : DNSResolver) (e : CacheEvent) (r' : DNSResolver) : Prop :=
  match e with
  | .lookup msg now => r' = (getCachedResponse rt msg now r).2
  | .store msg response now => r' = (storeCache rt msg response now r).2

/-- A call of `resolve` is a lookup and at most one store. -/
theorem resolve_run (rt : Runtime) (queryBytes : Bytes) (msg : DNSMessage) (net : Network)
    (r : DNSResolver) : ∃ es, Run (CacheStep rt) r es (resolve rt queryBytes msg net r).2 := by
  have hlookup : CacheStep rt r (.lookup msg net.now) (getCachedResponse rt msg net.now r).2 := rfl
  cases hlive : liveEntry rt r msg net.now with
  | some entry =>
    rw [resolve_of_live hlive]
    exact ⟨[], .nil r⟩
  | none =>
    rw [resolve_of_not_live hlive]
    cases queryUpstreams net queryBytes r.upstreams 0 with
    | some response => exact ⟨[_, .store msg response net.later], .cons hlookup (.single rfl)⟩
    | none => exact ⟨[_], .single hlookup⟩

/-- A cache that calls of `resolve` built up from nothing, interleaved in any way. -/
def BuiltUp (rt : Runtime) : DNSResolver → Prop :=
  Reachable (fun r => ∃ upstreams enabled, r = DNSResolver.init upstreams enabled) (CacheStep rt)
    fun _ => True

/-- Every entry parses and has an answer. -/
def CacheSound (r : DNSResolver) : Prop :=
  ∀ key entry, r.cache key = some entry →
    ∃ m, parse entry.responseBytes = .ok m ∧ m.answers ≠ []

theorem CacheStep.sound {e : CacheEvent} (h : CacheStep rt r e r') (hs : CacheSound r) :
    CacheSound r' := by
  cases e with
  | lookup msg now =>
    obtain rfl : r' = _ := h
    exact fun key entry hk => hs key entry (cache_of_getCachedResponse hk)
  | store msg response now =>
    obtain rfl : r' = _ := h
    intro key entry hk
    rcases cache_of_storeCache hk with hk | ⟨parsed, -, hp, hne, rfl⟩
    · exact hs key entry hk
    · exact ⟨parsed, hp, hne⟩

theorem BuiltUp.sound (h : BuiltUp rt r) : CacheSound r := by
  refine Reachable.invariant ?_ (fun _ _ _ _ hs hst => CacheStep.sound hst hs) h
  rintro _ ⟨upstreams, enabled, rfl⟩ key entry hk
  cases hk

theorem liveEntry_mem {entry : CacheEntry} (h : liveEntry rt r msg now = some entry) :
    ∃ key, getCacheKey rt msg = some key ∧ r.cache key = some entry := by
  unfold liveEntry at h
  split at h
  · obtain ⟨hb, -⟩ := Option.filter_eq_some_iff.mp h
    exact Option.bind_eq_some_iff.mp hb
  · cases h

end FocusGuard

import FocusGuard.Core.Normalizer
import Mathlib.Data.Finset.Insert

/-!
# The sinkhole

`focusguard/dns/sinkhole.py`. A rule is the label sequence of a normalized domain in reverse,
so that a domain is covered by a rule when the rule is a prefix of the domain's own key.
-/

namespace FocusGuard

/-- A reversed label tuple such as `('com', 'youtube')`. -/
abbrev Key := List Text

def essentialSystemDomains : List Text := ["localhost", "dietpi.com", "debian.org",
  "archive.ubuntu.com", "pool.ntp.org", "time.google.com", "time.windows.com", "time.apple.com",
  "time.cloudflare.com"]

def dohBootstrapDomains : List Text := ["cloudflare-dns.com", "one.one.one.one", "dns.google",
  "dns.google.com", "dns.quad9.net", "dns.adguard.com", "doh.cleanbrowsing.org",
  "doh.mullvad.net", "doh.opendns.com"]

structure DomainSinkhole where
  blockDoh : Bool
  blockedTrees : Finset Key
  allowedTrees : Finset Key
  allowlistMode : Bool

variable (rt : Runtime)

/-- `domain.strip(". \t\r\n").lower()`. -/
def cleanDomain (domain : Text) : Text := rt.lower (Text.stripBy isDomainBlank domain)

/-- `'www.youtube.com'` becomes `('com', 'youtube', 'www')`. -/
def domainToKey (domain : Text) : Key := ((cleanDomain rt domain).splitOn '.').reverse

/-- `_add_rule`: a domain that does not normalize is skipped, any other exception gets out. -/
def addRule (domain : Text) (target : Finset Key) : Except PyError (Finset Key) :=
  match normalizeText rt domain with
  | .ok norm => .ok (insert (domainToKey rt norm) target)
  | .error (.invalidDomain _) => .ok target
  | .error e => .error e

def addRules : List Text → Finset Key → Except PyError (Finset Key)
  | [], target => .ok target
  | d :: rest, target =>
    match addRule rt d target with
    | .ok target => addRules rest target
    | .error e => .error e

/-- Whether a non-empty prefix of `key` is a rule. -/
def matchesTree (key : Key) (treeSet : Finset Key) : Bool :=
  (List.range key.length).any fun i => key.take (i + 1) ∈ treeSet

namespace DomainSinkhole

/-- The rule set that `set_blocked_domains(domains)` computes before it installs it. -/
def blockedRules (blockDoh : Bool) (domains : List Text) : Except PyError (Finset Key) :=
  match addRules rt (if blockDoh then dohBootstrapDomains else []) ∅ with
  | .ok trees => addRules rt domains trees
  | .error e => .error e

def allowedRules (domains : List Text) : Except PyError (Finset Key) :=
  match addRules rt essentialSystemDomains ∅ with
  | .ok trees => addRules rt domains trees
  | .error e => .error e

/-- `DomainSinkhole(block_doh)`. -/
def init (blockDoh : Bool) : Except PyError DomainSinkhole :=
  match addRules rt (if blockDoh then dohBootstrapDomains else []) ∅ with
  | .ok trees => .ok ⟨blockDoh, trees, ∅, false⟩
  | .error e => .error e

def setBlockedDomains (domains : List Text) : Exec PyError DomainSinkhole Unit := do
  let s ← Exec.get
  let trees ← Exec.ofExcept (blockedRules rt s.blockDoh domains)
  Exec.modify fun s => { s with blockedTrees := trees }

def setAllowedDomains (domains : List Text) : Exec PyError DomainSinkhole Unit := do
  let trees ← Exec.ofExcept (allowedRules rt domains)
  Exec.modify fun s => { s with allowedTrees := trees }

/-- `is_blocked(query_domain)`: the verdict and its reason. -/
def isBlocked (s : DomainSinkhole) (queryDomain : Text) : Bool × Text :=
  let clean := cleanDomain rt queryDomain
  if clean = [] then (false, "empty_query")
  else
    let key := domainToKey rt clean
    if essentialSystemDomains.any fun d => matchesTree key {domainToKey rt d} then
      (false, "system_essential")
    else if s.allowlistMode then
      if matchesTree key s.allowedTrees then (false, "allowlist_permitted")
      else (true, "not_in_allowlist")
    else if matchesTree key s.blockedTrees then (true, "blocked_by_policy")
    else (false, "permitted")

end DomainSinkhole

end FocusGuard

import FocusGuard.Lib.InstantOrder
import FocusGuard.Service.AuditTrail

/-!
# Reading the event log

What an auditor makes of the rows of the log. Every entry about the policy is read back from its
text, and an entry says what it changes.

## Main definitions

* `FocusPolicy`, `AuditEntry`: what the log tells, and one entry of it.
* `readEntry`: the entry that a row of the log stands for.
* `replay`: the policy after some rows.
-/

namespace FocusGuard

open Calendar PolicyEngine

/-! ## Entries -/

/-- The permanent lists, and the recorded end of the session, if there is one. -/
structure FocusPolicy where
  domains : List Text
  services : List Text
  lockedUntil : Option Text

inductive AuditEntry where
  | added (domains : List Text)
  | removed (domain : Text)
  | blocked (service : Text)
  | unblocked (service : Text)
  | locked (expiresAt : Text)
  | resumed (expiresAt : Text)
  | restored

/-- The identifier of the service with this name. -/
def serviceNamed (name : Text) : Option Text :=
  (serviceRegistry.find? fun svc => svc.name = name).map ServiceDefinition.id

namespace AuditEntry

def apply : AuditEntry → FocusPolicy → FocusPolicy
  | .added domains, p => { p with domains := (appendMissing p.domains domains).1 }
  | .removed domain, p => { p with domains := p.domains.erase domain }
  | .blocked service, p => { p with services := p.services ++ (serviceNamed service).toList }
  | .unblocked service, p =>
    { p with services := (serviceNamed service).elim p.services p.services.erase }
  | .locked expiresAt, p | .resumed expiresAt, p => { p with lockedUntil := some expiresAt }
  | .restored, p => { p with lockedUntil := none }

def IsLocked : AuditEntry → Prop
  | .locked _ => True
  | _ => False

/-- The entry is not about a change but about a restart. -/
def IsResumed : AuditEntry → Prop
  | .resumed _ => True
  | _ => False

end AuditEntry

/-- The members of a list that is separated by commas and blanks. -/
def readList (t : Text) : List Text :=
  match t.splitOn ',' with
  | [] => []
  | d :: rest => d :: rest.map List.tail

/-- What a row about the permanent rules stands for. -/
def readPolicyEntry (action details : Text) : Option AuditEntry :=
  if action = ("add_domain" : Text) then
    some (.added (readList (details.drop ("Added: " : Text).length)))
  else if action = ("remove_domain" : Text) then
    some (.removed (details.drop ("Removed: " : Text).length))
  else if action = ("block_service" : Text) then
    some (.blocked (details.drop ("Permanently blocked service: " : Text).length))
  else if action = ("unblock_service" : Text) then
    some (.unblocked (details.drop ("Unblocked service: " : Text).length))
  else none

/-- What a row about the session stands for. -/
def readSessionEntry (action details : Text) : Option AuditEntry :=
  if action = ("start_locked_session" : Text) then
    some (.locked ((details.drop ("Locked until " : Text).length).takeWhile (· ≠ ' ')))
  else if action = ("reboot_resumed_locked" : Text) then
    some (.resumed (details.drop ("Resumed active locked session until " : Text).length).dropLast)
  else if action = ("expired_auto_restored" : Text) ∨
      action = ("reboot_recovered_expired" : Text) then
    some .restored
  else none

def readEntry (row : LogEvent) : Option AuditEntry :=
  if row.category = ("policy" : Text) then readPolicyEntry row.action row.details
  else if row.category = ("session" : Text) then readSessionEntry row.action row.details
  else none

/-- Rows that are no entries are passed over. -/
def replay (p : FocusPolicy) (rows : List LogEvent) : FocusPolicy :=
  rows.foldl (fun p row => (readEntry row).elim p fun entry => entry.apply p) p

/-! ## Reading what was recorded -/

variable {ts normalized details : Text} {added : List Text} {t : Instant}

theorem join_cons_char (sep c : Char) (d : Text) (l : List Text) :
    Text.join sep ((c :: d) :: l) = c :: Text.join sep (d :: l) := by
  cases l with
  | nil => simp
  | cons e l => rw [Text.join_cons_cons, Text.join_cons_cons, List.cons_append]

theorem intercalate_eq_join (d : Text) (l : List Text) :
    (", " : Text).intercalate (d :: l) = Text.join ',' (d :: l.map (' ' :: ·)) := by
  induction l generalizing d with
  | nil => simp [List.intercalate]
  | cons e l ih =>
    have hcons : (", " : Text).intercalate (d :: e :: l) =
        d ++ ',' :: ' ' :: (", " : Text).intercalate (e :: l) := by
      simp [List.intercalate]
    rw [hcons, ih, List.map_cons, Text.join_cons_cons, join_cons_char]

theorem readList_intercalate (hne : added ≠ []) (h : ∀ d ∈ added, ',' ∉ d) :
    readList ((", " : Text).intercalate added) = added := by
  cases added with
  | nil => exact absurd rfl hne
  | cons d l =>
    have hcommas : ∀ t ∈ d :: l.map (' ' :: ·), ',' ∉ t := by
      intro t ht
      rcases List.mem_cons.mp ht with rfl | ht
      · exact h _ List.mem_cons_self
      · obtain ⟨e, he, rfl⟩ := List.mem_map.mp ht
        simp [h e (List.mem_cons_of_mem d he)]
    rw [readList, intercalate_eq_join, Text.splitOn_join_of_notMem hcommas (List.cons_ne_nil _ _)]
    simp [Function.comp_def]

theorem readEntry_added (hn : ',' ∉ normalized) (h : ∀ d ∈ added, ',' ∉ d) :
    readEntry ⟨ts, "policy", "add_domain", AuditedEngine.addedDetails normalized added⟩ =
      some (.added (if added = [] then [normalized] else added)) := by
  have hread : readList (if added = [] then normalized else (", " : Text).intercalate added) =
      if added = [] then [normalized] else added := by
    by_cases hadded : added = []
    · have hsingle : readList ((", " : Text).intercalate [normalized]) = [normalized] :=
        readList_intercalate (by simp) (by simpa using hn)
      rw [if_pos hadded, if_pos hadded, ← hsingle]
      simp [List.intercalate]
    · rw [if_neg hadded, if_neg hadded, readList_intercalate hadded h]
  rw [← hread]
  unfold AuditedEngine.addedDetails
  simp [readEntry, readPolicyEntry]

theorem readEntry_removed :
    readEntry ⟨ts, "policy", "remove_domain", ("Removed: " : Text) ++ normalized⟩ =
      some (.removed normalized) := by
  simp [readEntry, readPolicyEntry]

theorem readEntry_blocked {name : Text} :
    readEntry ⟨ts, "policy", "block_service", ("Permanently blocked service: " : Text) ++ name⟩ =
      some (.blocked name) := by
  simp [readEntry, readPolicyEntry]

theorem readEntry_unblocked {name : Text} :
    readEntry ⟨ts, "policy", "unblock_service", ("Unblocked service: " : Text) ++ name⟩ =
      some (.unblocked name) := by
  simp [readEntry, readPolicyEntry]

theorem readEntry_resumed {expiresAt : Text} :
    readEntry ⟨ts, "session", "reboot_resumed_locked",
      AuditedEngine.resumedDetails (some expiresAt)⟩ = some (.resumed expiresAt) := by
  unfold AuditedEngine.resumedDetails
  simp [readEntry, readSessionEntry]

theorem readEntry_restored {action : Text} (h : action = ("expired_auto_restored" : Text) ∨
    action = ("reboot_recovered_expired" : Text)) :
    readEntry ⟨ts, "session", action, details⟩ = some .restored := by
  rcases h with rfl | rfl
  · simp [readEntry, readSessionEntry]
  · simp [readEntry, readSessionEntry]

theorem notMem_pad {w n : Nat} (h : n < 10 ^ w) : ' ' ∉ pad w n := by
  have hdigit : ∀ d < 10, Nat.digitChar d ≠ ' ' := by decide
  induction w generalizing n with
  | zero => exact List.not_mem_nil
  | succ w ih =>
    rw [pow_succ, Nat.mul_comm] at h
    rw [pad, List.mem_cons, not_or]
    exact ⟨(hdigit _ (Nat.div_lt_of_lt_mul (Nat.mul_comm _ _ ▸ h))).symm,
      ih (Nat.mod_lt _ (by positivity))⟩

/-- The text of an instant has no blank. -/
theorem notMem_isoformat (t : Instant) : ' ' ∉ isoformat t := by
  have hrange := t.inRange
  simp only [representable, decide_eq_true_eq] at hrange
  obtain ⟨hm, hm', hd, hd'⟩ := civilFromDays_bounds (t.micros / microsPerDay)
  have hclock : (t.micros % microsPerDay).toNat < 86400000000 := by
    unfold microsPerDay
    omega
  have hfraction : ' ' ∉ (if (t.micros % microsPerDay).toNat % 1000000 = 0 then []
      else '.' :: pad 6 ((t.micros % microsPerDay).toNat % 1000000)) := by
    split
    · exact List.not_mem_nil
    · simpa using notMem_pad (w := 6) (by omega)
  unfold isoformat dateText clockText
  simp only [List.mem_append, List.mem_cons, not_or]
  refine ⟨⟨notMem_pad (by omega), by decide, notMem_pad (by omega), by decide,
    notMem_pad (by omega)⟩, by decide, ⟨notMem_pad (by omega), by decide, notMem_pad (by omega),
    by decide, notMem_pad (by omega), hfraction⟩, by decide⟩

theorem readEntry_locked (domains services : Nat) :
    readEntry ⟨ts, "session", "start_locked_session",
      AuditedEngine.lockedDetails (isoformat t) domains services⟩ =
        some (.locked (isoformat t)) := by
  have htake : ∀ rest, (isoformat t ++ ' ' :: '(' :: rest).takeWhile (· ≠ ' ') = isoformat t := by
    intro rest
    apply Text.takeWhile_append_stop
    · exact fun c hc => decide_eq_true fun hb => notMem_isoformat t (hb ▸ hc)
    · simp
  unfold AuditedEngine.lockedDetails
  simpa [readEntry, readSessionEntry] using htake _

/-- A row of the DNS server is no entry. -/
theorem readEntry_query {action : Text} : readEntry ⟨ts, "dns_block", action, details⟩ = none := by
  simp [readEntry]

theorem serviceNamed_name : ∀ svc ∈ serviceRegistry, serviceNamed svc.name = some svc.id := by
  decide

end FocusGuard

import FocusGuard.Service.AuditOutcome

/-!
# Replaying the event log

The entries of the log together tell the permanent domains and services and when the session ends,
whatever was called, however often the daemon was restarted, and whatever the DNS server recorded
between.

## Main results

* `trail_replays`: the policy in force is the one that the log tells.
* `trail_shows_lock`: after a lock until `u`, all entries but those of restarts are from `u` on.
-/

namespace FocusGuard

open Calendar PolicyEngine

/-! ## Runs -/

def PolicyEvent.env : PolicyEvent → CallEnv
  | .call env _ | .tick env | .restart env => env

/-- Every write of the state file that the event makes succeeds. -/
def AuditEvent.SavesSucceed : AuditEvent → Prop
  | .policy ev => ev.env.saveOk = true
  | _ => True

variable {rt : Runtime} {env : CallEnv} {a a' : AuditedEngine}

theorem step_accounts {ev : PolicyEvent} (ha : OnRecord rt a.engine) (hs : ev.env.saveOk = true)
    (hlog : a.logStore.Bounded) (h : AuditedEngine.Step rt a (.policy ev) a') :
    Accounts rt ev.env a a' := by
  cases ev with
  | call env op =>
    obtain rfl := Option.some.inj h
    exact accounts_run ha hs hlog op
  | tick env =>
    obtain rfl := Option.some.inj h
    exact accounts_tick ha hs hlog
  | restart env => exact accounts_start ha hs hlog (AuditedEngine.start_of_step h)

/-- The log keeps the last of all rows that were recorded, and has counted them. -/
structure Keeps (s : EventLogStore) (all : List LogEvent) : Prop where
  bounded : s.Bounded
  values : s.events.values = all.rtake s.maxEntries.toNat
  count : s.events.lastId = all.length

variable {s : EventLogStore} {all : List LogEvent}

theorem Keeps.empty (h : s.Bounded) (hnew : s.events = .empty) : Keeps s [] := by
  refine ⟨h, ?_, ?_⟩
  · rw [hnew, List.rtake_nil]
    rfl
  · rw [hnew]
    rfl

theorem Keeps.record (h : Keeps s all) (now : Instant) (category action details : Text) :
    Keeps (EventLogStore.record now category action details s).2
      (all ++ [⟨isoformat now, category, action, details⟩]) := by
  rw [EventLogStore.record_apply _ _ _ _ h.bounded.1]
  exact ⟨h.bounded, SqlTable.values_insert_keepNewest h.values _,
    by simp [SqlTable.keepNewest, SqlTable.delete, SqlTable.insert, h.count]⟩

theorem Keeps.recordFlow (h : Keeps s all) (rt : Runtime) (now : Instant) (clientIp domain : Text)
    (qtype : Int) (action reason : Text) (sessionId timestamp : Option Text) :
    Keeps (EventLogStore.recordFlow rt now clientIp domain qtype action reason sessionId
      timestamp s).2 all := by
  by_cases hq : InRange qtype
  · rw [EventLogStore.recordFlow_apply _ _ _ _ _ _ _ hq h.bounded.2]
    exact ⟨h.bounded, h.values, h.count⟩
  · rw [EventLogStore.recordFlow_raises _ _ _ _ _ _ _ fun h' => hq h'.1]
    exact h

theorem Enters.keeps {entry : AuditEntry} (h : Enters env a a' entry)
    (hkeeps : Keeps a.logStore all) : ∃ row, row.timestamp = isoformat (env.clock 4) ∧
      readEntry row = some entry ∧ Keeps a'.logStore (all ++ [row]) := by
  obtain ⟨category, action, details, hlog, hread⟩ := h
  exact ⟨_, rfl, hread, hlog ▸ hkeeps.record _ _ _ _⟩

/-- What an event adds to the rows, and what that says of the policy. -/
theorem step_replays {ev : AuditEvent} (ha : OnRecord rt a.engine) (hkeeps : Keeps a.logStore all)
    (hs : ev.SavesSucceed) (h : AuditedEngine.Step rt a ev a') :
    OnRecord rt a'.engine ∧ ((Keeps a'.logStore all ∧
        a'.engine.focusPolicy = a.engine.focusPolicy) ∨
      ∃ row, Keeps a'.logStore (all ++ [row]) ∧
        a'.engine.focusPolicy = replay a.engine.focusPolicy [row]) := by
  cases ev with
  | policy ev =>
    obtain ⟨houtcome, ha'⟩ := step_accounts ha hs hkeeps.bounded h
    refine ⟨ha', ?_⟩
    cases houtcome with
    | silent hlog hpolicy => exact .inl ⟨hlog ▸ hkeeps, hpolicy⟩
    | resumes x hentry hpolicy =>
      obtain ⟨row, -, hread, hkeeps'⟩ := hentry.keeps hkeeps
      exact .inr ⟨row, hkeeps', by simp [replay, hread, hpolicy]⟩
    | enters entry hentry hpolicy =>
      obtain ⟨row, -, hread, hkeeps'⟩ := hentry.keeps hkeeps
      exact .inr ⟨row, hkeeps', by simp [replay, hread, hpolicy]⟩
  | blocked now clientIp domain =>
    obtain rfl := Option.some.inj h
    refine ⟨ha, .inr ⟨_, hkeeps.record now _ _ _, ?_⟩⟩
    rw [replay, List.foldl_cons, readEntry_query]
    rfl
  | flow now clientIp domain qtype action reason =>
    obtain rfl := Option.some.inj h
    exact ⟨ha, .inl ⟨hkeeps.recordFlow rt now clientIp domain qtype action reason _ none, rfl⟩⟩

variable {es : List AuditEvent}

/-- The last `n` rows tell what became of the policy since the state in which all rows before them
had been recorded. -/
def TellsSince (rt : Runtime) (a : AuditedEngine) (es : List AuditEvent) (a' : AuditedEngine)
    (all : List LogEvent) (n : Nat) : Prop :=
  ∃ es₁ b es₂, es = es₁ ++ es₂ ∧ Run (AuditedEngine.Step rt) a es₁ b ∧
    Run (AuditedEngine.Step rt) b es₂ a' ∧
    b.logStore.events.lastId + (all.rtake n).length = all.length ∧
    replay b.engine.focusPolicy (all.rtake n) = a'.engine.focusPolicy ∧ (all.length ≤ n → es₁ = [])

theorem replay_append (p : FocusPolicy) (rows rows' : List LogEvent) :
    replay p (rows ++ rows') = replay (replay p rows) rows' := List.foldl_append

theorem run_replays (ha : OnRecord rt a.engine) (hkeeps : Keeps a.logStore [])
    (hrun : Run (AuditedEngine.Step rt) a es a') (hes : ∀ ev ∈ es, ev.SavesSucceed) :
    OnRecord rt a'.engine ∧ ∃ all, Keeps a'.logStore all ∧ ∀ n, TellsSince rt a es a' all n := by
  refine hrun.history (I := fun es b => (∀ ev ∈ es, ev.SavesSucceed) →
    Run (AuditedEngine.Step rt) a es b ∧ OnRecord rt b.engine ∧
      ∃ all, Keeps b.logStore all ∧ ∀ n, TellsSince rt a es b all n) ?_ ?_ hes |>.2
  · rintro es b ev b' ih hstep hes
    obtain ⟨hbefore, hb, all, hkeeps, htells⟩ :=
      ih fun ev hev => hes ev (List.mem_append_left _ hev)
    have hrun' := hbefore.append (.single hstep)
    obtain ⟨hb', ⟨hkeeps', hpolicy⟩ | ⟨row, hkeeps', hpolicy⟩⟩ :=
      step_replays hb hkeeps (hes ev (by simp)) hstep
    · refine ⟨hrun', hb', all, hkeeps', fun n => ?_⟩
      obtain ⟨es₁, c, es₂, rfl, h₁, h₂, hlast, hreplay, hnil⟩ := htells n
      exact ⟨es₁, c, es₂ ++ [ev], List.append_assoc _ _ _, h₁, h₂.append (.single hstep), hlast,
        hreplay.trans hpolicy.symm, hnil⟩
    · refine ⟨hrun', hb', all ++ [row], hkeeps', fun n => ?_⟩
      cases n with
      | zero =>
        refine ⟨es ++ [ev], b', [], by simp, hrun', .nil b', ?_, ?_, by simp⟩
        · rw [List.rtake_zero]
          exact hkeeps'.count
        · rw [List.rtake_zero]
          rfl
      | succ n =>
        obtain ⟨es₁, c, es₂, rfl, h₁, h₂, hlast, hreplay, hnil⟩ := htells n
        refine ⟨es₁, c, es₂ ++ [ev], List.append_assoc _ _ _, h₁, h₂.append (.single hstep), ?_, ?_,
          fun hle => hnil (by simpa using hle)⟩
        · rw [List.rtake_concat_succ, List.length_append, List.length_append, ← hlast]
          exact (Nat.add_assoc _ _ _).symm
        · rw [List.rtake_concat_succ, replay_append, hreplay, hpolicy]
  · intro _
    refine ⟨.nil a, ha, [], hkeeps, fun n =>
      ⟨[], a, [], rfl, .nil a, .nil a, ?_, ?_, fun _ => rfl⟩⟩
    · rw [List.rtake_nil]
      exact hkeeps.count
    · rw [List.rtake_nil]
      rfl

/-- In every run from a new log, whatever is called, however often the daemon is restarted and
whatever the DNS server records between: the rows that the log has kept, read back in their order,
lead from the policy at the moment when exactly the rows before them had been recorded to the policy
in force. Where no row has been dropped yet that is the policy at the start. -/
theorem trail_replays (ha : OnRecord rt a.engine) (hlog : a.logStore.Bounded)
    (hnew : a.logStore.events = .empty) (hrun : Run (AuditedEngine.Step rt) a es a')
    (hes : ∀ ev ∈ es, ev.SavesSucceed) :
    ∃ es₁ b es₂, es = es₁ ++ es₂ ∧ Run (AuditedEngine.Step rt) a es₁ b ∧
      Run (AuditedEngine.Step rt) b es₂ a' ∧
      b.logStore.events.lastId + a'.logStore.events.values.length = a'.logStore.events.lastId ∧
      replay b.engine.focusPolicy a'.logStore.events.values = a'.engine.focusPolicy ∧
      (a'.logStore.events.lastId ≤ a'.logStore.maxEntries → es₁ = []) := by
  obtain ⟨-, all, hkeeps', htells⟩ := run_replays ha (.empty hlog hnew) hrun hes
  obtain ⟨es₁, b, es₂, hes', h₁, h₂, hlast, hreplay, hnil⟩ := htells a'.logStore.maxEntries.toNat
  refine ⟨es₁, b, es₂, hes', h₁, h₂, ?_, hkeeps'.values ▸ hreplay, fun hle => hnil ?_⟩
  · rw [hkeeps'.values, hkeeps'.count]
    exact hlast
  · rw [hkeeps'.count] at hle
    omega

/-- An engine that has come up on an empty directory, with a new log. -/
theorem exists_onRecord (rt : Runtime) : ∃ e, OnRecord rt e ∧ e.session = {} := by
  obtain ⟨e, he, hsession, -⟩ := startEngine_empty rt (envAt ten) rfl
  refine ⟨e, .of_synced (startEngine_synced he) fun h => ?_, hsession⟩
  rw [hsession] at h
  exact absurd rfl h

theorem bounded_new : EventLogStore.Bounded {} := ⟨by decide, by decide⟩

/-- YouTube is added, and a query for it is blocked. -/
theorem trail_replays_youtube : ∃ (a a' b : AuditedEngine) (es : List AuditEvent),
    Run (AuditedEngine.Step asciiRuntime) a es a' ∧
      b.logStore.events.lastId + a'.logStore.events.values.length = a'.logStore.events.lastId ∧
      replay b.engine.focusPolicy a'.logStore.events.values = a'.engine.focusPolicy ∧
      "youtube.com".toList ∈ a'.engine.focusPolicy.domains := by
  obtain ⟨e, he, hsession⟩ := exists_onRecord asciiRuntime
  have hn : normalizeDomain asciiRuntime (.str "youtube.com") = .ok "youtube.com".toList := by
    decide
  have hidle : ¬ e.session.isLocked = true := by
    rw [hsession]
    decide
  obtain ⟨domains, e₁, hcall⟩ : ∃ domains e₁, PolicyEngine.addPermanentDomain asciiRuntime
      (envAt ten) (.str "youtube.com") true e = (.ok domains, e₁) := by
    obtain ⟨⟨m, -, hcall⟩, -⟩ := addPermanentDomain_run (envAt ten) he.coherent hidle hn
      (show appendMissing e.config.permanentDomains ("youtube.com".toList :: if true then
        getCompanionDomains asciiRuntime "youtube.com".toList else []) = (_, _) from rfl)
    exact ⟨_, _, hcall⟩
  obtain ⟨a₁, hadd⟩ : ∃ a₁, AuditedEngine.Step asciiRuntime ⟨e, {}⟩
      (.policy (.call (envAt ten) (.addPermanentDomain (.str "youtube.com") true))) a₁ := ⟨_, rfl⟩
  obtain ⟨a₂, hblock⟩ : ∃ a₂, AuditedEngine.Step asciiRuntime a₁
      (.blocked ten "192.168.1.15" "youtube.com") a₂ := ⟨_, rfl⟩
  obtain ⟨hengine, hlog⟩ := hadd.engine bounded_new
  obtain ⟨hsame, -⟩ := hblock.engine hlog
  have hmem : "youtube.com".toList ∈ a₁.engine.config.permanentDomains := by
    have hstep : e₁ = a₁.engine := (congrArg Prod.snd hcall).symm.trans
      ((Operation.discard_snd _ e).symm.trans (Option.some.inj hengine))
    exact hstep ▸ mem_of_addPermanentDomain hcall hn
  have hrun : Run (AuditedEngine.Step asciiRuntime) ⟨e, {}⟩ _ a₂ := .cons hadd (.single hblock)
  obtain ⟨es₁, b, es₂, -, -, -, hlast, hreplay, -⟩ := trail_replays he bounded_new rfl hrun (by
    simp only [List.forall_mem_cons, List.not_mem_nil, false_implies, implies_true, and_true]
    exact ⟨rfl, trivial⟩)
  have hsame' : a₂.engine = a₁.engine := hsame
  exact ⟨_, a₂, b, _, hrun, hlast, hreplay, by rw [hsame']; exact hmem⟩

/-! ## What the log shows of a lock -/

/-- The clock does not go back: not from one event of the engine to a later one, and not behind the
first reading of an event. -/
def InOrder (es : List AuditEvent) : Prop :=
  (es.filterMap AuditEvent.policy?).Pairwise (fun ev ev' =>
    ∀ i j, (ev.env.clock i).micros ≤ (ev'.env.clock j).micros) ∧
  ∀ ev ∈ es.filterMap AuditEvent.policy?, ∀ i, (ev.env.clock 0).micros ≤ (ev.env.clock i).micros

/-- Where the first row is that of a lock until `u`, the second one is from `u` on, if it is an
entry and not that of a restart that resumed the session. -/
def ShowsLock (rt : Runtime) (row row' : LogEvent) : Prop :=
  ∀ x entry, readEntry row = some (.locked x) → readEntry row' = some entry →
    ¬ entry.IsResumed → ∃ u v, awareMicros rt x = .ok u ∧
      awareMicros rt row'.timestamp = .ok v ∧ u ≤ v

/-- The clock has been read at `u` or later. -/
def ReadBy (es : List AuditEvent) (u : Int) : Prop :=
  ∃ ev ∈ es.filterMap AuditEvent.policy?, ∃ i, u ≤ (ev.env.clock i).micros

/-- Every lock on record is still in force, or its end has been read from the clock. -/
def LocksSeen (rt : Runtime) (es : List AuditEvent) (b : AuditedEngine) (all : List LogEvent) :
    Prop :=
  ∀ row ∈ all, ∀ x, readEntry row = some (.locked x) → ∃ u, awareMicros rt x = .ok u ∧
    (b.engine.session.LockedUntil rt u ∨ ReadBy es u)

variable {ev : PolicyEvent}

theorem InOrder.init {ev : AuditEvent} (h : InOrder (es ++ [ev])) : InOrder es := by
  unfold InOrder at h ⊢
  rw [List.filterMap_append] at h
  exact ⟨(List.pairwise_append.mp h.1).1, fun ev' hev' => h.2 ev' (List.mem_append_left _ hev')⟩

theorem InOrder.first_le (h : InOrder (es ++ [.policy ev])) (i : Nat) :
    (ev.env.clock 0).micros ≤ (ev.env.clock i).micros :=
  h.2 ev (by simp [AuditEvent.policy?]) i

theorem InOrder.read_le (h : InOrder (es ++ [.policy ev])) {u : Int} (hu : ReadBy es u) (i : Nat) :
    u ≤ (ev.env.clock i).micros := by
  obtain ⟨ev', hev', j, hle⟩ := hu
  have hpairs := h.1
  rw [List.filterMap_append] at hpairs
  have hev : ev ∈ [AuditEvent.policy ev].filterMap AuditEvent.policy? := by
    simp [AuditEvent.policy?]
  exact hle.trans ((List.pairwise_append.mp hpairs).2.2 ev' hev' ev hev j i)

theorem ReadBy.append {u : Int} (h : ReadBy es u) (es' : List AuditEvent) :
    ReadBy (es ++ es') u := by
  obtain ⟨ev, hev, hread⟩ := h
  exact ⟨ev, by rw [List.filterMap_append]; exact List.mem_append_left _ hev, hread⟩

theorem readBy_last {u : Int} (h : u ≤ (ev.env.clock 0).micros) :
    ReadBy (es ++ [.policy ev]) u :=
  ⟨ev, by simp [AuditEvent.policy?], 0, h⟩

/-- Once a session is over, its end has been read. -/
theorem LocksSeen.ended (h : LocksSeen rt es a all)
    (hover : Over rt a.engine.session (ev.env.clock 0).micros) :
    ∀ row ∈ all, ∀ x, readEntry row = some (.locked x) →
      ∃ u, awareMicros rt x = .ok u ∧ ReadBy (es ++ [.policy ev]) u := by
  intro row hrow x hx
  obtain ⟨u, hu, hlocked | hread⟩ := h row hrow x hx
  · exact ⟨u, hu, readBy_last (hover u hlocked)⟩
  · exact ⟨u, hu, hread.append _⟩

theorem pairwise_snoc {row : LogEvent} (h : all.Pairwise (ShowsLock rt))
    (hrow : ∀ r ∈ all, ShowsLock rt r row) : (all ++ [row]).Pairwise (ShowsLock rt) := by
  refine List.pairwise_append.mpr ⟨h, List.pairwise_singleton _ _, fun r hr s hs => ?_⟩
  exact List.mem_singleton.mp hs ▸ hrow r hr

theorem step_shows {ev : PolicyEvent} (ha : OnRecord rt a.engine) (hkeeps : Keeps a.logStore all)
    (hs : ev.env.saveOk = true) (horder : InOrder (es ++ [.policy ev]))
    (hseen : LocksSeen rt es a all) (hshows : all.Pairwise (ShowsLock rt))
    (h : AuditedEngine.Step rt a (.policy ev) a') :
    OnRecord rt a'.engine ∧ ∃ all', Keeps a'.logStore all' ∧
      LocksSeen rt (es ++ [.policy ev]) a' all' ∧ all'.Pairwise (ShowsLock rt) := by
  obtain ⟨houtcome, ha'⟩ := step_accounts ha hs hkeeps.bounded h
  refine ⟨ha', ?_⟩
  cases houtcome with
  | silent hlog _ hsession =>
    refine ⟨all, hlog ▸ hkeeps, fun row hrow x hx => ?_, hshows⟩
    rcases hsession with hsame | hover
    · rw [hsame]
      obtain ⟨u, hu, hcase⟩ := hseen row hrow x hx
      exact ⟨u, hu, hcase.imp_right fun hread => hread.append _⟩
    · obtain ⟨u, hu, hread⟩ := hseen.ended hover row hrow x hx
      exact ⟨u, hu, .inr hread⟩
  | resumes y hentry _ hsession =>
    obtain ⟨new, -, hread, hkeeps'⟩ := hentry.keeps hkeeps
    refine ⟨_, hkeeps', fun row hrow x hx => ?_, pairwise_snoc hshows fun r _ x entry _ he hn => ?_⟩
    · rcases List.mem_append.mp hrow with hrow | hrow
      · obtain ⟨u, hu, hlocked | hread⟩ := hseen row hrow x hx
        · exact ⟨u, hu, .inl (hsession hlocked.locked ▸ hlocked)⟩
        · exact ⟨u, hu, .inr (hread.append _)⟩
      · rw [List.mem_singleton.mp hrow, hread] at hx
        cases hx
    · rw [hread] at he
      cases he
      exact absurd trivial hn
  | enters entry hentry _ hover hlocked =>
    obtain ⟨new, htime, hread, hkeeps'⟩ := hentry.keeps hkeeps
    refine ⟨_, hkeeps', fun row hrow x hx => ?_, pairwise_snoc hshows fun r hr x _ hx _ _ => ?_⟩
    · rcases List.mem_append.mp hrow with hrow | hrow
      · obtain ⟨u, hu, hread⟩ := hseen.ended hover row hrow x hx
        exact ⟨u, hu, .inr hread⟩
      · rw [List.mem_singleton.mp hrow, hread] at hx
        obtain ⟨u, hu, hnew⟩ := hlocked x (Option.some.inj hx)
        exact ⟨u, hu, .inl hnew⟩
    · obtain ⟨u, hu, hcase⟩ := hseen r hr x hx
      refine ⟨u, (ev.env.clock 4).micros, hu, by simp [htime, awareMicros], ?_⟩
      rcases hcase with hlock | hread
      · exact (hover u hlock).trans (horder.first_le 4)
      · exact horder.read_le hread 4

theorem run_shows (ha : OnRecord rt a.engine) (hkeeps : Keeps a.logStore [])
    (hrun : Run (AuditedEngine.Step rt) a es a') (hes : ∀ ev ∈ es, ev.SavesSucceed)
    (horder : InOrder es) : ∃ all, Keeps a'.logStore all ∧ all.Pairwise (ShowsLock rt) := by
  suffices h : OnRecord rt a'.engine ∧ ∃ all, Keeps a'.logStore all ∧ LocksSeen rt es a' all ∧
      all.Pairwise (ShowsLock rt) by
    obtain ⟨-, all, hkeeps', -, hshows⟩ := h
    exact ⟨all, hkeeps', hshows⟩
  refine hrun.history (I := fun es b => (∀ ev ∈ es, ev.SavesSucceed) → InOrder es →
    OnRecord rt b.engine ∧ ∃ all, Keeps b.logStore all ∧ LocksSeen rt es b all ∧
      all.Pairwise (ShowsLock rt)) ?_ ?_ hes horder
  · intro es b ev b' ih hstep hes horder
    obtain ⟨hb, all, hkeeps, hseen, hshows⟩ :=
      ih (fun ev hev => hes ev (List.mem_append_left _ hev)) horder.init
    have hold : LocksSeen rt (es ++ [ev]) b all := fun row hrow x hx => by
      obtain ⟨u, hu, hcase⟩ := hseen row hrow x hx
      exact ⟨u, hu, hcase.imp_right fun hread => hread.append _⟩
    cases ev with
    | policy ev => exact step_shows hb hkeeps (hes (.policy ev) (by simp)) horder hseen hshows hstep
    | blocked now clientIp domain =>
      obtain rfl := Option.some.inj hstep
      refine ⟨hb, _, hkeeps.record now _ _ _, fun row hrow x hx => ?_,
        pairwise_snoc hshows fun r _ x entry _ he _ => ?_⟩
      · rcases List.mem_append.mp hrow with hrow | hrow
        · exact hold row hrow x hx
        · rw [List.mem_singleton.mp hrow, readEntry_query] at hx
          cases hx
      · rw [readEntry_query] at he
        cases he
    | flow now clientIp domain qtype action reason =>
      obtain rfl := Option.some.inj hstep
      exact ⟨hb, all, hkeeps.recordFlow rt now clientIp domain qtype action reason _ none, hold,
        hshows⟩
  · intro _ _
    refine ⟨ha, [], hkeeps, ?_, List.Pairwise.nil⟩
    intro row hrow
    cases hrow

theorem trail_shows_lock (ha : OnRecord rt a.engine) (hlog : a.logStore.Bounded)
    (hnew : a.logStore.events = .empty) (hrun : Run (AuditedEngine.Step rt) a es a')
    (hes : ∀ ev ∈ es, ev.SavesSucceed) (horder : InOrder es) :
    a'.logStore.events.values.Pairwise (ShowsLock rt) := by
  obtain ⟨all, hkeeps, hshows⟩ := run_shows ha (.empty hlog hnew) hrun hes horder
  rw [hkeeps.values, List.rtake]
  exact hshows.sublist (List.drop_sublist _ _)

/-- A session begins, and a heartbeat comes after its end. -/
theorem trail_shows_lock_morning : ∃ (a a' : AuditedEngine) (es : List AuditEvent),
    Run (AuditedEngine.Step asciiRuntime) a es a' ∧ es.length = 2 ∧
      a'.logStore.events.values.Pairwise (ShowsLock asciiRuntime) := by
  obtain ⟨e, he, -⟩ := exists_onRecord asciiRuntime
  let start : PolicyEvent := .call (envAt ten) (.startFocusSession (.str "1h") .null
    (.arr [.str "youtube.com"]) .null true)
  let ended : PolicyEvent := .tick (envAt twelve)
  have horder : InOrder [.policy start, .policy ended] := by
    constructor
    · refine .cons ?_ (List.pairwise_singleton _ _)
      intro ev hev i j
      obtain rfl : ev = ended := List.mem_singleton.mp hev
      exact show ten.micros ≤ twelve.micros by decide
    · intro ev hev i
      rcases List.mem_cons.mp hev with rfl | hev
      · exact le_rfl
      · obtain rfl : ev = ended := List.mem_singleton.mp hev
        exact le_rfl
  have hrun : Run (AuditedEngine.Step asciiRuntime) ⟨e, {}⟩ [.policy start, .policy ended] _ :=
    .cons rfl (.single rfl)
  refine ⟨_, _, _, hrun, rfl, trail_shows_lock he bounded_new rfl hrun ?_ horder⟩
  simp only [List.forall_mem_cons, List.not_mem_nil, false_implies, implies_true, and_true]
  exact ⟨rfl, rfl⟩

end FocusGuard

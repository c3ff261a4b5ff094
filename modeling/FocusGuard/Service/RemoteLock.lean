import FocusGuard.Service.RemoteCalls

/-!
# The lock, seen from the clients

What `send_command` returns for the calls that would loosen the policy of a locked session, while
any number of other connections are served.

## Main results

* `daemon_of_run`: with all its connections, the daemon goes through the requests it serves.
* `guarded_calls_fail`: until the session expires, no call of a client loosens the policy.
-/

namespace FocusGuard

open IPCServer PolicyEngine ClientConnection

variable {rt : Runtime} {fl : Floats} {loads : Bytes → Except Text Json} {C : Type} [DecidableEq C]
  {s₀ s s' : IpcSystem C} {es : List (IpcEvent C)} {c : C} {u : Int} {d d' : Daemon}

/-! ## The daemon -/

/-- What happens to the daemon. -/
def IpcEvent.daemon? : IpcEvent C → Option Event
  | .onWire _ (.serves env request) => some (.request env request)
  | .onWire _ _ => none
  | .tick env => some (.tick env)
  | .restart env => some (.restart env)

omit [DecidableEq C] in
theorem WireStep.daemon {w w' : Wire} {ev : WireEvent} (c : C)
    (h : WireStep rt fl loads (d, w) ev (d', w')) :
    (d' = d ∧ (IpcEvent.onWire c ev).daemon? = none) ∨
      ∃ ev', (IpcEvent.onWire c ev).daemon? = some ev' ∧ Daemon.Step rt d ev' d' := by
  cases h with
  | serves _ _ _ _ hreply => exact .inr ⟨_, rfl, congrArg some (congrArg Prod.snd hreply)⟩
  | _ => exact .inl ⟨rfl, rfl⟩

theorem IpcStep.daemon {e : IpcEvent C} (h : IpcStep rt fl loads s e s') :
    (s'.daemon = s.daemon ∧ e.daemon? = none) ∨
      ∃ ev, e.daemon? = some ev ∧ Daemon.Step rt s.daemon ev s'.daemon := by
  cases h with
  | onWire hwire => exact hwire.daemon _
  | tick hstep => exact .inr ⟨_, rfl, hstep⟩
  | restart hstep => exact .inr ⟨_, rfl, hstep⟩

/-- The daemon goes through the requests that are served, one after the other. -/
theorem daemon_of_run (h : Run (IpcStep rt fl loads) s es s') :
    Run (Daemon.Step rt) s.daemon (es.filterMap IpcEvent.daemon?) s'.daemon := by
  induction h with
  | nil s => exact .nil s.daemon
  | cons hstep _ ih =>
    rcases hstep.daemon with ⟨hsame, hnone⟩ | ⟨ev, hsome, hdaemon⟩
    · rw [List.filterMap_cons_none hnone]
      exact hsame ▸ ih
    · rw [List.filterMap_cons_some hsome]
      exact .cons hdaemon ih

/-! ## Guarded requests -/

/-- The actions that `assert_not_locked` guards. -/
def Action.Loosens : Action → Prop
  | .remove | .stop | .serviceUnblock | .gatewayDisable => True
  | _ => False

/-- What begins with the guard does not return. -/
theorem guard_raises {α : Type} {clock : Nat → Calendar.Instant} {e e' : PolicyEngine} {a : α}
    {m : Unit → Exec PyError PolicyEngine α} (hl : e.session.LockedUntil rt u)
    (hnow : (clock 0).micros < u) :
    (onSession (assertNotLocked rt clock) >>= m) e ≠ (.ok a, e') := by
  intro h
  have hguard : onSession (assertNotLocked rt clock) e = _ :=
    onSession_eq (assertNotLocked_before hl hnow)
  rw [Exec.bind_of_error hguard] at h
  cases h

theorem stopFocusSession_raises (env : CallEnv) {e e' : PolicyEngine}
    (hl : e.session.LockedUntil rt u) (hnow : (env.clock 0).micros < u) :
    stopFocusSession rt env e ≠ (.ok (), e') := by
  intro h
  have hguard : onSession (assertNotLocked rt env.clock) e = _ :=
    onSession_eq (assertNotLocked_before hl hnow)
  rw [stopFocusSession, hguard] at h
  cases h

/-- Before the expiry time, a branch that would loosen the policy raises. -/
theorem dispatch_raises {env : RequestEnv} {params r : Json} {a : Action} (ha : a.Loosens)
    (hl : d.engine.session.LockedUntil rt u) (hnow : (env.clock 0).micros < u) :
    dispatch rt env params a d ≠ (.ok r, d') := by
  intro h
  cases a with
  | remove =>
    obtain ⟨domain, t, hdomain, hrest⟩ := Exec.bind_eq_ok.mp h
    obtain rfl := (Exec.ofExcept_eq_ok.mp hdomain).2
    obtain ⟨removed, t, hremoved, -⟩ := Exec.bind_eq_ok.mp hrest
    obtain ⟨e, hremoved, -⟩ := Exec.focus_eq_ok.mp hremoved
    exact guard_raises hl hnow hremoved
  | stop =>
    obtain ⟨_, t, hstop, -⟩ := Exec.bind_eq_ok.mp h
    obtain ⟨e, hstop, -⟩ := Exec.focus_eq_ok.mp hstop
    exact stopFocusSession_raises env.toCallEnv hl hnow hstop
  | serviceUnblock =>
    obtain ⟨service, t, hservice, hrest⟩ := Exec.bind_eq_ok.mp h
    obtain rfl := (Exec.ofExcept_eq_ok.mp hservice).2
    obtain ⟨name, t, hname, -⟩ := Exec.bind_eq_ok.mp hrest
    obtain ⟨e, hname, -⟩ := Exec.focus_eq_ok.mp hname
    exact guard_raises hl hnow hname
  | gatewayDisable =>
    obtain ⟨_, t, hguard, -⟩ := Exec.bind_eq_ok.mp h
    obtain ⟨e, hguard, -⟩ := Exec.focus_eq_ok.mp hguard
    exact stopFocusSession_raises env.toCallEnv hl hnow hguard
  | _ => exact ha

theorem resultOf_errorReply (rt : Runtime) (e : PyError) :
    ∃ message, resultOf (errorReply rt e) = .error (.daemonError message) := by
  cases e <;> exact ⟨_, rfl⟩

/-- The reply to such a request is an error. -/
theorem handleRequest_refuses {env : RequestEnv} {action : Text} {params reply : Json} {a : Action}
    (haction : Action.ofText action = some a) (ha : a.Loosens)
    (hl : d.engine.session.LockedUntil rt u) (hnow : (env.clock 0).micros < u)
    (h : handleRequest rt env (.obj (callRequest action params)) d = (.ok reply, d')) :
    ∃ message, resultOf reply = .error (.daemonError message) := by
  have hname : Json.lookup (callRequest action params) "action" = some (.str action) := rfl
  simp only [handleRequest, hname, Option.getD_some, Json.text?, Option.bind_some, haction] at h
  split at h
  · next heq => exact absurd heq (dispatch_raises ha hl hnow)
  · next e _ _ =>
    obtain rfl := Except.ok.inj (congrArg Prod.fst h)
    exact resultOf_errorReply rt e

/-! ## Calls -/

/-- Until a session expires, whatever any number of clients send in whatever order: its policy
stays, and a call that would loosen it does not return. Once the response is there, it tells of an
error of the daemon. -/
theorem guarded_calls_fail (hd : Daemon.Reached rt s₀.daemon)
    (hl : s₀.daemon.engine.session.LockedUntil rt u) (hloads : FaithfulLoads fl loads)
    {action : Text} {a : Action} (haction : Action.ofText action = some a) (ha : a.Loosens)
    {params : Json} (hparams : params.Plain) (hfresh : s₀.wires c = {})
    (hrun : Run (IpcStep rt fl loads) s₀ es s)
    (hsent : requestsSent (eventsOn c es) <+: [callBytes fl action params])
    (hes : ∀ ev ∈ es.filterMap IpcEvent.daemon?, ev.SavesSucceed ∧ ev.Before u)
    (socket : SocketEnv) :
    SamePolicy s₀.daemon s.daemon ∧
    ∃ e, sendCommandResult fl socket (chunksReceived (eventsOn c es)) = .error e ∧
      (socket.Works → newline ∈ (chunksReceived (eventsOn c es)).flatten →
        ∃ message, e = .daemonError message) := by
  refine ⟨samePolicy_of_run hd.inv hl (daemon_of_run hrun) hes, ?_⟩
  have hstream : ¬ StreamAction (some action) := by
    rintro (h | h)
    · obtain rfl := Option.some.inj h
      cases haction
    · obtain rfl := Option.some.inj h
      cases haction
  have hreports : ∀ a, requestedAction (callRequest action params) = some a → ¬ a.Reports := by
    intro a' ha'
    obtain rfl : a = a' := Option.some.inj (haction.symm.trans ha')
    cases a <;> first | exact ha.elim | exact id
  cases callPhase_of_run hloads hparams hstream hfresh hrun hsent with
  | waits hwaits =>
    obtain ⟨e, hresult⟩ := (hwaits.fails fl socket).error
    refine ⟨e, hresult, fun _ h => ?_⟩
    rw [hwaits.unreceived] at h
    exact absurd h List.not_mem_nil
  | @answered es₁ es₂ s₁ s₂ _ env reply hrun₁ hrun₂ hwaits hasked hreply hanswered =>
    have hbefore : ∀ ev ∈ es₁.filterMap IpcEvent.daemon?, ev.SavesSucceed ∧ ev.Before u := by
      intro ev hev
      refine hes ev ?_
      rw [List.filterMap_append]
      exact List.mem_append_left _ hev
    have hserved : (Event.request env (.obj (callRequest action params))).Before u :=
      (hes _ (List.mem_filterMap.mpr ⟨_, List.mem_append_right _ List.mem_cons_self, rfl⟩)).2
    have hpolicy := samePolicy_of_run hd.inv hl (daemon_of_run hrun₁) hbefore
    have hnow : (env.clock 0).micros < u := hserved 0
    obtain ⟨message, hrefused⟩ :=
      handleRequest_refuses haction ha (hpolicy.session ▸ hl) hnow hreply
    have hplain : reply.Plain :=
      handleRequest_plain rt env hreports s₁.daemon reply (by rw [hreply])
    obtain ⟨hline, hresult⟩ := hanswered.result hplain (hasOk_of_handleRequest hreply) socket
    rw [chunksReceived_cut hwaits.unreceived]
    rw [hrefused] at hline hresult
    have herror : ∃ e,
        sendCommandResult fl socket (chunksReceived (eventsOn c es₂)) = .error e := by
      rcases hresult with hresult | hresult | hresult
      · exact ⟨_, hresult⟩
      · exact hresult.error
      · exact ⟨_, hresult⟩
    obtain ⟨e, herror⟩ := herror
    refine ⟨e, herror, fun hworks h => ⟨message, ?_⟩⟩
    exact Except.error.inj (herror.symm.trans (hline hworks h))

section Example

/-- A call that stops the session of the morning at eleven. -/
theorem guarded_calls_fail_at_eleven : ∃ (d : Daemon) (s : IpcSystem Unit)
    (es : List (IpcEvent Unit)), d.engine.session = morningSession ∧
    Run (IpcStep asciiRuntime plainFloats morningServer.loads) ⟨d, fun _ => {}⟩ es s ∧
    SamePolicy d s.daemon ∧
    ∃ message, sendCommandResult plainFloats {} (chunksReceived (eventsOn () es)) =
      .error (.daemonError message) := by
  obtain ⟨d, hd, hsession, -⟩ := exists_morning_daemon asciiRuntime
  have hl : d.engine.session.LockedUntil asciiRuntime twelve.micros :=
    hsession ▸ morningSession_lockedUntil asciiRuntime
  have hplain : (Json.obj []).Plain := ⟨List.nodup_nil, trivial⟩
  obtain ⟨reply, d', hreply, -⟩ :=
    handleRequest_hasOk asciiRuntime (requestAt eleven) (callRequest "stop" (.obj [])) d
  have hrun := callRun faithfulLoads_morningServer hplain (by decide) hreply
  have hbefore : ∀ ev ∈ (callEvents plainFloats (requestAt eleven) "stop" (.obj []) reply).filterMap
      IpcEvent.daemon?, ev.SavesSucceed ∧ ev.Before twelve.micros := by
    intro ev hev
    obtain rfl := List.mem_singleton.mp hev
    exact ⟨rfl, fun _ => show eleven.micros < twelve.micros by decide⟩
  obtain ⟨hpolicy, e, hresult, hline⟩ := guarded_calls_fail hd hl faithfulLoads_morningServer
    (c := ()) (a := .stop) rfl trivial hplain rfl hrun (List.prefix_refl _) hbefore {}
  have hreceived : newline ∈ [jsonLine plainFloats reply].flatten := by simp [jsonLine]
  obtain ⟨message, rfl⟩ := hline ⟨rfl, rfl⟩ hreceived
  exact ⟨d, _, _, hsession, hrun, hpolicy, message, hresult⟩

end Example

end FocusGuard

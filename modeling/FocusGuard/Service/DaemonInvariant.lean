import FocusGuard.Core.Operations
import FocusGuard.Service.Startup

/-!
# What a request does to the daemon

Each branch of the dispatcher is a guarded operation on the engine, a session start, a call
on the gateway, or it only reads. From this every reached daemon keeps the invariant of its
engine.

## Main results

* `handleRequest_effect`: the effect of any request.
* `Daemon.Reached.inv`: the invariant holds in every daemon that events have led to.
-/

namespace FocusGuard

open PolicyEngine

/-- Whether the branch of an action gets to the guard, given its parameters. -/
def Action.reachesGuard (params : Json) : Action → Bool
  | .add | .remove | .serviceBlock | .serviceUnblock => match params with
    | .obj _ => true
    | _ => false
  | .stop | .gatewayDisable => true
  | _ => false

/-- The action of a request and its parameters, when it names an action. -/
def requested (request : Json) : Option (Action × Json) :=
  match request with
  | .obj m => (((Json.lookup m "action").getD (.str [])).text?.bind Action.ofText).map fun a =>
      (a, (Json.lookup m "params").getD (.obj []))
  | _ => none

/-- Whether a request gets to the guard. -/
def reachesGuard (request : Json) : Bool :=
  (requested request).any fun r => r.1.reachesGuard r.2

variable {rt : Runtime} {α : Type}

/-- What a request may do to the daemon; `guarded` says whether it gets to the guard. -/
inductive RequestEffect (rt : Runtime) (env : RequestEnv) (guarded : Bool) (d : Daemon) :
    Daemon → Prop where
  | same : RequestEffect rt env guarded d d
  | operation {α : Type} (m : Exec PyError PolicyEngine α) :
      guarded = true → Guarded rt env.toCallEnv m →
      RequestEffect rt env guarded d ⟨(m d.engine).2, d.gatewayCalls⟩
  | start (durationStr untilStr domainsArg servicesArg : Json) (companions : Bool) :
      RequestEffect rt env guarded d ⟨(startFocusSession rt env.toCallEnv durationStr untilStr
        domainsArg servicesArg companions d.engine).2, d.gatewayCalls⟩
  | enable : RequestEffect rt env guarded d
      { d with gatewayCalls := d.gatewayCalls ++ [.enableTransparentRedirection] }
  | disable : guarded = true →
      (stopFocusSession rt env.toCallEnv d.engine).1 = .ok () →
      RequestEffect rt env guarded d ⟨(stopFocusSession rt env.toCallEnv d.engine).2,
        d.gatewayCalls ++ [.disableTransparentRedirection]⟩

namespace IPCServer

variable {env : RequestEnv} {d : Daemon}

/-- A branch that only looks at the daemon. -/
theorem read_only (f : Daemon → Except PyError α) (g : α → Json) :
    ((Exec.get >>= fun d => Exec.ofExcept (f d) >>= fun a => (pure (g a) : Exec PyError Daemon Json))
      d).2 = d := by
  rw [Exec.bind_of_ok (Exec.get_apply d)]
  cases h : f d with
  | ok a => rw [Exec.bind_of_ok (Exec.ofExcept_apply _ d)]; rfl
  | error x => rw [Exec.bind_of_error (Exec.ofExcept_apply _ d)]

/-- A branch that only asks a collaborator. -/
theorem ofExcept_reply (r : Except PyError α) (g : α → Json) (d : Daemon) :
    ((Exec.ofExcept r >>= fun a => (pure (g a) : Exec PyError Daemon Json)) d).2 = d := by
  cases r with
  | ok a => rfl
  | error x => rfl

theorem onEngine_eq {m : Exec PyError PolicyEngine α} {r : Except PyError α} {t : PolicyEngine}
    (h : m d.engine = (r, t)) : onEngine m d = (r, ⟨t, d.gatewayCalls⟩) := by
  simp [onEngine, h]

/-- A branch that runs an operation of the engine and words its result. -/
theorem onEngine_reply (m : Exec PyError PolicyEngine α) (g : α → Json) (d : Daemon) :
    ((onEngine m >>= fun a => (pure (g a) : Exec PyError Daemon Json)) d).2 =
      ⟨(m d.engine).2, d.gatewayCalls⟩ := by
  match h : m d.engine with
  | (.ok a, t) =>
    rw [Exec.bind_of_ok (onEngine_eq h)]
    rfl
  | (.error x, t) => rw [Exec.bind_of_error (onEngine_eq h)]

/-- What a branch does: nothing to the daemon, one operation of the engine, or a call on the
gateway, which is switched off only after the guard. -/
theorem dispatch_cases (params : Json) (a : Action) :
    (dispatch rt env params a d).2 = d ∨
    (∃ op : Operation, (op.isGuarded = true → a.reachesGuard params = true) ∧
      (dispatch rt env params a d).2 = ⟨(op.run rt env.toCallEnv d.engine).2, d.gatewayCalls⟩) ∨
    (dispatch rt env params a d).2 =
      { d with gatewayCalls := d.gatewayCalls ++ [.enableTransparentRedirection] } ∨
    (a.reachesGuard params = true ∧ (stopFocusSession rt env.toCallEnv d.engine).1 = .ok () ∧
      (dispatch rt env params a d).2 = ⟨(stopFocusSession rt env.toCallEnv d.engine).2,
        d.gatewayCalls ++ [.disableTransparentRedirection]⟩) := by
  have hreply : ∀ {α : Type} {m : Exec PyError PolicyEngine α} {g : α → Json} (op : Operation),
      (op.run rt env.toCallEnv d.engine).2 = (m d.engine).2 →
      ((onEngine m >>= fun a => (pure (g a) : Exec PyError Daemon Json)) d).2 =
        ⟨(op.run rt env.toCallEnv d.engine).2, d.gatewayCalls⟩ := by
    intro α m g op h
    rw [onEngine_reply, h]
  cases a with
  | ping | servicesList => exact .inl rfl
  | status | list | session => exact .inl (read_only _ _)
  | add =>
    cases params with
    | obj m =>
      exact .inr (.inl ⟨.addPermanentDomain _ _, fun _ => rfl, hreply _ (Operation.discard_snd _ _)⟩)
    | _ => exact .inl rfl
  | remove =>
    cases params with
    | obj m =>
      exact .inr (.inl ⟨.removePermanentDomain _, fun _ => rfl, hreply _ (Operation.discard_snd _ _)⟩)
    | _ => exact .inl rfl
  | serviceBlock =>
    cases params with
    | obj m =>
      exact .inr (.inl ⟨.blockPermanentService _, fun _ => rfl, hreply _ (Operation.discard_snd _ _)⟩)
    | _ => exact .inl rfl
  | serviceUnblock =>
    cases params with
    | obj m =>
      exact .inr (.inl
        ⟨.unblockPermanentService _, fun _ => rfl, hreply _ (Operation.discard_snd _ _)⟩)
    | _ => exact .inl rfl
  | start =>
    cases params with
    | obj m =>
      exact .inr (.inl
        ⟨.startFocusSession _ _ _ _ _, nofun, hreply _ (Operation.discard_snd _ _)⟩)
    | _ => exact .inl rfl
  | stop => exact .inr (.inl ⟨.stopFocusSession, fun _ => rfl, hreply _ rfl⟩)
  | gatewayEnable =>
    unfold dispatch
    split
    · exact .inr (.inr (.inl rfl))
    · exact .inl rfl
  | gatewayDisable =>
    rcases hg : stopFocusSession rt env.toCallEnv d.engine with ⟨x | u, t⟩
    · have hrun : dispatch rt env params .gatewayDisable d = (.error x, ⟨t, d.gatewayCalls⟩) :=
        Exec.bind_of_error (onEngine_eq hg)
      refine .inr (.inl ⟨.stopFocusSession, fun _ => rfl, ?_⟩)
      rw [hrun, Operation.run, hg]
    · have hrun : dispatch rt env params .gatewayDisable d = _ :=
        Exec.bind_of_ok (onEngine_eq hg)
      rw [hrun]
      split
      · exact .inr (.inr (.inr ⟨rfl, rfl, rfl⟩))
      · refine .inr (.inl ⟨.stopFocusSession, fun _ => rfl, ?_⟩)
        rw [Operation.run, hg]
        rfl
  | devicesList | bypassStatus | logs | stats | doctor | gatewayStatus | packetStatus
    | packetStats | packetInspect => exact .inl (ofExcept_reply _ _ d)

theorem dispatch_effect (hs : env.saveOk = true) (params : Json) (a : Action) :
    RequestEffect rt env (a.reachesGuard params) d (dispatch rt env params a d).2 := by
  rcases dispatch_cases params a with h | ⟨op, hguard, h⟩ | h | ⟨hguard, hok, h⟩
  · rw [h]
    exact .same
  · rw [h]
    cases hg : op.isGuarded with
    | true =>
      exact .operation _ (hguard hg) (GuardedCall.of_saveOk (op.run rt) hs (op.guardedCall hg))
    | false =>
      cases op with
      | startFocusSession durationStr untilStr domainsArg servicesArg companions =>
        rw [Operation.run, Operation.discard_snd]
        exact .start _ _ _ _ _
      | _ => cases hg
  · rw [h]
    exact .enable
  · rw [h]
    exact .disable hguard hok

/-- The reply of the branch, or a reply that words what the branch raised. -/
theorem handleRequest_of_requested {request params : Json} {a : Action}
    (h : requested request = some (a, params)) (d : Daemon) :
    handleRequest rt env request d =
      (match (dispatch rt env params a d).1 with
        | .ok reply => .ok reply
        | .error x => .ok (errorReply rt x), (dispatch rt env params a d).2) := by
  cases request with
  | obj m =>
    simp only [requested, Option.map_eq_some_iff, Prod.mk.injEq] at h
    obtain ⟨a', ha, rfl, rfl⟩ := h
    simp only [handleRequest, ha]
    generalize dispatch rt env ((Json.lookup m "params").getD (.obj [])) a' d = r
    obtain ⟨r | r, t⟩ := r
    · rfl
    · rfl
  | _ => cases h

/-- A request that names no action leaves the daemon alone. -/
theorem handleRequest_of_not_requested {request : Json} (h : requested request = none)
    (d : Daemon) : (handleRequest rt env request d).2 = d := by
  cases request with
  | obj m =>
    simp only [requested, Option.map_eq_none_iff] at h
    simp only [handleRequest, h]
  | _ => rfl

/-- The effect of any request. -/
theorem handleRequest_effect (hs : env.saveOk = true) (request : Json) (d : Daemon) :
    RequestEffect rt env (reachesGuard request) d (handleRequest rt env request d).2 := by
  cases hr : requested request with
  | none =>
    rw [handleRequest_of_not_requested hr]
    exact .same
  | some r =>
    have hguard : reachesGuard request = r.1.reachesGuard r.2 := by
      rw [reachesGuard, hr, Option.any_some]
    rw [handleRequest_of_requested hr, hguard]
    exact dispatch_effect hs r.2 r.1

end IPCServer

/-! ## Reached daemons -/

/-- A request leaves the engine alone, runs one guarded operation on it or starts a
session. -/
theorem RequestEffect.engine {env : RequestEnv} {guarded : Bool} {d d' : Daemon}
    (h : RequestEffect rt env guarded d d') :
    d'.engine = d.engine ∨
    (guarded = true ∧ ∃ (α : Type) (m : Exec PyError PolicyEngine α),
      Guarded rt env.toCallEnv m ∧ d'.engine = (m d.engine).2) ∨
    ∃ durationStr untilStr domainsArg servicesArg companions,
      d'.engine = (startFocusSession rt env.toCallEnv durationStr untilStr domainsArg servicesArg
        companions d.engine).2 := by
  cases h with
  | same => exact .inl rfl
  | operation m hg hm => exact .inr (.inl ⟨hg, _, m, hm, rfl⟩)
  | start durationStr untilStr domainsArg servicesArg companions =>
    exact .inr (.inr ⟨durationStr, untilStr, domainsArg, servicesArg, companions, rfl⟩)
  | enable => exact .inl rfl
  | disable hg _ => exact .inr (.inl ⟨hg, _, _, guarded_stopFocusSession, rfl⟩)

theorem RequestEffect.inv {env : RequestEnv} {guarded : Bool} {d d' : Daemon}
    (h : RequestEffect rt env guarded d d') (hs : env.saveOk = true) (hd : Inv rt d.engine) :
    Inv rt d'.engine := by
  rcases h.engine with h | ⟨-, _, m, hm, h⟩ | ⟨durationStr, untilStr, domainsArg, servicesArg,
    companions, h⟩
  · exact h ▸ hd
  · exact h ▸ hd.guarded hm
  · rw [h]
    rcases startFocusSession_cases hd.toCoherent hs durationStr untilStr domainsArg servicesArg
      companions with h | ⟨-, h⟩
    · exact h.symm ▸ hd
    · exact h.inv

namespace Daemon

variable {d d' : Daemon}

theorem Step.request {env : RequestEnv} {request : Json}
    (h : Step rt d (.request env request) d') :
    d' = (IPCServer.handleRequest rt env request d).2 :=
  (Option.some.inj h).symm

theorem Step.tick {env : CallEnv} (h : Step rt d (.tick env) d') :
    d' = ⟨(PolicyEngine.tick rt env d.engine).2, d.gatewayCalls⟩ :=
  (Option.some.inj h).symm

theorem Step.restart {env : CallEnv} (h : Step rt d (.restart env) d') :
    startEngine rt env d.engine.stateManager.disk = .ok d'.engine ∧
      d'.gatewayCalls = d.gatewayCalls := by
  simp only [Step, Daemon.step] at h
  cases he : startEngine rt env d.engine.stateManager.disk with
  | error x => simp [he] at h
  | ok e =>
    simp only [he, Option.some.injEq] at h
    subst h
    exact ⟨rfl, rfl⟩

theorem Step.inv {ev : Event} (hs : ev.SavesSucceed) (hd : Inv rt d.engine)
    (h : Step rt d ev d') : Inv rt d'.engine := by
  cases ev with
  | request env request =>
    rw [h.request]
    exact (IPCServer.handleRequest_effect hs request d).inv hs hd
  | tick env =>
    rw [h.tick]
    exact hd.tick hs
  | restart env => exact (startEngine_synced h.restart.1).inv

/-- The invariant holds in every daemon that events have led to. -/
theorem Reached.inv (h : Reached rt d) : Inv rt d.engine := by
  refine Reachable.invariant (I := fun d => Inv rt d.engine) ?_ ?_ h
  · rintro d ⟨env, disk, he, -⟩
    exact (startEngine_synced he).inv
  · exact fun d ev d' hs hd hst => Step.inv hs hd hst

end Daemon

end FocusGuard

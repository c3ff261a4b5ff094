import FocusGuard.Service.ExpiryRestore
import FocusGuard.Service.WellFormedLock

/-!
# What a failed operation leaves behind

Arguments are checked before anything is changed, so an operation that they make raise leaves
memory and the disk alone. A write that fails comes last and nothing is taken back: memory is as
after the successful call, and the state file is as before.

## Main results

* `Possible.coherent`: the engine is coherent in every daemon, whatever the disk did.
* `failed_operation`: the two ways in which an operation can raise.
* `unsaved_domain_stays`: a domain that could not be saved is in force all the same.
-/

namespace FocusGuard

open Calendar PolicyEngine

/-- A daemon that any events have led to, those with a disk that fails included. -/
def Daemon.Possible (rt : Runtime) (d : Daemon) : Prop :=
  Reachable (Daemon.Initial rt) (Daemon.Step rt) (fun _ => True) d

/-- Two engines hold the same policy in memory. -/
structure SameMemory (e e' : PolicyEngine) : Prop where
  config : e'.config = e.config
  session : e'.session = e.session
  sinkhole : e'.sinkhole = e.sinkhole

variable {rt : Runtime} {env : CallEnv} {e : PolicyEngine} {d : Daemon} {α : Type}

/-! ## Daemons on any disk -/

namespace IPCServer

variable {env : RequestEnv}

/-- A branch runs one operation on the engine, or none. -/
theorem dispatch_engine (params : Json) (a : Action) (d : Daemon) :
    (dispatch rt env params a d).2.engine = d.engine ∨
      ∃ op : Operation, (dispatch rt env params a d).2.engine =
        (op.run rt env.toCallEnv d.engine).2 := by
  rcases dispatch_cases params a with h | ⟨op, -, h⟩ | h | ⟨-, -, h⟩
  · exact .inl (by rw [h])
  · exact .inr ⟨op, by rw [h]⟩
  · exact .inl (by rw [h])
  · exact .inr ⟨.stopFocusSession, by rw [h]; rfl⟩

/-- A request runs one operation on the engine, or none. -/
theorem handleRequest_engine (request : Json) (d : Daemon) :
    (handleRequest rt env request d).2.engine = d.engine ∨
      ∃ op : Operation, (handleRequest rt env request d).2.engine =
        (op.run rt env.toCallEnv d.engine).2 := by
  cases hr : requested request with
  | none => exact .inl (congrArg Daemon.engine (handleRequest_of_not_requested hr d))
  | some r =>
    rw [handleRequest_of_requested hr]
    exact dispatch_engine r.2 r.1 d

end IPCServer

namespace Daemon

theorem Step.coherent {ev : Event} {d' : Daemon} (hd : Coherent rt d.engine)
    (h : Step rt d ev d') : Coherent rt d'.engine := by
  cases ev with
  | request env request =>
    rw [h.request]
    rcases IPCServer.handleRequest_engine request d with hsame | ⟨op, hop⟩
    · rwa [hsame]
    · rw [hop]
      exact op.coherent hd env.toCallEnv
  | tick env =>
    rw [h.tick]
    exact (effect_tick env hd).coherent hd env.saveOk
  | restart env => exact (startEngine_synced h.restart.1).toCoherent

/-- The engine is coherent in every daemon, whatever the disk did. -/
theorem Possible.coherent (h : Possible rt d) : Coherent rt d.engine := by
  refine Reachable.invariant (I := fun d => Coherent rt d.engine) ?_ ?_ h
  · rintro d ⟨env, disk, he, -⟩
    exact (startEngine_synced he).toCoherent
  · exact fun d ev d' _ hd hst => Step.coherent hd hst

end Daemon

/-! ## Operations that raise -/

theorem SameMemory.of_passed {e₀ : PolicyEngine} (h : Passed rt env e e₀)
    (hmarks : ¬ GuardMarks rt env e.session) : e₀ = e := by
  rcases h with h | ⟨hl, hrem, ⟨message, hm⟩, -⟩
  · exact h
  · exact absurd ⟨hl, hrem, checkExpiration_true hm⟩ hmarks

/-- An operation that raises on any disk leaves the configuration, the sinkhole and the disk
alone, and the session with them unless its guard marks that session. One that raises only on a
disk that fails leaves memory as the successful call would, and the state file as it was. -/
theorem failed_operation (hd : Daemon.Possible rt d) (op : Operation) (env : CallEnv) {x : PyError}
    (hx : (op.run rt env d.engine).1 = .error x) :
    (∀ y, (op.run rt (env.withDisk true) d.engine).1 = .error y →
      (op.run rt env d.engine).2.config = d.engine.config ∧
      (op.run rt env d.engine).2.sinkhole = d.engine.sinkhole ∧
      (op.run rt env d.engine).2.stateManager = d.engine.stateManager ∧
      (¬ (op.isGuarded = true ∧ GuardMarks rt env d.engine.session) →
        (op.run rt env d.engine).2.session = d.engine.session)) ∧
    ((op.run rt (env.withDisk true) d.engine).1 = .ok () → x = .osError ∧
      SameMemory (op.run rt (env.withDisk true) d.engine).2 (op.run rt env d.engine).2 ∧
      (op.run rt env d.engine).2.stateManager.disk.stateFile =
        d.engine.stateManager.disk.stateFile) := by
  obtain ⟨e₀, session, hpassed, hunguarded, heffect⟩ := op.effect hd.coherent env
  have hdisk : op.run rt env = op.run rt (env.withDisk env.saveOk) := rfl
  rw [hdisk] at hx ⊢
  generalize env.saveOk = ok at hx ⊢
  cases heffect with
  | raises y h =>
    rw [h ok, h true]
    refine ⟨fun _ _ => ?_, nofun⟩
    obtain ⟨hconfig, hsinkhole, hstore⟩ : e₀.config = d.engine.config ∧
        e₀.sinkhole = d.engine.sinkhole ∧ e₀.stateManager = d.engine.stateManager := by
      rcases hpassed with rfl | ⟨-, -, -, rfl⟩
      · exact ⟨rfl, rfl, rfl⟩
      · exact ⟨rfl, rfl, rfl⟩
    refine ⟨hconfig, hsinkhole, hstore, fun hmarks => ?_⟩
    cases hg : op.isGuarded with
    | false => rw [hunguarded hg]
    | true => rw [SameMemory.of_passed hpassed fun h => hmarks ⟨hg, h⟩]
  | returns a h =>
    rw [h ok] at hx
    cases hx
  | saves config _ _ _ _ hwritten hunwritten =>
    obtain ⟨a, m, -, hok⟩ := hwritten
    obtain ⟨m', hfile, herror⟩ := hunwritten
    cases ok with
    | true =>
      rw [hok] at hx
      cases hx
    | false =>
      rw [hok, herror]
      rw [herror] at hx
      exact ⟨nofun, fun _ => ⟨(Except.error.inj hx).symm, ⟨rfl, rfl, rfl⟩, hfile⟩⟩

/-! ## A domain that could not be saved -/

section Example

/-- Adding `youtube.com`, without its companions. -/
def addYoutube : Operation := .addPermanentDomain (.str "youtube.com") false

/-- On a new engine the domain is added, and only the save depends on the disk. -/
theorem addYoutube_run : ∃ d : Daemon, Daemon.Possible asciiRuntime d ∧
    d.engine.config.permanentDomains = [] ∧
    (addYoutube.run asciiRuntime ((envAt ten).withDisk true) d.engine).1 = .ok () ∧
    (addYoutube.run asciiRuntime ((envAt ten).withDisk false) d.engine).1 = .error .osError ∧
    (addYoutube.run asciiRuntime ((envAt ten).withDisk false) d.engine).2.config.permanentDomains =
      ["youtube.com".toList] := by
  obtain ⟨e, he, hsession, hconfig⟩ := startEngine_empty asciiRuntime (envAt ten) rfl
  have hidle : ¬ e.session.isLocked = true := by
    rw [hsession]
    decide
  have hpermanent : e.config.permanentDomains = [] := by rw [hconfig]
  have hnorm : normalizeDomain asciiRuntime (.str "youtube.com") = .ok "youtube.com".toList := by
    show normalizeText asciiRuntime "youtube.com" = _
    decide
  have hadded : appendMissing e.config.permanentDomains ["youtube.com".toList] =
      (["youtube.com".toList], ["youtube.com".toList]) := by
    rw [hpermanent]
    rfl
  obtain ⟨⟨m, -, hwritten⟩, m', -, hunwritten⟩ := addPermanentDomain_run (envAt ten)
    (startEngine_synced he).toCoherent hidle hnorm
      (show appendMissing _ (_ :: if false then _ else _) = _ from hadded)
  have hok : addYoutube.run asciiRuntime ((envAt ten).withDisk true) e = _ :=
    Exec.bind_of_ok hwritten
  have herror : addYoutube.run asciiRuntime ((envAt ten).withDisk false) e = _ :=
    Exec.bind_of_error hunwritten
  refine ⟨⟨e, []⟩, .init ⟨_, _, he, rfl⟩, hpermanent, ?_, ?_, ?_⟩
  · rw [hok]
    rfl
  · rw [herror]
  · rw [herror]
    rfl

/-- The failed call leaves memory as the successful one. -/
theorem failed_operation_youtube : ∃ d : Daemon,
    SameMemory (addYoutube.run asciiRuntime ((envAt ten).withDisk true) d.engine).2
      (addYoutube.run asciiRuntime ((envAt ten).withDisk false) d.engine).2 := by
  obtain ⟨d, hd, -, hok, herror, -⟩ := addYoutube_run
  exact ⟨d, ((failed_operation hd addYoutube ((envAt ten).withDisk false) herror).2 hok).2.1⟩

/-- A domain that could not be saved is in force all the same. -/
theorem unsaved_domain_stays : ¬ ∀ (d : Daemon) (op : Operation) (env : CallEnv) (x : PyError),
    Daemon.Possible asciiRuntime d → (op.run asciiRuntime env d.engine).1 = .error x →
    SameMemory d.engine (op.run asciiRuntime env d.engine).2 := by
  intro h
  obtain ⟨d, hd, hpermanent, -, herror, hadded⟩ := addYoutube_run
  have hsame := (h d addYoutube ((envAt ten).withDisk false) .osError hd herror).config
  rw [hsame, hpermanent] at hadded
  cases hadded

end Example

end FocusGuard

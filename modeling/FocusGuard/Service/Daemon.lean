import FocusGuard.Lib.Runs
import FocusGuard.Service.IpcServer

/-!
# The daemon as a transition system

What happens to a running daemon: a request arrives, the heartbeat ticks, or the process is
restarted on the files it left. `focusguard/service/daemon.py` builds the engine at start and
swallows whatever a tick raises.
-/

namespace FocusGuard

variable (rt : Runtime)

/-- A new `StateManager`, `DomainSinkhole` and `PolicyEngine` on the files of a directory. -/
def startEngine (env : CallEnv) (disk : Disk) : Except PyError PolicyEngine :=
  match DomainSinkhole.init rt true with
  | .error e => .error e
  | .ok sinkhole => (PolicyEngine.create rt env sinkhole { disk := disk }).1

inductive Event where
  | request (env : RequestEnv) (request : Json)
  | tick (env : CallEnv)
  | restart (env : CallEnv)

def Event.env : Event → CallEnv
  | .request env _ => env.toCallEnv
  | .tick env => env
  | .restart env => env

/-- Every write of the state file that the event makes succeeds. -/
def Event.SavesSucceed (ev : Event) : Prop := ev.env.saveOk = true

/-- Every clock reading that the event takes is earlier than `u`. -/
def Event.Before (u : Int) (ev : Event) : Prop := ∀ i, (ev.env.clock i).micros < u

namespace Daemon

/-- The daemon after an event; `none` is a restart whose engine does not come up. -/
def step (d : Daemon) : Event → Option Daemon
  | .request env req => some (IPCServer.handleRequest rt env req d).2
  | .tick env => some { d with engine := (PolicyEngine.tick rt env d.engine).2 }
  | .restart env =>
    match startEngine rt env d.engine.stateManager.disk with
    | .ok e => some { d with engine := e }
    | .error _ => none

def Step (d : Daemon) (ev : Event) (d' : Daemon) : Prop := d.step rt ev = some d'

/-- A daemon that has just come up on some directory. -/
def Initial (d : Daemon) : Prop :=
  ∃ env disk, startEngine rt env disk = .ok d.engine ∧ d.gatewayCalls = []

/-- A daemon that events whose writes succeeded have led to. -/
def Reached (d : Daemon) : Prop := Reachable (Initial rt) (Step rt) Event.SavesSucceed d

end Daemon

end FocusGuard

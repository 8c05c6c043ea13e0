import UpsOrchestrator.Lib.Runs
import UpsOrchestrator.Workers

/-!
# The server

All contexts of a site as one transition system. A step is a call on one context, run as a whole,
or a restart of the server.

* `Call`, `Call.exec`: the calls on a context.
* `World`, `peersOf`: the contexts of a site and what they see of each other.
* `system`: the transition system; it starts from any files, after `reset_state_on_startup`.
-/

set_option autoImplicit false

namespace UpsOrchestrator

open Lts

/-- The calls on one context. -/
inductive Call
  /-- `fetch_state_from_desktop`, by the poll loop or the state route -/
  | fetch
  /-- `handle_ups_status_transition` -/
  | upsStatus (status : String)
  /-- `handle_ups_status_unavailable` -/
  | upsUnavailable
  /-- the `event` route -/
  | event (event : NutEvent)
  /-- the `update-state` route -/
  | updateState (status : Option DesktopStatus)
  /-- the armed deadline timer -/
  | timer
  /-- a step of a worker thread -/
  | worker (id : ℕ)
  /-- the `command` route -/
  | createCommand (command : String) (event : Option String) (expiresAt : Option (Option Int))
  /-- the `ack` route -/
  | ack (id : String) (status : Ctx.AckStatus)
  deriving DecidableEq, Repr

namespace Ctx

/-- The deadline timer fires, once it is due and if it has not fired. -/
def fireTimer (d : UPSDeviceConfig) (e : Env) (c : Ctx) : Option Ctx :=
  match c.deadlineTimer with
  | none => none
  | some t =>
    if t.fired = false ∧ t.due ≤ e.start then
      some ({ c with deadlineTimer := some { t with fired := true } }.executePhaseAction d e
        .phaseDeadline)
    else none

end Ctx

/-- **A call on a context** whose last effects are forgotten; `none` if it cannot happen now. -/
def Call.exec (d : UPSDeviceConfig) (p : Peers) (e : Env) (c : Ctx) : Call → Option Ctx
  | .fetch => some (c.fetchStateFromDesktop d e).1
  | .upsStatus status => some (c.handleUpsStatusTransition d e p.desktopUpsOnBattery status)
  | .upsUnavailable => some (c.handleUpsStatusUnavailable d e p.desktopUpsOnBattery)
  | .event ev => some (c.handleEvent d e p.desktopUpsOnBattery ev)
  | .updateState status => some (c.updateState d e status)
  | .timer => c.fireTimer d e
  | .worker id => c.workerStep d p e id
  | .createCommand command ev expiresAt => some (c.createCommand e command ev expiresAt)
  | .ack id status => some (c.ack id status)

/-! ## The contexts of a site -/

/-- The server at the end of a step. -/
structure World (s : Site) where
  now : Int
  ctx : s.Ix → Ctx

/-- A call on one context, or a restart. -/
inductive Action (s : Site)
  | call (i : s.Ix) (e : Env) (k : Call)
  | restart (e : Env)

variable {s : Site}

def Action.env : Action s → Env
  | .call _ e _ => e
  | .restart e => e

/-- What context `i` sees of the others: the states of the observers that share its desktop, and
of the primaries that do. -/
def World.peersOf (w : World s) (i : s.Ix) : Peers where
  desktopUpsOnBattery := (s.desktopPeers i true).any fun j => (w.ctx j).inOutage
  owners := (s.desktopPeers i false).map fun j =>
    ⟨(w.ctx j).reportsDesktopDown, (w.ctx j).finishedDesktopHandling⟩

/-- All contexts with the effects of the last step forgotten. -/
def World.quiet (w : World s) : s.Ix → Ctx := fun j => (w.ctx j).quiet

/-- **One step of the server.** The clock does not go back. -/
def World.step (w : World s) (a : Action s) : Option (World s) :=
  if w.now ≤ a.env.start then
    match a with
    | .call i e k =>
      (k.exec (s.dev i) (w.peersOf i) e (w.ctx i).quiet).map fun c =>
        { now := e.stop, ctx := Function.update w.quiet i c }
    | .restart e => some
      { now := e.stop, ctx := fun j => ((w.ctx j).quiet.reboot).resetStateOnStartup e }
  else none

/-- The server as it comes up over the files of `disk`. -/
def World.boot (e : Env) (disk : s.Ix → Ctx) : World s where
  now := e.stop
  ctx j := ({ (disk j).quiet.reboot with spawned := 0 }).resetStateOnStartup e

variable (s) in
/-- **The transition system of a site.** -/
def system : System (World s) (Action s) where
  init w := ∃ e disk, w = World.boot e disk
  step := World.step

end UpsOrchestrator

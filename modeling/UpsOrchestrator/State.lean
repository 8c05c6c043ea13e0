import UpsOrchestrator.Config
import UpsOrchestrator.OutageLog
import Mathlib.Data.List.Infix

/-!
# The state of one UPS context

The files and in-memory fields of a `UPSContext`, the answers a call gets from outside (`Env`)
and the effects it has outside (`Effect`).

* `OrchState`, `DesktopState`, `Command`: the JSON records of the state directory.
* `Pc`, `Thread`: where a worker thread is between two of its steps.
* `Ctx`: all of it, with the primitive updates the handlers are made of.
-/

set_option autoImplicit false

namespace UpsOrchestrator

/-! ## Records -/

/-- Orchestrator state machine modes; `desktopHandled` is for primaries only. -/
inductive Mode
  | idle
  | monitoring
  | shuttingDown
  | desktopHandled
  deriving DecidableEq, Repr

/-- Phases of the monitoring mode. -/
inductive Phase
  | userPrompt
  | offlineWait
  | suspendWait
  deriving DecidableEq, Repr

/-- `orchestrator_state.json`. -/
structure OrchState where
  mode : Mode := .idle
  phase : Option Phase := none
  phaseDeadline : Option Int := none
  onbattSince : Option Int := none
  lastEvent : Option String := none
  deriving DecidableEq, Repr

/-- What a desktop reports about itself; the code compares it with four texts only. -/
inductive DesktopStatus
  | online
  | suspended
  | offline
  | shuttingDown
  | other (text : String)
  deriving DecidableEq, Repr

/-- `desktop_state.json`, or the desktop agent's answer. The key `status` may be absent (`none`),
null (`some none`) or a text. -/
structure DesktopState where
  status : Option (Option DesktopStatus) := none
  deriving DecidableEq, Repr

/-- `state.get("status")` -/
def DesktopState.getStatus (state : DesktopState) : Option DesktopStatus := state.status.join

/-- The desktop has said that it is going away. -/
def DesktopState.isDown (state : DesktopState) : Bool :=
  state.getStatus = some .offline ∨ state.getStatus = some .shuttingDown

inductive CommandStatus
  | pending
  | cancelled
  | done
  | failed
  deriving DecidableEq, Repr

/-- `command.json`. Of the payload only the event is kept, of the result only the reason. -/
structure Command where
  id : String
  command : String
  event : Option String := none
  status : CommandStatus := .pending
  issuedAt : Int
  expiresAt : Option Int := none
  reason : Option String := none
  ackAt : Option Int := none
  deriving DecidableEq, Repr

/-- Events pushed by `upssched-cmd`; any other text is ignored by the handler. -/
inductive NutEvent
  | onbatt
  | lowbatt
  | online
  | desktopSuspendDue
  | other (text : String)
  deriving DecidableEq, Repr

/-- Why a phase action is executed. -/
inductive Reason
  | phaseDeadline
  | lowBattery
  | lowBatteryEvent
  | suspendDueEvent
  deriving DecidableEq, Repr

/-- `LOW_BATTERY_REASONS`: this UPS is about to die. -/
def Reason.isLowBattery (reason : Reason) : Bool :=
  reason = .lowBattery ∨ reason = .lowBatteryEvent

/-- `flag in status`, a substring test. -/
def hasFlag (flag status : String) : Bool := decide (flag.toList <:+: status.toList)

/-! ## Threads and timers -/

/-- A deadline timer: the time from which it may fire, and whether it has. -/
structure Timer where
  due : Int
  fired : Bool := false
  deriving DecidableEq, Repr

/-- Where a worker thread waits: launched and not yet started, asleep, or in a network call. -/
inductive Pc
  /-- launched with `_terminal_action` -/
  | terminalAction
  /-- launched with `_observer_power_off_when_desktop_safe` -/
  | observerPowerOff
  /-- asleep in the hold loop -/
  | observerHolding (deadline : Int)
  /-- launched with `_action_force_shutdown_desktop` -/
  | forceShutdownDesktop
  /-- pushing `critical_shutdown` to the desktop -/
  | pushingShutdown
  /-- asleep in `_wait_for_desktop_then_terminal_action` -/
  | waitingDesktop (deadline : Int)
  /-- launched with `_action_wake_then_shutdown` -/
  | wakeThenShutdown
  /-- sending the first magic packet -/
  | sendingWol
  /-- asking the desktop agent for its state in the wake loop -/
  | fetchingState (deadline nextRetry : Int)
  /-- sending a magic packet again -/
  | resendingWol (deadline : Int)
  /-- asleep in the wake loop -/
  | wakeSleeping (deadline nextRetry : Int)
  deriving DecidableEq, Repr

structure Thread where
  id : ℕ
  pc : Pc
  deriving DecidableEq, Repr

/-! ## The environment of a call -/

/-- The places where one call reads the clock, in the order in which a call passes them. -/
inductive Reading
  | note
  | check
  | onbatt
  | deadline
  | retryBase
  | loop
  | remaining
  | retryCheck
  | commandId
  | issuedAt
  | expiresAt
  | phaseEnd
  | resetEnd
  | ackAt
  deriving DecidableEq, Repr

/-- What a call gets from outside: the clock, which never goes back during a call, the desktop
agent's answer (`none` when it is unreachable) and the answer of `upsc`. -/
structure Env where
  start : Int
  stop : Int
  clock : Reading → Int
  agent : Option DesktopState := none
  upsc : Option String := none
  start_le : ∀ r, start ≤ clock r
  le_stop : ∀ r, clock r ≤ stop
  mono : ∀ r r' : Reading, r.ctorIdx ≤ r'.ctorIdx → clock r ≤ clock r'

/-- A call that takes no time. -/
def Env.at (t : Int) (agent : Option DesktopState := none) (upsc : Option String := none) : Env where
  start := t
  stop := t
  clock _ := t
  agent := agent
  upsc := upsc
  start_le _ := le_rfl
  le_stop _ := le_rfl
  mono _ _ _ := le_rfl

/-! ## Contexts -/

/-- What a call does outside the context's own memory, in order. -/
inductive Effect
  /-- `save_command` -/
  | saveCommand (cmd : Command)
  /-- `push_command_to_desktop` -/
  | pushCommand (cmd : Command)
  /-- `_send_wol` -/
  | sendWol
  /-- `_execute_phase_action` past its mode check -/
  | phaseAction (phase : Phase) (reason : Reason)
  /-- `_self_shutdown` -/
  | selfShutdown
  /-- `_power_off_ups` -/
  | powerOffUps
  deriving DecidableEq, Repr

/-- One `UPSContext`: its files, its fields, its live threads, how many threads it has launched,
and the effects of the last call on the site. -/
structure Ctx where
  orch : OrchState := {}
  desktopState : DesktopState := {}
  command : Option Command := none
  outageLog : OutageLog := {}
  upsOnBattery : Bool := false
  deadlineTimer : Option Timer := none
  threads : List Thread := []
  spawned : ℕ := 0
  out : List Effect := []
  deriving DecidableEq, Repr

namespace Ctx

variable (c : Ctx)

abbrev mode : Mode := c.orch.mode

/-- `in_outage` -/
def inOutage : Bool := c.mode ≠ .idle

/-- `reports_desktop_down` -/
def reportsDesktopDown : Bool := c.desktopState.isDown

/-- `finished_desktop_handling` -/
def finishedDesktopHandling : Bool := c.mode = .desktopHandled

def saveOrchestratorState (orch : OrchState) : Ctx := { c with orch := orch }

def saveDesktopState (state : DesktopState) : Ctx := { c with desktopState := state }

def emit (eff : Effect) : Ctx := { c with out := c.out ++ [eff] }

def saveCommand (cmd : Command) : Ctx :=
  { c with command := some cmd, out := c.out ++ [.saveCommand cmd] }

def recordStart (ts : Int) : Ctx := { c with outageLog := c.outageLog.recordStart ts }

def recordEnd (outcome : Outcome) (now : Int) : Ctx :=
  { c with outageLog := c.outageLog.recordEnd outcome now }

/-- `threading.Thread(target=…).start()` -/
def launch (pc : Pc) : Ctx :=
  { c with threads := c.threads ++ [⟨c.spawned, pc⟩], spawned := c.spawned + 1 }

/-- A thread goes on from `pc`, or has returned. -/
def resume (id : ℕ) (pc : Option Pc) : Ctx :=
  { c with threads := match pc with
      | none => c.threads.filter (·.id ≠ id)
      | some pc => c.threads.map fun th => if th.id = id then ⟨id, pc⟩ else th }

/-- Forget the effects of the last call. -/
def quiet : Ctx := { c with out := [] }

end Ctx

end UpsOrchestrator

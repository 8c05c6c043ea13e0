import UpsOrchestrator.Context

/-!
# Worker threads

The phase-action workers, cut at their sleeps and, for those of a primary, at their network calls.
`segment` is what a thread does from one such point to the next; `none` means that it has returned.

* `terminalAction`: the guard of `_terminal_action` together with the action it releases.
* `holdIteration`, `waitIteration`, `wakeIteration`: one pass through each of the three loops.
-/

set_option autoImplicit false

namespace UpsOrchestrator

/-- What an observer asks each primary that owns its desktop. -/
structure OwnerView where
  reportsDesktopDown : Bool
  finishedDesktopHandling : Bool
  deriving DecidableEq, Repr

/-- What a call sees of the other contexts. -/
structure Peers where
  desktopUpsOnBattery : Bool
  owners : List OwnerView
  deriving DecidableEq, Repr

namespace Ctx

variable (d : UPSDeviceConfig) (p : Peers) (e : Env)

/-- `_terminal_action` -/
def terminalAction (c : Ctx) : Ctx :=
  if c.mode ≠ .shuttingDown then c
  else if !d.isObserver && !c.upsOnBattery then c.leaveMonitoring .desktopHandled none
  else if d.isObserver then c.emit .powerOffUps
  else c.emit .selfShutdown

/-- The hold loop of `_observer_power_off_when_desktop_safe`, from its condition to the sleep. -/
def holdIteration (deadline : Int) (c : Ctx) : Ctx × Option Pc :=
  if e.clock .loop < deadline then
    if c.mode ≠ .shuttingDown then (c, none)
    else if p.owners.any (·.reportsDesktopDown) then (c.emit .powerOffUps, none)
    else if p.owners.any (·.finishedDesktopHandling) then (c.emit .powerOffUps, none)
    else if e.upsc.any (hasFlag "LB") then (c.emit .powerOffUps, none)
    else (c, some (.observerHolding deadline))
  else (c.emit .powerOffUps, none)

/-- `_observer_power_off_when_desktop_safe`, up to its first sleep. -/
def observerPowerOffWhenDesktopSafe (c : Ctx) : Ctx × Option Pc :=
  if p.owners.isEmpty then (c.emit .powerOffUps, none)
  else c.holdIteration p e (e.clock .deadline + d.timing.observerPoweroffMaxWait)

/-- The loop of `_wait_for_desktop_then_terminal_action`, from its condition to the sleep. -/
def waitIteration (deadline : Int) (c : Ctx) : Ctx × Option Pc :=
  if e.clock .loop < deadline then
    if c.mode ≠ .shuttingDown then (c, none)
    else if c.desktopState.isDown then (c.terminalAction d, none)
    else (c, some (.waitingDesktop deadline))
  else (c.terminalAction d, none)

/-- `_wait_for_desktop_then_terminal_action`, up to its first sleep. -/
def waitForDesktopThenTerminalAction (c : Ctx) : Ctx × Option Pc :=
  c.waitIteration d e (e.clock .deadline + d.timing.desktopShutdownWait)

/-- Save `critical_shutdown` and push it. -/
def pushCriticalShutdown (c : Ctx) : Ctx × Option Pc :=
  (c.saveAndPush (makeCriticalShutdownCommand e), some .pushingShutdown)

/-- The end of `_action_wake_then_shutdown`, after its loop. -/
def shutdownAfterWake (c : Ctx) : Ctx × Option Pc :=
  if c.mode ≠ .shuttingDown then (c, none) else c.pushCriticalShutdown e

/-- The loop of `_action_wake_then_shutdown`, from its condition to the request for the state. -/
def wakeIteration (deadline nextRetry : Int) (c : Ctx) : Ctx × Option Pc :=
  if e.clock .loop < deadline then
    if c.mode ≠ .shuttingDown then (c, none)
    else (c, some (.fetchingState deadline nextRetry))
  else c.shutdownAfterWake e

/-- The rest of the loop body, once the desktop's answer is there or has failed. -/
def wakeAfterFetch (deadline nextRetry : Int) (c : Ctx) : Ctx × Option Pc :=
  let (c, state) := c.fetchStateFromDesktop d e
  if (state.getD {}).getStatus = some .online then c.shutdownAfterWake e
  else if d.timing.wolRetryInterval > 0 ∧ e.clock .retryCheck ≥ nextRetry then
    (c.emit .sendWol, some (.resendingWol deadline))
  else (c, some (.wakeSleeping deadline nextRetry))

/-- **One step of a worker thread.** -/
def segment (c : Ctx) : Pc → Ctx × Option Pc
  | .terminalAction => (c.terminalAction d, none)
  | .observerPowerOff => c.observerPowerOffWhenDesktopSafe d p e
  | .observerHolding deadline => c.holdIteration p e deadline
  | .forceShutdownDesktop => c.pushCriticalShutdown e
  | .pushingShutdown => c.waitForDesktopThenTerminalAction d e
  | .waitingDesktop deadline => c.waitIteration d e deadline
  | .wakeThenShutdown => (c.emit .sendWol, some .sendingWol)
  | .sendingWol =>
    c.wakeIteration e (e.clock .deadline + d.timing.wakeOnlineTimeout)
      (e.clock .retryBase + d.timing.wolRetryInterval)
  | .fetchingState deadline nextRetry => c.wakeAfterFetch d e deadline nextRetry
  | .resendingWol deadline =>
    (c, some (.wakeSleeping deadline (e.clock .retryBase + d.timing.wolRetryInterval)))
  | .wakeSleeping deadline nextRetry => c.wakeIteration e deadline nextRetry

/-- The worker thread `id` takes its next step. -/
def workerStep (id : ℕ) (c : Ctx) : Option Ctx :=
  match c.threads.find? (·.id = id) with
  | none => none
  | some th =>
    let (c', pc) := segment d p e c th.pc
    some (c'.resume id pc)

end Ctx

end UpsOrchestrator

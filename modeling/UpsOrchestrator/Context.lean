import UpsOrchestrator.State

/-!
# The handlers of a context

The methods of `UPSContext` that the poll loop, the HTTP routes and the deadline timer call, each
run as one step. Arguments: the device `d`, the answers `e` of the environment and, where a handler
asks its peers, whether the desktop's own UPS is on battery (`peersOut`).

* `startBatteryMonitoring`, `executePhaseAction`, `resetToIdle`: the internal transitions.
* `handleUpsStatusTransition`, `handleUpsStatusUnavailable`, `handleEvent`,
  `notifyDesktopStateChange`: the entry points.
* `createCommand`, `ack`, `preflight`: the command routes of `server.py`.
-/

set_option autoImplicit false

namespace UpsOrchestrator

namespace Ctx

variable (d : UPSDeviceConfig) (e : Env)

/-! ## Desktop communication -/

/-- `fetch_state_from_desktop`: the answer is saved; none when there is no desktop or no answer. -/
def fetchStateFromDesktop (c : Ctx) : Ctx × Option DesktopState :=
  if d.desktop.isNone then (c, none)
  else match e.agent with
    | none => (c, none)
    | some state => (c.saveDesktopState state, some state)

def makeCriticalShutdownCommand : Command where
  id := "shutdown-" ++ toString (e.clock .commandId)
  command := "critical_shutdown"
  issuedAt := e.clock .issuedAt

def makeUpsStateCommand : Command where
  id := "state-" ++ toString (e.clock .commandId)
  command := "ups_state"
  event := some "ONBATT"
  issuedAt := e.clock .issuedAt

/-- `save_command` followed by `push_command_to_desktop` -/
def saveAndPush (cmd : Command) (c : Ctx) : Ctx := (c.saveCommand cmd).emit (.pushCommand cmd)

/-! ## Leaving an outage -/

/-- `_leave_monitoring` -/
def leaveMonitoring (mode : Mode) (lastEvent : Option String) (c : Ctx) : Ctx :=
  { c with
    deadlineTimer := none
    orch := { mode := mode, phase := none, phaseDeadline := none, onbattSince := none
              lastEvent := if lastEvent.isSome then lastEvent else c.orch.lastEvent } }

/-- The end of `_reset_to_idle`: a pending command is cancelled. -/
def cancelPending (reason : String) (c : Ctx) : Ctx :=
  match c.command with
  | none => c
  | some cmd =>
    if cmd.status = .pending then
      c.saveCommand { cmd with
        status := .cancelled, reason := some reason, ackAt := some (e.clock .ackAt) }
    else c

/-- `_reset_to_idle` -/
def resetToIdle (reason : String) (c : Ctx) : Ctx :=
  ((c.recordEnd .powerRestored (e.clock .resetEnd)).leaveMonitoring .idle
    (some "ONLINE")).cancelPending e reason

/-- The end of `reset_state_on_startup`: a pending `critical_shutdown` is cancelled. -/
def cancelShutdownOnStartup (c : Ctx) : Ctx :=
  match c.command with
  | none => c
  | some cmd =>
    if cmd.command = "critical_shutdown" ∧ cmd.status = .pending then
      c.saveCommand { cmd with status := .cancelled, reason := some "server_restart" }
    else c

/-- `reset_state_on_startup` -/
def resetStateOnStartup (c : Ctx) : Ctx :=
  let c := { c with outageLog := c.outageLog.resolveOnStartup (e.clock .resetEnd) }
  (c.leaveMonitoring .idle (some "ONLINE")).cancelShutdownOnStartup

/-- A new server process: the files stay, the fields of the context and its threads are gone. -/
def reboot (c : Ctx) : Ctx :=
  { c with upsOnBattery := false, deadlineTimer := none, threads := [] }

/-! ## Own power -/

/-- `_note_own_power` -/
def noteOwnPower (onBattery : Bool) (c : Ctx) : Ctx :=
  if onBattery = c.upsOnBattery then c
  else
    let c := { c with upsOnBattery := onBattery }
    if !onBattery then c.recordEnd .powerRestored (e.clock .note)
    else if c.mode = .monitoring ∨ c.mode = .shuttingDown then c.recordStart (e.clock .note)
    else c

/-! ## Monitoring -/

/-- `_arm_deadline_timer`; an earlier timer is cancelled. -/
def armDeadlineTimer (delay : Int) (c : Ctx) : Ctx :=
  { c with deadlineTimer := some { due := e.clock .remaining + max delay 0 } }

/-- The desktop status on which `_start_battery_monitoring` chooses the phase: the live one, else
the cached one if it was explicit, else the desktop is taken to be suspended. -/
def statusAtStart (c : Ctx) : Option DesktopStatus :=
  if d.desktop.isNone then none
  else
    let cached := c.desktopState.getStatus
    match e.agent with
    | some live => live.status.getD cached
    | none => if c.desktopState.isDown then cached else some .suspended

def phaseAtStart (status : Option DesktopStatus) : Phase :=
  if d.desktop.isNone ∨ (status ≠ some .online ∧ status ≠ some .suspended) then .offlineWait
  else if status = some .suspended then .suspendWait
  else .userPrompt

def phaseWait : Phase → Int
  | .offlineWait => d.timing.desktopOfflineWait
  | .suspendWait => d.timing.desktopSuspendWait
  | .userPrompt => d.timing.desktopOnlinePromptWait

/-- The record that `_start_battery_monitoring` writes over the record `orch` it has read. -/
def monitoringRecord (phase : Phase) (orch : OrchState) : OrchState :=
  { orch with
    mode := .monitoring
    lastEvent := some "ONBATT"
    onbattSince := some (e.clock .onbatt)
    phase := some phase
    phaseDeadline := some (e.clock .deadline + phaseWait d phase) }

/-- Write the record and arm the timer for what remains until the deadline. -/
def enterPhase (phase : Phase) (c : Ctx) : Ctx :=
  (c.saveOrchestratorState (monitoringRecord d e phase c.orch)).armDeadlineTimer e
    (e.clock .deadline + phaseWait d phase - e.clock .remaining)

/-- An outage of this UPS is logged, one of the desktop's UPS alone is not. -/
def logOwnOutage (c : Ctx) : Ctx := if c.upsOnBattery then c.recordStart (e.clock .onbatt) else c

/-- The phase in which monitoring starts. An observer never coordinates the desktop. -/
def startPhase (c : Ctx) : Phase :=
  if d.isObserver then .offlineWait else phaseAtStart d (statusAtStart d e c)

/-- The live fetch at the start, which an observer does not make. -/
def fetchAtStart (c : Ctx) : Ctx := if d.isObserver then c else (c.fetchStateFromDesktop d e).1

/-- In the phase `user_prompt` the desktop is told at once. -/
def notifyDesktop (phase : Phase) (c : Ctx) : Ctx :=
  if phase = .userPrompt then c.saveAndPush (makeUpsStateCommand e) else c

/-- `_start_battery_monitoring` -/
def startBatteryMonitoring (c : Ctx) : Ctx :=
  let phase := startPhase d e c
  (((c.logOwnOutage e).fetchAtStart d e).enterPhase d e phase).notifyDesktop e phase

/-- `_start_monitoring_if_mode` -/
def startMonitoringIfMode (allowed : List Mode) (c : Ctx) : Ctx :=
  if c.mode ∈ allowed then c.startBatteryMonitoring d e else c

/-! ## Phase actions -/

/-- The worker that a phase action launches. -/
def phaseWorker (phase : Phase) (reason : Reason) : Pc :=
  if d.isObserver then
    if reason.isLowBattery then .terminalAction else .observerPowerOff
  else match phase with
    | .userPrompt => .forceShutdownDesktop
    | .suspendWait => .wakeThenShutdown
    | .offlineWait => .terminalAction

/-- `_execute_phase_action` -/
def executePhaseAction (reason : Reason) (c : Ctx) : Ctx :=
  if c.mode ≠ .monitoring then c
  else
    let phase := c.orch.phase.getD .offlineWait
    let c := c.saveOrchestratorState { c.orch with mode := .shuttingDown }
    let c := c.recordEnd .shutdownInitiated (e.clock .phaseEnd)
    (c.emit (.phaseAction phase reason)).launch (phaseWorker d phase reason)

/-- `_check_phase_deadline`; a missing deadline counts as 0. -/
def checkPhaseDeadline (c : Ctx) : Ctx :=
  if e.clock .check < c.orch.phaseDeadline.getD 0 then c
  else c.executePhaseAction d e .phaseDeadline

/-- `_follow_desktop_ups`: this UPS is on mains. -/
def followDesktopUps (peersOut : Bool) (mode : Mode) (restoreReason : String) (c : Ctx) : Ctx :=
  if peersOut then
    if mode = .idle then c.startMonitoringIfMode d e [.idle]
    else if mode = .monitoring then c.checkPhaseDeadline d e
    else c
  else if mode ≠ .idle then c.resetToIdle e restoreReason
  else c

/-- The low-battery branch of both handlers. -/
def lowBatteryAction (mode : Mode) (reason : Reason) (c : Ctx) : Ctx :=
  if mode = .shuttingDown then c
  else
    let c := if mode ≠ .monitoring then c.startBatteryMonitoring d e else c
    c.executePhaseAction d e reason

/-! ## Entry points -/

/-- The own-power part of `handle_ups_status_transition`. -/
def noteUpsStatus (upsStatus : String) (c : Ctx) : Ctx :=
  if hasFlag "OB" upsStatus || hasFlag "LB" upsStatus then c.noteOwnPower e true
  else if hasFlag "OL" upsStatus then c.noteOwnPower e false
  else c

/-- The branches of `handle_ups_status_transition`, on the mode it has read. -/
def upsStatusAction (peersOut : Bool) (upsStatus : String) (mode : Mode) (c : Ctx) : Ctx :=
  if hasFlag "LB" upsStatus then c.lowBatteryAction d e mode .lowBattery
  else if hasFlag "OB" upsStatus then
    if mode = .idle ∨ mode = .desktopHandled then
      c.startMonitoringIfMode d e [.idle, .desktopHandled]
    else if mode = .monitoring then c.checkPhaseDeadline d e
    else c
  else if hasFlag "OL" upsStatus then c.followDesktopUps d e peersOut mode "power_restored"
  else c

/-- `handle_ups_status_transition` -/
def handleUpsStatusTransition (peersOut : Bool) (upsStatus : String) (c : Ctx) : Ctx :=
  let c := c.noteUpsStatus e upsStatus
  c.upsStatusAction d e peersOut upsStatus c.mode

/-- `handle_ups_status_unavailable` -/
def handleUpsStatusUnavailable (peersOut : Bool) (c : Ctx) : Ctx :=
  let mode := c.mode
  if mode = .monitoring then c.checkPhaseDeadline d e
  else if mode = .idle ∧ peersOut then c.startMonitoringIfMode d e [.idle]
  else c

/-- The own-power part of `handle_event`. -/
def noteEvent (c : Ctx) : NutEvent → Ctx
  | .lowbatt => c.noteOwnPower e true
  | .onbatt => c.noteOwnPower e true
  | .online => c.noteOwnPower e false
  | _ => c

/-- The branches of `handle_event`, on the mode it has read. -/
def eventAction (peersOut : Bool) (mode : Mode) (c : Ctx) : NutEvent → Ctx
  | .lowbatt => c.lowBatteryAction d e mode .lowBatteryEvent
  | .onbatt =>
    if mode = .idle ∨ mode = .desktopHandled then
      c.startMonitoringIfMode d e [.idle, .desktopHandled]
    else c
  | .online => c.followDesktopUps d e peersOut mode "power_restored_event"
  | .desktopSuspendDue =>
    if mode = .monitoring then c.executePhaseAction d e .suspendDueEvent else c
  | .other _ => c

/-- `handle_event` -/
def handleEvent (peersOut : Bool) (event : NutEvent) (c : Ctx) : Ctx :=
  let c := c.noteEvent e event
  c.eventAction d e peersOut c.mode event

/-- `notify_desktop_state_change` -/
def notifyDesktopStateChange (newStatus : Option DesktopStatus) (c : Ctx) : Ctx :=
  if d.isObserver then c
  else if c.mode ≠ .monitoring then c
  else if newStatus = some .offline ∨ newStatus = some .shuttingDown then
    -- nothing left to wait for
    let c := c.saveOrchestratorState { c.orch with mode := .shuttingDown }
    (c.recordEnd .shutdownInitiated (e.clock .phaseEnd)).launch .terminalAction
  else if newStatus = some .suspended ∧ c.orch.phase = some .userPrompt then
    c.saveOrchestratorState { c.orch with
      phase := some .suspendWait
      phaseDeadline := some (e.clock .deadline + d.timing.desktopSuspendWait) }
  else c

/-- The `update-state` route. -/
def updateState (status : Option DesktopStatus) (c : Ctx) : Ctx :=
  (c.saveDesktopState { status := some status }).notifyDesktopStateChange d e status

/-! ## Command routes -/

/-- `create_command`; without `expires_at` the command is given 900 seconds. -/
def createCommand (command : String) (event : Option String) (expiresAt : Option (Option Int))
    (c : Ctx) : Ctx :=
  let cmd : Command :=
    { id := command ++ "-" ++ toString (e.clock .commandId)
      command := command
      event := event
      issuedAt := e.clock .issuedAt
      expiresAt := expiresAt.getD (some (e.clock .expiresAt + 900)) }
  { c with command := some cmd }

/-- The statuses a desktop agent acknowledges a command with. -/
inductive AckStatus
  | done
  | failed
  | cancelled
  deriving DecidableEq, Repr

def AckStatus.toStatus : AckStatus → CommandStatus
  | .done => .done
  | .failed => .failed
  | .cancelled => .cancelled

theorem AckStatus.toStatus_ne_pending (status : AckStatus) : status.toStatus ≠ .pending := by
  cases status <;> decide

/-- The `ack` route. -/
def ack (id : String) (status : AckStatus) (c : Ctx) : Ctx :=
  match c.command with
  | none => c
  | some cmd =>
    if cmd.id = id then { c with command := some { cmd with status := status.toStatus } } else c

inductive PreflightReply
  | allow
  | noCommand
  | commandNotPending
  | idMismatch
  | commandMismatch
  deriving DecidableEq, Repr

/-- The `preflight` route. -/
def preflight (id command : String) (c : Ctx) : PreflightReply :=
  match c.command with
  | none => .noCommand
  | some cmd =>
    if cmd.status ≠ .pending then .commandNotPending
    else if cmd.id ≠ id then .idMismatch
    else if cmd.command ≠ command then .commandMismatch
    else .allow

end Ctx

end UpsOrchestrator

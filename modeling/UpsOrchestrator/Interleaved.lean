import UpsOrchestrator.Lib.Prog
import UpsOrchestrator.Moves

/-!
# Handlers as programs

The handlers for events and statuses once more, as programs whose operations are the reads and
writes of a file or a field, the requests to the desktop and the lock operations.

* `Op`, `Op.exec`: the operations and what they do to a context and its two locks.
* `Handler.handleEvent`, `Handler.handleUpsStatusTransition` and what they call.
* **`solo_handleEvent`**, **`solo_handleUpsStatusTransition`**: run alone, the programs are the
  handlers of `Ctx`.
-/

set_option autoImplicit false

namespace UpsOrchestrator

open Lts

/-- `_action_lock` and `_start_lock` -/
inductive Lock
  | action
  | start
  deriving DecidableEq, Repr

/-- The atomic operations of a handler. -/
inductive Op
  | getOrchestratorState
  | saveOrchestratorState (orch : OrchState)
  | getDesktopState
  | saveDesktopState (state : DesktopState)
  /-- the request of `fetch_state_from_desktop` -/
  | requestState
  | getCommand
  | saveCommand (cmd : Command)
  | pushCommandToDesktop (cmd : Command)
  | getUpsOnBattery
  | setUpsOnBattery (onBattery : Bool)
  /-- `_desktop_ups_on_battery` -/
  | desktopUpsOnBattery
  | nowTs (r : Reading)
  | recordStart (ts : Int)
  | recordEnd (outcome : Outcome) (r : Reading)
  | acquire (lock : Lock)
  | release (lock : Lock)
  | armDeadlineTimer (delay : Int)
  | cancelDeadlineTimer
  /-- the log line of `_execute_phase_action` -/
  | logPhaseAction (phase : Phase) (reason : Reason)
  | startThread (pc : Pc)

/-- What an operation answers. -/
abbrev Op.Ans : Op → Type
  | .getOrchestratorState => OrchState
  | .getDesktopState => DesktopState
  | .requestState => Option DesktopState
  | .getCommand => Option Command
  | .getUpsOnBattery => Bool
  | .desktopUpsOnBattery => Bool
  | .nowTs _ => Int
  | _ => Unit

/-- A context and its locks. -/
structure Shared where
  ctx : Ctx
  action : Bool := false
  start : Bool := false

/-- The clock and the answers of the desktop agent and of the other contexts. -/
abbrev Answers : Type := Env × Bool

/-- **What an operation does.** A lock that is held makes the thread wait. -/
def Op.exec : Prog.Exec Op Op.Ans Shared Answers
  | .getOrchestratorState, _, u => some (u.ctx.orch, u)
  | .saveOrchestratorState orch, _, u =>
    some ((), { u with ctx := u.ctx.saveOrchestratorState orch })
  | .getDesktopState, _, u => some (u.ctx.desktopState, u)
  | .saveDesktopState state, _, u => some ((), { u with ctx := u.ctx.saveDesktopState state })
  | .requestState, e, u => some (e.1.agent, u)
  | .getCommand, _, u => some (u.ctx.command, u)
  | .saveCommand cmd, _, u => some ((), { u with ctx := u.ctx.saveCommand cmd })
  | .pushCommandToDesktop cmd, _, u => some ((), { u with ctx := u.ctx.emit (.pushCommand cmd) })
  | .getUpsOnBattery, _, u => some (u.ctx.upsOnBattery, u)
  | .setUpsOnBattery b, _, u => some ((), { u with ctx := { u.ctx with upsOnBattery := b } })
  | .desktopUpsOnBattery, e, u => some (e.2, u)
  | .nowTs r, e, u => some (e.1.clock r, u)
  | .recordStart ts, _, u => some ((), { u with ctx := u.ctx.recordStart ts })
  | .recordEnd outcome r, e, u => some ((), { u with ctx := u.ctx.recordEnd outcome (e.1.clock r) })
  | .acquire .action, _, u => if u.action then none else some ((), { u with action := true })
  | .acquire .start, _, u => if u.start then none else some ((), { u with start := true })
  | .release .action, _, u => some ((), { u with action := false })
  | .release .start, _, u => some ((), { u with start := false })
  | .armDeadlineTimer delay, e, u => some ((), { u with ctx := u.ctx.armDeadlineTimer e.1 delay })
  | .cancelDeadlineTimer, _, u => some ((), { u with ctx := { u.ctx with deadlineTimer := none } })
  | .logPhaseAction phase reason, _, u =>
    some ((), { u with ctx := u.ctx.emit (.phaseAction phase reason) })
  | .startThread pc, _, u => some ((), { u with ctx := u.ctx.launch pc })

/-- A method of `UPSContext`, as a program. -/
abbrev Handler (α : Type) : Type := Prog Op Op.Ans α

namespace Handler

/-! ## Operations -/

abbrev getOrchestratorState : Handler OrchState := Prog.perform Op.getOrchestratorState
abbrev saveOrchestratorState (orch : OrchState) : Handler Unit :=
  Prog.perform (Op.saveOrchestratorState orch)
abbrev getDesktopState : Handler DesktopState := Prog.perform Op.getDesktopState
abbrev saveDesktopState (state : DesktopState) : Handler Unit :=
  Prog.perform (Op.saveDesktopState state)
abbrev requestState : Handler (Option DesktopState) := Prog.perform Op.requestState
abbrev getCommand : Handler (Option Command) := Prog.perform Op.getCommand
abbrev saveCommand (cmd : Command) : Handler Unit := Prog.perform (Op.saveCommand cmd)
abbrev pushCommandToDesktop (cmd : Command) : Handler Unit :=
  Prog.perform (Op.pushCommandToDesktop cmd)
abbrev getUpsOnBattery : Handler Bool := Prog.perform Op.getUpsOnBattery
abbrev setUpsOnBattery (onBattery : Bool) : Handler Unit :=
  Prog.perform (Op.setUpsOnBattery onBattery)
abbrev desktopUpsOnBattery : Handler Bool := Prog.perform Op.desktopUpsOnBattery
abbrev nowTs (r : Reading) : Handler Int := Prog.perform (Op.nowTs r)
abbrev recordStart (ts : Int) : Handler Unit := Prog.perform (Op.recordStart ts)
abbrev recordEnd (outcome : Outcome) (r : Reading) : Handler Unit :=
  Prog.perform (Op.recordEnd outcome r)
abbrev acquire (lock : Lock) : Handler Unit := Prog.perform (Op.acquire lock)
abbrev release (lock : Lock) : Handler Unit := Prog.perform (Op.release lock)
abbrev armDeadlineTimer (delay : Int) : Handler Unit := Prog.perform (Op.armDeadlineTimer delay)
abbrev cancelDeadlineTimer : Handler Unit := Prog.perform Op.cancelDeadlineTimer
abbrev logPhaseAction (phase : Phase) (reason : Reason) : Handler Unit :=
  Prog.perform (Op.logPhaseAction phase reason)
abbrev startThread (pc : Pc) : Handler Unit := Prog.perform (Op.startThread pc)

/-! ## Methods -/

variable (d : UPSDeviceConfig)

/-- `_note_own_power` -/
def noteOwnPower (onBattery : Bool) : Handler Unit := do
  if onBattery = (← getUpsOnBattery) then pure ()
  else
    setUpsOnBattery onBattery
    if !onBattery then recordEnd .powerRestored .note
    else
      let orch ← getOrchestratorState
      if orch.mode = .monitoring ∨ orch.mode = .shuttingDown then recordStart (← nowTs .note)
      else pure ()

/-- `fetch_state_from_desktop` -/
def fetchStateFromDesktop : Handler (Option DesktopState) := do
  if d.desktop.isNone then pure none
  else
    match ← requestState with
    | none => pure none
    | some state =>
      saveDesktopState state
      pure (some state)

/-- The desktop status on which `_start_battery_monitoring` chooses the phase. -/
def statusAtStart : Handler (Option DesktopStatus) := do
  let state ← getDesktopState
  if d.desktop.isNone then pure none
  else
    match ← fetchStateFromDesktop d with
    | some live => pure (live.status.getD state.getStatus)
    | none => pure (if state.isDown then state.getStatus else some .suspended)

/-- The phase in which monitoring starts. -/
def startPhase : Handler Phase := do
  if d.isObserver then pure .offlineWait
  else pure (Ctx.phaseAtStart d (← statusAtStart d))

/-- What `_start_battery_monitoring` does before it writes the record: it reads the state, logs the
outage, fetches the desktop's state and chooses the phase. -/
def prepareMonitoring : Handler (OrchState × Phase) := do
  let orch ← getOrchestratorState
  let onbattTs ← nowTs .onbatt
  if ← getUpsOnBattery then recordStart onbattTs
  let phase ← startPhase d
  let phaseDeadline := (← nowTs .deadline) + Ctx.phaseWait d phase
  pure ({ orch with
    mode := .monitoring
    lastEvent := some "ONBATT"
    onbattSince := some onbattTs
    phase := some phase
    phaseDeadline := some phaseDeadline }, phase)

/-- The timer and the prompt, after the record is written. -/
def finishMonitoring (orch : OrchState) (phase : Phase) : Handler Unit := do
  armDeadlineTimer (orch.phaseDeadline.getD 0 - (← nowTs .remaining))
  if phase = .userPrompt then
    let cmd : Command :=
      { id := "state-" ++ toString (← nowTs .commandId)
        command := "ups_state"
        event := some "ONBATT"
        issuedAt := ← nowTs .issuedAt }
    saveCommand cmd
    pushCommandToDesktop cmd
  else pure ()

/-- `_start_battery_monitoring` -/
def startBatteryMonitoring : Handler Unit := do
  let (orch, phase) ← prepareMonitoring d
  saveOrchestratorState orch
  finishMonitoring orch phase

/-- `_start_monitoring_if_mode` -/
def startMonitoringIfMode (allowed : List Mode) : Handler Unit := do
  acquire .start
  let orch ← getOrchestratorState
  if orch.mode ∈ allowed then startBatteryMonitoring d
  release .start

/-- `_execute_phase_action` -/
def executePhaseAction (reason : Reason) : Handler Unit := do
  acquire .action
  let orch ← getOrchestratorState
  if orch.mode ≠ .monitoring then release .action
  else
    let phase := orch.phase.getD .offlineWait
    logPhaseAction phase reason
    saveOrchestratorState { orch with mode := .shuttingDown }
    recordEnd .shutdownInitiated .phaseEnd
    release .action
    startThread (Ctx.phaseWorker d phase reason)

/-- `_check_phase_deadline` -/
def checkPhaseDeadline : Handler Unit := do
  let orch ← getOrchestratorState
  if (← nowTs .check) < orch.phaseDeadline.getD 0 then pure ()
  else executePhaseAction d .phaseDeadline

/-- `_leave_monitoring` -/
def leaveMonitoring (mode : Mode) (lastEvent : Option String) : Handler Unit := do
  cancelDeadlineTimer
  let orch ← getOrchestratorState
  saveOrchestratorState
    { mode := mode, phase := none, phaseDeadline := none, onbattSince := none
      lastEvent := if lastEvent.isSome then lastEvent else orch.lastEvent }

/-- The end of `_reset_to_idle`. -/
def cancelPending (reason : String) : Handler Unit := do
  match ← getCommand with
  | none => pure ()
  | some cmd =>
    if cmd.status = .pending then
      saveCommand { cmd with
        status := .cancelled, reason := some reason, ackAt := some (← nowTs .ackAt) }
    else pure ()

/-- `_reset_to_idle` -/
def resetToIdle (reason : String) : Handler Unit := do
  recordEnd .powerRestored .resetEnd
  acquire .action
  leaveMonitoring .idle (some "ONLINE")
  release .action
  cancelPending reason

/-- `_follow_desktop_ups` -/
def followDesktopUps (mode : Mode) (restoreReason : String) : Handler Unit := do
  if ← desktopUpsOnBattery then
    if mode = .idle then startMonitoringIfMode d [.idle]
    else if mode = .monitoring then checkPhaseDeadline d
    else pure ()
  else if mode ≠ .idle then resetToIdle restoreReason
  else pure ()

/-- The low-battery branch of both handlers. -/
def lowBatteryAction (mode : Mode) (reason : Reason) : Handler Unit := do
  if mode = .shuttingDown then pure ()
  else
    if mode ≠ .monitoring then startBatteryMonitoring d
    executePhaseAction d reason

/-- The own-power part of `handle_ups_status_transition`. -/
def noteUpsStatus (upsStatus : String) : Handler Unit :=
  if hasFlag "OB" upsStatus || hasFlag "LB" upsStatus then noteOwnPower true
  else if hasFlag "OL" upsStatus then noteOwnPower false
  else pure ()

/-- `handle_ups_status_transition` -/
def handleUpsStatusTransition (upsStatus : String) : Handler Unit := do
  noteUpsStatus upsStatus
  let orch ← getOrchestratorState
  if hasFlag "LB" upsStatus then lowBatteryAction d orch.mode .lowBattery
  else if hasFlag "OB" upsStatus then
    if orch.mode = .idle ∨ orch.mode = .desktopHandled then
      startMonitoringIfMode d [.idle, .desktopHandled]
    else if orch.mode = .monitoring then checkPhaseDeadline d
    else pure ()
  else if hasFlag "OL" upsStatus then followDesktopUps d orch.mode "power_restored"
  else pure ()

/-- The own-power part of `handle_event`. -/
def noteEvent : NutEvent → Handler Unit
  | .lowbatt => noteOwnPower true
  | .onbatt => noteOwnPower true
  | .online => noteOwnPower false
  | _ => pure ()

/-- `handle_event` -/
def handleEvent (event : NutEvent) : Handler Unit := do
  noteEvent event
  let orch ← getOrchestratorState
  match event with
  | .lowbatt => lowBatteryAction d orch.mode .lowBatteryEvent
  | .onbatt =>
    if orch.mode = .idle ∨ orch.mode = .desktopHandled then
      startMonitoringIfMode d [.idle, .desktopHandled]
    else pure ()
  | .online => followDesktopUps d orch.mode "power_restored_event"
  | .desktopSuspendDue =>
    if orch.mode = .monitoring then executePhaseAction d .suspendDueEvent else pure ()
  | .other _ => pure ()

/-! ## Run alone -/

section Solo

attribute [local simp] Prog.solo_bind Op.exec

variable {d} {e : Env} {o : Bool} {c : Ctx} {a s : Bool}

@[simp] theorem solo_noteOwnPower (b : Bool) : (noteOwnPower b).solo Op.exec (e, o) ⟨c, a, s⟩ =
    some ((), ⟨c.noteOwnPower e b, a, s⟩) := by
  by_cases hb : b = c.upsOnBattery
  · simp [noteOwnPower, Ctx.noteOwnPower, hb]
  unfold noteOwnPower Ctx.noteOwnPower
  cases b with
  | false => simp [Ne.symm hb]
  | true =>
    by_cases hm : c.mode = .monitoring ∨ c.mode = .shuttingDown
    · simp [Ne.symm hb, hm]
    · simp [Ne.symm hb, hm]

@[simp] theorem solo_fetchStateFromDesktop :
    (fetchStateFromDesktop d).solo Op.exec (e, o) ⟨c, a, s⟩ =
      some ((c.fetchStateFromDesktop d e).2, ⟨(c.fetchStateFromDesktop d e).1, a, s⟩) := by
  unfold fetchStateFromDesktop Ctx.fetchStateFromDesktop
  by_cases hd : d.desktop.isNone
  · simp [hd]
  cases ha : e.agent with
  | none => simp [hd, ha]
  | some state => simp [hd, ha]

@[simp] theorem solo_statusAtStart : (statusAtStart d).solo Op.exec (e, o) ⟨c, a, s⟩ =
    some (c.statusAtStart d e, ⟨(c.fetchStateFromDesktop d e).1, a, s⟩) := by
  unfold statusAtStart Ctx.statusAtStart Ctx.fetchStateFromDesktop
  by_cases hd : d.desktop.isNone
  · simp [hd]
  cases ha : e.agent with
  | none =>
    by_cases hs : c.desktopState.isDown
    · simp [hd, ha, hs, Ctx.fetchStateFromDesktop]
    · simp [hd, ha, hs, Ctx.fetchStateFromDesktop]
  | some state => simp [hd, ha, Ctx.fetchStateFromDesktop]

@[simp] theorem solo_startPhase : (startPhase d).solo Op.exec (e, o) ⟨c, a, s⟩ =
    some (c.startPhase d e, ⟨c.fetchAtStart d e, a, s⟩) := by
  unfold startPhase Ctx.startPhase Ctx.fetchAtStart
  by_cases hr : d.isObserver
  · simp [hr]
  · simp [hr]

@[simp] theorem solo_prepareMonitoring : (prepareMonitoring d).solo Op.exec (e, o) ⟨c, a, s⟩ =
    some ((Ctx.monitoringRecord d e (c.startPhase d e) c.orch, c.startPhase d e),
      ⟨(c.logOwnOutage e).fetchAtStart d e, a, s⟩) := by
  unfold prepareMonitoring Ctx.monitoringRecord Ctx.logOwnOutage
  by_cases hb : c.upsOnBattery
  · have hp : (c.recordStart (e.clock .onbatt)).startPhase d e = c.startPhase d e := rfl
    simp [hb, hp]
  · simp [hb]

@[simp] theorem solo_finishMonitoring (orch : OrchState) (phase : Phase) :
    (finishMonitoring orch phase).solo Op.exec (e, o) ⟨c, a, s⟩ =
      some ((), ⟨(c.armDeadlineTimer e
        (orch.phaseDeadline.getD 0 - e.clock .remaining)).notifyDesktop e phase, a, s⟩) := by
  unfold finishMonitoring Ctx.notifyDesktop Ctx.saveAndPush Ctx.makeUpsStateCommand
  by_cases hp : phase = .userPrompt
  · simp [hp]
  · simp [hp]

@[simp] theorem solo_startBatteryMonitoring :
    (startBatteryMonitoring d).solo Op.exec (e, o) ⟨c, a, s⟩ =
      some ((), ⟨c.startBatteryMonitoring d e, a, s⟩) := by
  have horch : ((c.logOwnOutage e).fetchAtStart d e).orch = c.orch := by
    obtain ⟨log, h1⟩ := Ctx.logOwnOutage_eq (c := c) (e := e)
    obtain ⟨st, h2⟩ := Ctx.fetchAtStart_eq (c := c.logOwnOutage e) (d := d) (e := e)
    rw [h2, h1]
  simp only [startBatteryMonitoring, Ctx.startBatteryMonitoring, Ctx.enterPhase, horch,
    Prog.bind_eq, Prog.solo_bind, solo_prepareMonitoring, Option.bind_some, Prog.solo_perform,
    Op.exec, solo_finishMonitoring]
  rfl

@[simp] theorem solo_startMonitoringIfMode (allowed : List Mode) :
    (startMonitoringIfMode d allowed).solo Op.exec (e, o) ⟨c, a, false⟩ =
      some ((), ⟨c.startMonitoringIfMode d e allowed, a, false⟩) := by
  unfold startMonitoringIfMode Ctx.startMonitoringIfMode
  by_cases hm : c.mode ∈ allowed
  · simp [hm]
  · simp [hm]

@[simp] theorem solo_executePhaseAction (reason : Reason) :
    (executePhaseAction d reason).solo Op.exec (e, o) ⟨c, false, s⟩ =
      some ((), ⟨c.executePhaseAction d e reason, false, s⟩) := by
  unfold executePhaseAction Ctx.executePhaseAction
  by_cases hm : c.mode = .monitoring
  · simp [hm]
    rfl
  · simp [hm]

@[simp] theorem solo_checkPhaseDeadline :
    (checkPhaseDeadline d).solo Op.exec (e, o) ⟨c, false, s⟩ =
      some ((), ⟨c.checkPhaseDeadline d e, false, s⟩) := by
  unfold checkPhaseDeadline Ctx.checkPhaseDeadline
  by_cases hlt : e.clock .check < c.orch.phaseDeadline.getD 0
  · simp [hlt]
  · simp [hlt]

@[simp] theorem solo_leaveMonitoring (mode : Mode) (lastEvent : Option String) :
    (leaveMonitoring mode lastEvent).solo Op.exec (e, o) ⟨c, a, s⟩ =
      some ((), ⟨c.leaveMonitoring mode lastEvent, a, s⟩) := by
  simp [leaveMonitoring, Ctx.leaveMonitoring, Ctx.saveOrchestratorState]

@[simp] theorem solo_cancelPending (reason : String) :
    (cancelPending reason).solo Op.exec (e, o) ⟨c, a, s⟩ =
      some ((), ⟨c.cancelPending e reason, a, s⟩) := by
  unfold cancelPending Ctx.cancelPending
  cases hc : c.command with
  | none => simp [hc]
  | some cmd =>
    by_cases hp : cmd.status = .pending
    · simp [hc, hp]
    · simp [hc, hp]

@[simp] theorem solo_resetToIdle (reason : String) :
    (resetToIdle reason).solo Op.exec (e, o) ⟨c, false, s⟩ =
      some ((), ⟨c.resetToIdle e reason, false, s⟩) := by
  simp [resetToIdle, Ctx.resetToIdle]

@[simp] theorem solo_followDesktopUps (mode : Mode) (reason : String) :
    (followDesktopUps d mode reason).solo Op.exec (e, o) ⟨c, false, false⟩ =
      some ((), ⟨c.followDesktopUps d e o mode reason, false, false⟩) := by
  unfold followDesktopUps Ctx.followDesktopUps
  cases o <;> cases mode <;> simp

@[simp] theorem solo_lowBatteryAction (mode : Mode) (reason : Reason) :
    (lowBatteryAction d mode reason).solo Op.exec (e, o) ⟨c, false, s⟩ =
      some ((), ⟨c.lowBatteryAction d e mode reason, false, s⟩) := by
  unfold lowBatteryAction Ctx.lowBatteryAction
  cases mode <;> simp

@[simp] theorem solo_noteUpsStatus (upsStatus : String) :
    (noteUpsStatus upsStatus).solo Op.exec (e, o) ⟨c, a, s⟩ =
      some ((), ⟨c.noteUpsStatus e upsStatus, a, s⟩) := by
  unfold noteUpsStatus Ctx.noteUpsStatus
  split_ifs <;> simp

@[simp] theorem solo_noteEvent (event : NutEvent) :
    (noteEvent event).solo Op.exec (e, o) ⟨c, a, s⟩ = some ((), ⟨c.noteEvent e event, a, s⟩) := by
  cases event <;> simp [noteEvent, Ctx.noteEvent]

/-- **A status handled alone** is handled as in one step. Low battery takes no start lock. -/
theorem solo_handleUpsStatusTransition (upsStatus : String)
    (hs : hasFlag "LB" upsStatus = false → s = false) :
    (handleUpsStatusTransition d upsStatus).solo Op.exec (e, o) ⟨c, false, s⟩ =
      some ((), ⟨c.handleUpsStatusTransition d e o upsStatus, false, s⟩) := by
  unfold handleUpsStatusTransition Ctx.handleUpsStatusTransition Ctx.upsStatusAction
  generalize hc : c.noteUpsStatus e upsStatus = c'
  by_cases hl : hasFlag "LB" upsStatus
  · simp [hl, hc]
  obtain rfl := hs (by simpa using hl)
  by_cases hb : hasFlag "OB" upsStatus
  · cases hm : c'.mode <;> simp [hl, hb, hc, hm]
  by_cases ho : hasFlag "OL" upsStatus
  · simp [hl, hb, ho, hc]
  · simp [hl, hb, ho, hc]

/-- **An event handled alone** is handled as in one step. -/
theorem solo_handleEvent (event : NutEvent) (hs : event ≠ .lowbatt → s = false) :
    (handleEvent d event).solo Op.exec (e, o) ⟨c, false, s⟩ =
      some ((), ⟨c.handleEvent d e o event, false, s⟩) := by
  unfold handleEvent Ctx.handleEvent
  generalize hc : c.noteEvent e event = c'
  cases event with
  | lowbatt => simp [Ctx.eventAction, hc]
  | onbatt =>
    obtain rfl := hs (by simp)
    cases hm : c'.mode <;> simp [Ctx.eventAction, hc, hm]
  | online =>
    obtain rfl := hs (by simp)
    simp [Ctx.eventAction, hc]
  | desktopSuspendDue =>
    by_cases hm : c'.mode = .monitoring
    · simp [Ctx.eventAction, hc, hm]
    · simp [Ctx.eventAction, hc, hm]
  | other text => simp [Ctx.eventAction, hc]

end Solo

end Handler

/-! ## Parts without the record and the locks -/

/-- The operation writes the record or has to do with a lock. -/
def Op.steers : Op → Bool
  | .saveOrchestratorState _ => true
  | .acquire _ => true
  | .release _ => true
  | _ => false

/-- The operation reads or writes the record or has to do with a lock. -/
def Op.coordinates : Op → Bool
  | .getOrchestratorState => true
  | op => op.steers

theorem Op.steers_of_not_coordinates {op : Op} (h : op.coordinates = false) : op.steers = false := by
  cases op with
  | getOrchestratorState => rfl
  | _ => exact h

namespace Handler

variable {d : UPSDeviceConfig}

theorem avoids_noteOwnPower (b : Bool) : (noteOwnPower b).Avoids Op.steers := by
  refine ⟨rfl, fun onBattery => ?_⟩
  simp only [Prog.ret_bind]
  split_ifs
  · trivial
  · exact ⟨rfl, fun _ => ⟨rfl, fun _ => trivial⟩⟩
  · refine ⟨rfl, fun _ => ⟨rfl, fun orch => ?_⟩⟩
    simp only [Prog.ret_bind]
    split_ifs
    · exact ⟨rfl, fun _ => ⟨rfl, fun _ => trivial⟩⟩
    · trivial

theorem avoids_fetchStateFromDesktop : (fetchStateFromDesktop d).Avoids Op.coordinates := by
  unfold fetchStateFromDesktop
  split_ifs
  · trivial
  · refine ⟨rfl, fun live => ?_⟩
    cases live with
    | none => trivial
    | some state => exact ⟨rfl, fun _ => trivial⟩

theorem avoids_startPhase : (startPhase d).Avoids Op.coordinates := by
  have hstatus : (statusAtStart d).Avoids Op.coordinates := by
    refine ⟨rfl, fun state => ?_⟩
    split_ifs
    · trivial
    · refine avoids_fetchStateFromDesktop.bind fun live => ?_
      cases live <;> trivial
  unfold startPhase
  split_ifs
  · trivial
  · exact hstatus.bind fun _ => trivial

theorem avoids_prepareMonitoring : (prepareMonitoring d).Avoids Op.steers := by
  have hphase : (startPhase d).Avoids Op.steers :=
    avoids_startPhase.mono fun _ => Op.steers_of_not_coordinates
  refine ⟨rfl, fun _ => ⟨rfl, fun _ => ⟨rfl, fun onBattery => ?_⟩⟩⟩
  cases onBattery with
  | false => exact hphase.bind fun _ => ⟨rfl, fun _ => trivial⟩
  | true => exact ⟨rfl, fun _ => hphase.bind fun _ => ⟨rfl, fun _ => trivial⟩⟩

theorem avoids_finishMonitoring (orch : OrchState) (phase : Phase) :
    (finishMonitoring orch phase).Avoids Op.coordinates := by
  refine ⟨rfl, fun _ => ⟨rfl, fun _ => ?_⟩⟩
  split_ifs
  · exact ⟨rfl, fun _ => ⟨rfl, fun _ => ⟨rfl, fun _ => ⟨rfl, fun _ => trivial⟩⟩⟩⟩
  · trivial

end Handler

end UpsOrchestrator

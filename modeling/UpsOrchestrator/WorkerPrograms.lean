import UpsOrchestrator.Reports

/-!
# Workers as programs

The worker threads once more, as programs: their operations are those of the handlers, the questions
to `upsc` and to the owning primaries, and what a worker does outside.

* `WorkerOp`, `WorkerOp.exec`: the operations.
* `Worker.segment`: what a worker does from one sleep or network call to the next; `Worker.run`: a
  worker over a number of them.
* **`solo_segment`**: run alone, a segment is a step of the worker.
* `Handler.handleUpsStatusUnavailable`, `Handler.updateState`: the handlers that follow no power call.
-/

set_option autoImplicit false

namespace UpsOrchestrator

open Lts

/-! ## The remaining handlers -/

namespace Handler

variable (d : UPSDeviceConfig)

/-- `handle_ups_status_unavailable` -/
def handleUpsStatusUnavailable : Handler Unit := do
  let orch ← getOrchestratorState
  if orch.mode = .monitoring then checkPhaseDeadline d
  else if orch.mode = .idle then
    if ← desktopUpsOnBattery then startMonitoringIfMode d [.idle]
    else pure ()
  else pure ()

/-- The `update-state` route. -/
def updateState (status : Option DesktopStatus) : Handler Unit := do
  saveDesktopState { status := some status }
  notifyDesktopStateChange d status

/-- The `command` route. -/
def createCommand (command : String) (event : Option String) (expiresAt : Option (Option Int)) :
    Handler Unit := do
  let commandId ← nowTs .commandId
  let issuedAt ← nowTs .issuedAt
  let now ← nowTs .expiresAt
  saveCommand
    { id := command ++ "-" ++ toString commandId
      command := command
      event := event
      issuedAt := issuedAt
      expiresAt := expiresAt.getD (some (now + 900)) }

/-- The `ack` route. -/
def ack (id : String) (status : Ctx.AckStatus) : Handler Unit := do
  match ← getCommand with
  | none => pure ()
  | some cmd =>
    if cmd.id = id then saveCommand { cmd with status := status.toStatus } else pure ()

variable {d} {e : Env} {o : Bool} {c : Ctx} {a s : Bool}

theorem solo_handleUpsStatusUnavailable :
    (handleUpsStatusUnavailable d).solo Op.exec (e, o) ⟨c, false, false⟩ =
      some ((), ⟨c.handleUpsStatusUnavailable d e o, false, false⟩) := by
  unfold handleUpsStatusUnavailable Ctx.handleUpsStatusUnavailable
  cases hm : c.mode with
  | idle => cases o <;> simp [hm, Prog.solo_bind, Op.exec]
  | _ => simp [hm, Prog.solo_bind, Op.exec]

theorem solo_updateState (status : Option DesktopStatus) :
    (updateState d status).solo Op.exec (e, o) ⟨c, false, s⟩ =
      some ((), ⟨c.updateState d e status, false, s⟩) := by
  have hreport := solo_notifyDesktopStateChange (d := d) (e := e) (o := o) (s := s)
    (c := c.saveDesktopState { status := some status }) status
  simp [updateState, Ctx.updateState, Prog.solo_bind, Op.exec, hreport]

/-- The two routes also write what they save into the list of effects. -/
theorem solo_createCommand (command : String) (event : Option String)
    (expiresAt : Option (Option Int)) : ∃ out,
    (createCommand command event expiresAt).solo Op.exec (e, o) ⟨c, a, s⟩ =
      some ((), ⟨{ c.createCommand e command event expiresAt with out := out }, a, s⟩) :=
  ⟨_, rfl⟩

theorem solo_ack (id : String) (status : Ctx.AckStatus) : ∃ out,
    (ack id status).solo Op.exec (e, o) ⟨c, a, s⟩ =
      some ((), ⟨{ c.ack id status with out := out }, a, s⟩) := by
  have hread : (ack id status).solo Op.exec (e, o) ⟨c, a, s⟩ = (match c.command with
      | none => pure ()
      | some cmd =>
        if cmd.id = id then saveCommand { cmd with status := status.toStatus } else pure () :
      Handler Unit).solo Op.exec (e, o) ⟨c, a, s⟩ := rfl
  rw [hread, Ctx.ack]
  cases c.command with
  | none => exact ⟨c.out, rfl⟩
  | some cmd =>
    by_cases hid : cmd.id = id
    · simp only [if_pos hid]
      exact ⟨_, rfl⟩
    · simp only [if_neg hid]
      exact ⟨c.out, rfl⟩

end Handler

/-! ## Operations of a worker -/

/-- The operations of a worker thread. -/
inductive WorkerOp
  /-- an operation of a handler -/
  | handler (o : Op)
  /-- `_desktop_peers(observers=False)` is empty -/
  | ownerless
  /-- `any(o.reports_desktop_down() for o in owners)` -/
  | reportsDesktopDown
  /-- `any(o.finished_desktop_handling() for o in owners)` -/
  | finishedDesktopHandling
  | readUpsStatus
  | sendWol
  | powerOffUps
  | selfShutdown

abbrev WorkerOp.Ans : WorkerOp → Type
  | .handler o => o.Ans
  | .ownerless => Bool
  | .reportsDesktopDown => Bool
  | .finishedDesktopHandling => Bool
  | .readUpsStatus => Option String
  | _ => Unit

/-- **What an operation of a worker does.** -/
def WorkerOp.exec : Prog.Exec WorkerOp WorkerOp.Ans Shared (Env × Peers)
  | .handler o, e, u => o.exec (e.1, e.2.desktopUpsOnBattery) u
  | .ownerless, e, u => some (e.2.owners.isEmpty, u)
  | .reportsDesktopDown, e, u => some (e.2.owners.any (·.reportsDesktopDown), u)
  | .finishedDesktopHandling, e, u => some (e.2.owners.any (·.finishedDesktopHandling), u)
  | .readUpsStatus, e, u => some (e.1.upsc, u)
  | .sendWol, _, u => some ((), { u with ctx := u.ctx.emit .sendWol })
  | .powerOffUps, _, u => some ((), { u with ctx := u.ctx.emit .powerOffUps })
  | .selfShutdown, _, u => some ((), { u with ctx := u.ctx.emit .selfShutdown })

/-- A part of a worker thread, as a program. -/
abbrev Worker (α : Type) : Type := Prog WorkerOp WorkerOp.Ans α

/-- A method that handlers and workers share. -/
abbrev Handler.asWorker {α : Type} (p : Handler α) : Worker α :=
  p.embed WorkerOp.handler fun _ a => a

instance : MonadLift Handler Worker where
  monadLift := Handler.asWorker

theorem solo_asWorker {α : Type} {e : Env} {p : Peers} (h : Handler α) (u : Shared) :
    h.asWorker.solo WorkerOp.exec (e, p) u = h.solo Op.exec (e, p.desktopUpsOnBattery) u := by
  refine Prog.solo_embed (fun o u => ?_) h u
  rw [WorkerOp.exec]
  exact Option.map_id' ..

namespace Worker

abbrev ownerless : Worker Bool := Prog.perform WorkerOp.ownerless
abbrev reportsDesktopDown : Worker Bool := Prog.perform WorkerOp.reportsDesktopDown
abbrev finishedDesktopHandling : Worker Bool := Prog.perform WorkerOp.finishedDesktopHandling
abbrev readUpsStatus : Worker (Option String) := Prog.perform WorkerOp.readUpsStatus
abbrev sendWol : Worker Unit := Prog.perform WorkerOp.sendWol
abbrev powerOffUps : Worker Unit := Prog.perform WorkerOp.powerOffUps
abbrev selfShutdown : Worker Unit := Prog.perform WorkerOp.selfShutdown

/-! ## Methods -/

variable (d : UPSDeviceConfig)

open Handler in
/-- `_terminal_action`; the own power is looked at by a primary only. -/
def terminalAction : Worker Unit := do
  acquire .action
  let orch ← getOrchestratorState
  if orch.mode ≠ .shuttingDown then release .action
  else if d.isObserver then
    release .action
    powerOffUps
  else if ← getUpsOnBattery then
    release .action
    selfShutdown
  else
    leaveMonitoring .desktopHandled none
    release .action

open Handler in
/-- The hold loop of `_observer_power_off_when_desktop_safe`, from its condition to the sleep. -/
def holdIteration (deadline : Int) : Worker (Option Pc) := do
  if (← nowTs .loop) < deadline then
    let orch ← getOrchestratorState
    if orch.mode ≠ .shuttingDown then pure none
    else if ← reportsDesktopDown then
      powerOffUps
      pure none
    else if ← finishedDesktopHandling then
      powerOffUps
      pure none
    else if (← readUpsStatus).any (hasFlag "LB") then
      powerOffUps
      pure none
    else pure (some (.observerHolding deadline))
  else
    powerOffUps
    pure none

open Handler in
/-- `_observer_power_off_when_desktop_safe`, up to its first sleep. -/
def observerPowerOffWhenDesktopSafe : Worker (Option Pc) := do
  if ← ownerless then
    powerOffUps
    pure none
  else holdIteration ((← nowTs .deadline) + d.timing.observerPoweroffMaxWait)

open Handler in
/-- The loop of `_wait_for_desktop_then_terminal_action`, from its condition to the sleep. -/
def waitIteration (deadline : Int) : Worker (Option Pc) := do
  if (← nowTs .loop) < deadline then
    let orch ← getOrchestratorState
    if orch.mode ≠ .shuttingDown then pure none
    else
      let state ← getDesktopState
      if state.isDown then
        terminalAction d
        pure none
      else pure (some (.waitingDesktop deadline))
  else
    terminalAction d
    pure none

open Handler in
/-- `_wait_for_desktop_then_terminal_action`, up to its first sleep. -/
def waitForDesktopThenTerminalAction : Worker (Option Pc) := do
  waitIteration d ((← nowTs .deadline) + d.timing.desktopShutdownWait)

open Handler in
/-- Save `critical_shutdown` and push it. -/
def pushCriticalShutdown : Worker (Option Pc) := do
  let commandId ← nowTs .commandId
  let issuedAt ← nowTs .issuedAt
  let cmd : Command :=
    { id := "shutdown-" ++ toString commandId
      command := "critical_shutdown"
      issuedAt := issuedAt }
  saveCommand cmd
  pushCommandToDesktop cmd
  pure (some .pushingShutdown)

open Handler in
/-- The end of `_action_wake_then_shutdown`, after its loop. -/
def shutdownAfterWake : Worker (Option Pc) := do
  let orch ← getOrchestratorState
  if orch.mode ≠ .shuttingDown then pure none else pushCriticalShutdown

open Handler in
/-- The loop of `_action_wake_then_shutdown`, from its condition to the request for the state. -/
def wakeIteration (deadline nextRetry : Int) : Worker (Option Pc) := do
  if (← nowTs .loop) < deadline then
    let orch ← getOrchestratorState
    if orch.mode ≠ .shuttingDown then pure none
    else pure (some (.fetchingState deadline nextRetry))
  else shutdownAfterWake

open Handler in
/-- The rest of the loop body. The clock is read only if there is an interval. -/
def wakeAfterFetch (deadline nextRetry : Int) : Worker (Option Pc) := do
  let state ← fetchStateFromDesktop d
  if (state.getD {}).getStatus = some .online then shutdownAfterWake
  else if d.timing.wolRetryInterval > 0 then
    if (← nowTs .retryCheck) ≥ nextRetry then
      sendWol
      pure (some (.resendingWol deadline))
    else pure (some (.wakeSleeping deadline nextRetry))
  else pure (some (.wakeSleeping deadline nextRetry))

open Handler in
/-- **What a worker does** from `pc` to its next sleep or network call. -/
def segment : Pc → Worker (Option Pc)
  | .terminalAction => do
    terminalAction d
    pure none
  | .observerPowerOff => observerPowerOffWhenDesktopSafe d
  | .observerHolding deadline => holdIteration deadline
  | .forceShutdownDesktop => pushCriticalShutdown
  | .pushingShutdown => waitForDesktopThenTerminalAction d
  | .waitingDesktop deadline => waitIteration d deadline
  | .wakeThenShutdown => do
    sendWol
    pure (some .sendingWol)
  | .sendingWol => do
    let deadline := (← nowTs .deadline) + d.timing.wakeOnlineTimeout
    let nextRetry := (← nowTs .retryBase) + d.timing.wolRetryInterval
    wakeIteration deadline nextRetry
  | .fetchingState deadline nextRetry => wakeAfterFetch d deadline nextRetry
  | .resendingWol deadline => do
    let nextRetry := (← nowTs .retryBase) + d.timing.wolRetryInterval
    pure (some (.wakeSleeping deadline nextRetry))
  | .wakeSleeping deadline nextRetry => wakeIteration deadline nextRetry

/-- A worker at `pc`, over at most `n` segments. -/
def run : ℕ → Pc → Worker Unit
  | 0, _ => pure ()
  | n + 1, pc => do
    match ← segment d pc with
    | none => pure ()
    | some pc => run n pc

/-! ## Run alone -/

section Solo

attribute [local simp] Prog.solo_bind solo_asWorker WorkerOp.exec Op.exec

variable {d : UPSDeviceConfig} {e : Env} {p : Peers} {c : Ctx} {s : Bool}

@[simp] theorem liftM_eq {α : Type} (h : Handler α) : (liftM h : Worker α) = h.asWorker := rfl

@[simp] theorem solo_terminalAction :
    (terminalAction d).solo WorkerOp.exec (e, p) ⟨c, false, s⟩ =
      some ((), ⟨c.terminalAction d, false, s⟩) := by
  unfold terminalAction Ctx.terminalAction
  by_cases hm : c.mode = .shuttingDown
  · by_cases hd : d.isObserver
    · simp [hm, hd]
    · cases hb : c.upsOnBattery <;> simp [hm, hd, hb]
  · simp [hm]

@[simp] theorem solo_holdIteration (deadline : Int) :
    (holdIteration deadline).solo WorkerOp.exec (e, p) ⟨c, false, s⟩ =
      some ((c.holdIteration p e deadline).2, ⟨(c.holdIteration p e deadline).1, false, s⟩) := by
  unfold holdIteration Ctx.holdIteration
  by_cases hlt : e.clock .loop < deadline
  · by_cases hm : c.mode = .shuttingDown
    · by_cases h1 : p.owners.any (·.reportsDesktopDown)
      · simp [hlt, hm, h1]
      by_cases h2 : p.owners.any (·.finishedDesktopHandling)
      · simp [hlt, hm, h1, h2]
      by_cases h3 : e.upsc.any (hasFlag "LB")
      · simp [hlt, hm, h1, h2, h3]
      · simp [hlt, hm, h1, h2, h3]
    · simp [hlt, hm]
  · simp [hlt]

@[simp] theorem solo_observerPowerOffWhenDesktopSafe :
    (observerPowerOffWhenDesktopSafe d).solo WorkerOp.exec (e, p) ⟨c, false, s⟩ =
      some ((c.observerPowerOffWhenDesktopSafe d p e).2,
        ⟨(c.observerPowerOffWhenDesktopSafe d p e).1, false, s⟩) := by
  unfold observerPowerOffWhenDesktopSafe Ctx.observerPowerOffWhenDesktopSafe
  by_cases ho : p.owners.isEmpty
  · simp [ho]
  · simp [ho]

@[simp] theorem solo_waitIteration (deadline : Int) :
    (waitIteration d deadline).solo WorkerOp.exec (e, p) ⟨c, false, s⟩ =
      some ((c.waitIteration d e deadline).2, ⟨(c.waitIteration d e deadline).1, false, s⟩) := by
  unfold waitIteration Ctx.waitIteration
  by_cases hlt : e.clock .loop < deadline
  · by_cases hm : c.mode = .shuttingDown
    · by_cases hd : c.desktopState.isDown
      · simp [hlt, hm, hd]
      · simp [hlt, hm, hd]
    · simp [hlt, hm]
  · simp [hlt]

@[simp] theorem solo_pushCriticalShutdown :
    pushCriticalShutdown.solo WorkerOp.exec (e, p) ⟨c, false, s⟩ =
      some ((c.pushCriticalShutdown e).2, ⟨(c.pushCriticalShutdown e).1, false, s⟩) := by
  simp [pushCriticalShutdown, Ctx.pushCriticalShutdown, Ctx.saveAndPush,
    Ctx.makeCriticalShutdownCommand]

@[simp] theorem solo_shutdownAfterWake :
    shutdownAfterWake.solo WorkerOp.exec (e, p) ⟨c, false, s⟩ =
      some ((c.shutdownAfterWake e).2, ⟨(c.shutdownAfterWake e).1, false, s⟩) := by
  unfold shutdownAfterWake Ctx.shutdownAfterWake
  by_cases hm : c.mode = .shuttingDown
  · simp [hm]
  · simp [hm]

@[simp] theorem solo_wakeIteration (deadline nextRetry : Int) :
    (wakeIteration deadline nextRetry).solo WorkerOp.exec (e, p) ⟨c, false, s⟩ =
      some ((c.wakeIteration e deadline nextRetry).2,
        ⟨(c.wakeIteration e deadline nextRetry).1, false, s⟩) := by
  unfold wakeIteration Ctx.wakeIteration
  by_cases hlt : e.clock .loop < deadline
  · by_cases hm : c.mode = .shuttingDown
    · simp [hlt, hm]
    · simp [hlt, hm]
  · simp [hlt]

@[simp] theorem solo_wakeAfterFetch (deadline nextRetry : Int) :
    (wakeAfterFetch d deadline nextRetry).solo WorkerOp.exec (e, p) ⟨c, false, s⟩ =
      some ((c.wakeAfterFetch d e deadline nextRetry).2,
        ⟨(c.wakeAfterFetch d e deadline nextRetry).1, false, s⟩) := by
  unfold wakeAfterFetch Ctx.wakeAfterFetch
  by_cases ho : ((c.fetchStateFromDesktop d e).2.getD {}).getStatus = some .online
  · simp [ho]
  by_cases hi : d.timing.wolRetryInterval > 0
  · by_cases hr : e.clock .retryCheck ≥ nextRetry
    · simp [ho, hi, hr]
    · simp [ho, hi, hr]
  · simp [ho, hi]

/-- **A segment run alone** is a step of the worker. -/
theorem solo_segment (pc : Pc) : (segment d pc).solo WorkerOp.exec (e, p) ⟨c, false, s⟩ =
    some ((Ctx.segment d p e c pc).2, ⟨(Ctx.segment d p e c pc).1, false, s⟩) := by
  cases pc <;> simp [segment, Ctx.segment, waitForDesktopThenTerminalAction,
    Ctx.waitForDesktopThenTerminalAction]

end Solo

end Worker

end UpsOrchestrator

import UpsOrchestrator.Race
import UpsOrchestrator.Record

/-!
# A desktop report beside a power call

`notify_desktop_state_change` reads the record without a lock and writes it in two branches. Beside
it runs one call that follows the power: an event, a status, the deadline timer or a reset.

* `Handler.notifyDesktopStateChange`, `PowerCall.program`: both as programs.
* `PowerKind`: what a power call does once it has noted the own power; **`program_eq`**,
  **`orch_power`**: the program and the record it leaves depend on the kind only.
* `Overlap`, `Overlap.Serialisable`: every interleaving ends with the record of one of the two
  orders. `Overlap.Clash`: when it does not.
-/

set_option autoImplicit false

namespace UpsOrchestrator

open Lts

/-! ## Programs -/

namespace Handler

/-- `notify_desktop_state_change` when the desktop is going away. -/
def desktopGoingAway : Handler Unit := do
  acquire .action
  let cur ← getOrchestratorState
  if cur.mode = .shuttingDown then release .action
  else
    saveOrchestratorState { cur with mode := .shuttingDown }
    release .action
    recordEnd .shutdownInitiated .phaseEnd
    startThread .terminalAction

/-- `notify_desktop_state_change` when the desktop was suspended during the prompt. -/
def desktopSuspended (d : UPSDeviceConfig) (orch : OrchState) : Handler Unit := do
  let now ← nowTs .deadline
  saveOrchestratorState { orch with
    phase := some .suspendWait
    phaseDeadline := some (now + d.timing.desktopSuspendWait) }

/-- `notify_desktop_state_change`, once it has read the record. -/
def reactToReport (d : UPSDeviceConfig) (newStatus : Option DesktopStatus) (orch : OrchState) :
    Handler Unit :=
  if orch.mode ≠ .monitoring then pure ()
  else if newStatus = some .offline ∨ newStatus = some .shuttingDown then desktopGoingAway
  else if newStatus = some .suspended ∧ orch.phase = some .userPrompt then desktopSuspended d orch
  else pure ()

/-- `notify_desktop_state_change` -/
def notifyDesktopStateChange (d : UPSDeviceConfig) (newStatus : Option DesktopStatus) :
    Handler Unit := do
  if d.isObserver then pure ()
  else reactToReport d newStatus (← getOrchestratorState)

variable {d : UPSDeviceConfig} {e : Env} {o : Bool} {c : Ctx} {s : Bool}

theorem solo_desktopGoingAway (hm : c.mode ≠ .shuttingDown) :
    desktopGoingAway.solo Op.exec (e, o) ⟨c, false, s⟩ =
      some ((), ⟨((c.saveOrchestratorState { c.orch with mode := .shuttingDown }).recordEnd
        .shutdownInitiated (e.clock .phaseEnd)).launch .terminalAction, false, s⟩) := by
  simp [desktopGoingAway, hm, Prog.solo_bind, Op.exec]

/-- **A report handled alone** is handled as in one step. -/
theorem solo_notifyDesktopStateChange (status : Option DesktopStatus) :
    (notifyDesktopStateChange d status).solo Op.exec (e, o) ⟨c, false, s⟩ =
      some ((), ⟨c.notifyDesktopStateChange d e status, false, s⟩) := by
  unfold notifyDesktopStateChange reactToReport desktopSuspended Ctx.notifyDesktopStateChange
  by_cases hd : d.isObserver
  · simp [hd]
  by_cases hm : c.mode = .monitoring
  · by_cases h1 : status = some .offline ∨ status = some .shuttingDown
    · have hgo := solo_desktopGoingAway (c := c) (e := e) (o := o) (s := s) (by rw [hm]; decide)
      simp [hd, hm, h1, hgo, Prog.solo_bind, Op.exec]
    by_cases h2 : status = some .suspended ∧ c.orch.phase = some .userPrompt
    · simp [hd, hm, h2, Prog.solo_bind, Op.exec]
    · simp [hd, hm, h1, h2, Prog.solo_bind, Op.exec]
  · simp [hd, hm, Prog.solo_bind, Op.exec]

end Handler

/-- A call that follows the power. -/
inductive PowerCall
  /-- `handle_event` -/
  | event (event : NutEvent)
  /-- `handle_ups_status_transition` -/
  | upsStatus (status : String)
  /-- the deadline timer -/
  | timer
  /-- `_reset_to_idle` -/
  | reset (reason : String)

namespace PowerCall

variable (d : UPSDeviceConfig) (e : Env) (o : Bool) (c : Ctx)

def program : PowerCall → Handler Unit
  | .event ev => Handler.handleEvent d ev
  | .upsStatus status => Handler.handleUpsStatusTransition d status
  | .timer => Handler.executePhaseAction d .phaseDeadline
  | .reset reason => Handler.resetToIdle reason

/-- The call in one step. -/
def run : PowerCall → Ctx
  | .event ev => c.handleEvent d e o ev
  | .upsStatus status => c.handleUpsStatusTransition d e o status
  | .timer => c.executePhaseAction d e .phaseDeadline
  | .reset reason => c.resetToIdle e reason

theorem solo_program (k : PowerCall) : (k.program d).solo Op.exec (e, o) ⟨c, false, false⟩ =
    some ((), ⟨k.run d e o c, false, false⟩) := by
  cases k with
  | event ev => exact Handler.solo_handleEvent ev fun _ => rfl
  | upsStatus status => exact Handler.solo_handleUpsStatusTransition status fun _ => rfl
  | timer => exact Handler.solo_executePhaseAction _
  | reset reason => exact Handler.solo_resetToIdle _

end PowerCall

/-! ## Kinds of power calls -/

/-- What a power call does once it has noted the own power. -/
inductive PowerKind
  | low (reason : Reason)
  /-- on battery; a status also checks the deadline -/
  | battery (checks : Bool)
  /-- on mains -/
  | mains (reason : String)
  | suspendDue
  | timer
  | reset (reason : String)
  | nothing

namespace PowerCall

def kind : PowerCall → PowerKind
  | .event .lowbatt => .low .lowBatteryEvent
  | .event .onbatt => .battery false
  | .event .online => .mains "power_restored_event"
  | .event .desktopSuspendDue => .suspendDue
  | .event (.other _) => .nothing
  | .upsStatus status =>
    if hasFlag "LB" status then .low .lowBattery
    else if hasFlag "OB" status then .battery true
    else if hasFlag "OL" status then .mains "power_restored"
    else .nothing
  | .timer => .timer
  | .reset reason => .reset reason

/-- What the call notes about the own power. -/
def ownReport : PowerCall → Option Bool
  | .event ev => (Call.event ev).ownReport
  | .upsStatus status => (Call.upsStatus status).ownReport
  | _ => none

def noteProgram (k : PowerCall) : Handler Unit :=
  match k.ownReport with
  | none => pure ()
  | some onBattery => Handler.noteOwnPower onBattery

/-- The context once the call has noted the own power. -/
def noted (e : Env) (c : Ctx) (k : PowerCall) : Ctx :=
  match k.ownReport with
  | none => c
  | some onBattery => c.noteOwnPower e onBattery

end PowerCall

namespace PowerKind

variable (d : UPSDeviceConfig) (e : Env) (o : Bool) (c : Ctx)

open Handler in
def body : PowerKind → Handler Unit
  | .low reason => do
    let orch ← getOrchestratorState
    lowBatteryAction d orch.mode reason
  | .battery checks => do
    let orch ← getOrchestratorState
    if orch.mode = .idle ∨ orch.mode = .desktopHandled then
      startMonitoringIfMode d [.idle, .desktopHandled]
    else if checks ∧ orch.mode = .monitoring then checkPhaseDeadline d
    else pure ()
  | .mains reason => do
    let orch ← getOrchestratorState
    followDesktopUps d orch.mode reason
  | .suspendDue => do
    let orch ← getOrchestratorState
    if orch.mode = .monitoring then executePhaseAction d .suspendDueEvent else pure ()
  | .timer => executePhaseAction d .phaseDeadline
  | .reset reason => resetToIdle reason
  | .nothing => do
    let _ ← getOrchestratorState
    pure ()

/-- The body in one step. -/
def act : PowerKind → Ctx
  | .low reason => c.lowBatteryAction d e c.mode reason
  | .battery checks =>
    if c.mode = .idle ∨ c.mode = .desktopHandled then
      c.startMonitoringIfMode d e [.idle, .desktopHandled]
    else if checks ∧ c.mode = .monitoring then c.checkPhaseDeadline d e
    else c
  | .mains reason => c.followDesktopUps d e o c.mode reason
  | .suspendDue => if c.mode = .monitoring then c.executePhaseAction d e .suspendDueEvent else c
  | .timer => c.executePhaseAction d e .phaseDeadline
  | .reset reason => c.resetToIdle e reason
  | .nothing => c

end PowerKind

namespace PowerCall

variable {d : UPSDeviceConfig} {e : Env} {o : Bool} {c : Ctx}

/-- **A power call is its note followed by the body of its kind.** -/
theorem program_eq (k : PowerCall) :
    k.program d = k.noteProgram.bind fun _ => k.kind.body d := by
  cases k with
  | event ev =>
    cases ev with
    | onbatt =>
      refine congrArg (Prog.bind _) (funext fun _ => congrArg (Prog.bind _) (funext fun orch => ?_))
      simp
    | _ => rfl
  | upsStatus status =>
    simp only [program, Handler.handleUpsStatusTransition, Handler.noteUpsStatus, noteProgram,
      ownReport, Call.ownReport, kind]
    by_cases hl : hasFlag "LB" status
    · simp [hl, PowerKind.body]
    by_cases hb : hasFlag "OB" status
    · simp [hl, hb, PowerKind.body]
    by_cases ho : hasFlag "OL" status
    · simp [hl, hb, ho, PowerKind.body]
    · simp [hl, hb, ho, PowerKind.body]
  | timer => rfl
  | reset reason => rfl

theorem run_eq (k : PowerCall) : k.run d e o c = k.kind.act d e o (k.noted e c) := by
  cases k with
  | event ev =>
    cases ev with
    | onbatt =>
      simp only [run, kind, noted, ownReport, Call.ownReport, PowerKind.act, Ctx.handleEvent,
        Ctx.noteEvent, Ctx.eventAction, Bool.false_eq_true, false_and, if_false]
      rfl
    | _ => rfl
  | upsStatus status =>
    simp only [run, Ctx.handleUpsStatusTransition, Ctx.noteUpsStatus, Ctx.upsStatusAction, noted,
      ownReport, Call.ownReport, kind]
    by_cases hl : hasFlag "LB" status
    · simp [hl, PowerKind.act]
    by_cases hb : hasFlag "OB" status
    · simp [hl, hb, PowerKind.act]
    by_cases ho : hasFlag "OL" status
    · simp [hl, hb, ho, PowerKind.act]
    · simp [hl, hb, ho, PowerKind.act]
  | timer => rfl
  | reset reason => rfl

end PowerCall

/-! ## What a power call leaves of the record -/

/-- The record once a phase action has been executed. -/
def OrchState.struck (r : OrchState) : OrchState := { r with mode := .shuttingDown }

/-- The record after `_reset_to_idle`. -/
def OrchState.stoodDown : OrchState := { mode := .idle, lastEvent := some "ONLINE" }

/-- The deadline of the record is over. -/
def OrchState.due (e : Env) (r : OrchState) : Prop := r.phaseDeadline.getD 0 ≤ e.clock .check

instance {e : Env} {r : OrchState} : Decidable (r.due e) := by unfold OrchState.due; infer_instance

namespace PowerKind

variable (e : Env) (o : Bool)

/-- The call checks the deadline in monitoring. -/
def checks : PowerKind → Bool
  | .battery checks => checks
  | .mains _ => o
  | _ => false

/-- The call executes the phase action in monitoring whatever the deadline. -/
def strikes : PowerKind → Bool
  | .low _ => true
  | .suspendDue => true
  | .timer => true
  | _ => false

/-- The call goes back to idle. -/
def standsDown : PowerKind → Bool
  | .mains _ => !o
  | .reset _ => true
  | _ => false

/-- The call alone leaves monitoring with the record `r`. -/
def Leaves (r : OrchState) (k : PowerKind) : Prop :=
  k.standsDown o = true ∨ k.strikes = true ∨ (k.checks o = true ∧ r.due e)

def isLow : PowerKind → Bool
  | .low _ => true
  | _ => false

/-- **The record that the call leaves** over the record `r`, where `fresh` is the record of a start of
monitoring. -/
def effect (fresh r : OrchState) : PowerKind → OrchState
  | .low _ =>
    if r.mode = .shuttingDown then r
    else if r.mode = .monitoring then r.struck
    else fresh.struck
  | .battery checks =>
    if r.mode = .idle ∨ r.mode = .desktopHandled then fresh
    else if checks ∧ r.mode = .monitoring ∧ r.due e then r.struck
    else r
  | .mains _ =>
    if o then
      if r.mode = .idle then fresh
      else if r.mode = .monitoring ∧ r.due e then r.struck
      else r
    else if r.mode ≠ .idle then .stoodDown
    else r
  | .suspendDue => if r.mode = .monitoring then r.struck else r
  | .timer => if r.mode = .monitoring then r.struck else r
  | .reset _ => .stoodDown
  | .nothing => r

variable {e o} {d : UPSDeviceConfig} {c : Ctx}

theorem orch_executePhaseAction (reason : Reason) : (c.executePhaseAction d e reason).orch =
    if c.mode = .monitoring then c.orch.struck else c.orch := by
  by_cases hm : c.mode = .monitoring
  · rw [Ctx.executePhaseAction_eq reason hm, if_pos hm]
    rfl
  · rw [Ctx.executePhaseAction_of_ne reason hm, if_neg hm]

theorem orch_checkPhaseDeadline : (c.checkPhaseDeadline d e).orch =
    if c.mode = .monitoring ∧ c.orch.due e then c.orch.struck else c.orch := by
  unfold Ctx.checkPhaseDeadline OrchState.due
  by_cases hlt : e.clock .check < c.orch.phaseDeadline.getD 0
  · rw [if_pos hlt, if_neg fun h => absurd h.2 (not_le.mpr hlt)]
  · rw [if_neg hlt, orch_executePhaseAction]
    simp [not_lt.mp hlt]

theorem orch_startMonitoringIfMode {ms : List Mode} (hm : c.mode ∈ ms) :
    (c.startMonitoringIfMode d e ms).orch =
      Ctx.monitoringRecord d e (Ctx.startPhase d e c) c.orch := by
  rw [Ctx.startMonitoringIfMode, if_pos hm]
  exact Ctx.startBatteryMonitoring_record.1

theorem orch_resetToIdle (reason : String) :
    (c.resetToIdle e reason).orch = .stoodDown := by
  obtain ⟨cmd, out, -, he⟩ := Ctx.cancelPending_eq (e := e)
    (c := (c.recordEnd .powerRestored (e.clock .resetEnd)).leaveMonitoring .idle (some "ONLINE"))
    reason
  rw [Ctx.resetToIdle, he]
  rfl

theorem orch_act (k : PowerKind) : (k.act d e o c).orch =
    k.effect e o (Ctx.monitoringRecord d e (Ctx.startPhase d e c) c.orch) c.orch := by
  have hstart := Ctx.startBatteryMonitoring_record (b := c) (d := d) (e := e)
  cases k with
  | low reason =>
    have hmon : (c.startBatteryMonitoring d e).mode = .monitoring := congrArg OrchState.mode hstart.1
    simp only [act, Ctx.lowBatteryAction, effect]
    by_cases h1 : c.mode = .shuttingDown
    · rw [if_pos h1, if_pos h1]
    rw [if_neg h1, if_neg h1]
    by_cases h2 : c.mode = .monitoring
    · rw [if_neg (not_not.mpr h2), if_pos h2, orch_executePhaseAction, if_pos h2]
    · rw [if_pos h2, if_neg h2, orch_executePhaseAction, if_pos hmon, hstart.1]
  | battery checks =>
    simp only [act, effect]
    split_ifs with h1 h2 h3 h3
    · exact orch_startMonitoringIfMode (by simpa using h1)
    · rw [orch_checkPhaseDeadline, if_pos h3.2]
    · rw [orch_checkPhaseDeadline, if_neg fun h => h3 ⟨h2.1, h⟩]
    · exact absurd ⟨h3.1, h3.2.1⟩ h2
    · rfl
  | mains reason =>
    simp only [act, Ctx.followDesktopUps, effect]
    split_ifs with h1 h2 h3 h4 h5 h6
    · exact orch_startMonitoringIfMode (by simp [h2])
    · rw [orch_checkPhaseDeadline, if_pos h4]
    · rw [orch_checkPhaseDeadline, if_neg h4]
    · exact absurd h5.1 h3
    · rfl
    · exact orch_resetToIdle _
    · rfl
  | suspendDue =>
    simp only [act, effect]
    split_ifs with h
    · rw [orch_executePhaseAction, if_pos h]
    · rfl
  | timer => exact orch_executePhaseAction _
  | reset reason => exact orch_resetToIdle _
  | nothing => rfl

/-! Over a record in `shutting_down` or in monitoring. -/

variable {fresh r : OrchState} {k : PowerKind}

theorem effect_struck (hk : k.standsDown o = false) : k.effect e o fresh r.struck = r.struck := by
  cases k with
  | mains reason =>
    have ho : o = true := by simpa [standsDown] using hk
    simp [effect, OrchState.struck, ho]
  | reset reason => exact absurd hk (by simp [standsDown])
  | _ => simp [effect, OrchState.struck]

theorem effect_of_not_leaves (hm : r.mode = .monitoring) (hk : ¬k.Leaves e o r) :
    k.effect e o fresh r = r := by
  obtain ⟨h1, h2⟩ := not_or.mp hk
  obtain ⟨h2, h3⟩ := not_or.mp h2
  cases k with
  | battery checks =>
    have hnot : ¬(checks = true ∧ r.due e) := h3
    simp only [effect, hm]
    rw [if_neg (by simp), if_neg fun h => hnot ⟨h.1, h.2.2⟩]
  | mains reason =>
    have ho : o = true := by simpa [standsDown] using h1
    have hnot : ¬r.due e := fun hd => h3 ⟨ho, hd⟩
    simp [effect, hm, ho, hnot]
  | nothing => rfl
  | reset reason => exact absurd rfl h1
  | _ => exact absurd rfl h2

theorem effect_of_due (hm : r.mode = .monitoring) (hk : k.checks o = true) (hd : r.due e) :
    k.effect e o fresh r = r.struck := by
  cases k with
  | battery checks =>
    have hc : checks = true := hk
    simp [effect, hm, hc, hd]
  | mains reason =>
    have ho : o = true := hk
    simp [effect, hm, ho, hd]
  | _ => exact absurd hk (by simp [checks])

theorem effect_of_standsDown (hm : r.mode ≠ .idle) (hk : k.standsDown o = true) :
    k.effect e o fresh r = .stoodDown := by
  cases k with
  | mains reason =>
    have ho : o = false := by simpa [standsDown] using hk
    simp [effect, ho, hm]
  | reset reason => rfl
  | _ => exact absurd hk (by simp [standsDown])

theorem effect_of_strikes (hm : r.mode = .monitoring) (hk : k.strikes = true) :
    k.effect e o fresh r = r.struck := by
  cases k with
  | battery checks => exact absurd hk (by simp [strikes])
  | mains reason => exact absurd hk (by simp [strikes])
  | reset reason => exact absurd hk (by simp [strikes])
  | nothing => exact absurd hk (by simp [strikes])
  | _ => simp [effect, hm]

theorem effect_of_leaves (hm : r.mode = .monitoring) (hk : k.Leaves e o r) :
    k.effect e o fresh r = .stoodDown ∨ k.effect e o fresh r = r.struck := by
  rcases hk with h | h | ⟨hc, hd⟩
  · exact .inl (effect_of_standsDown (by rw [hm]; decide) h)
  · exact .inr (effect_of_strikes hm h)
  · exact .inr (effect_of_due hm hc hd)

end PowerKind

/-! ## Two calls at once -/

inductive Caller
  | report
  | power
  deriving DecidableEq

/-- A report and a power call on one context, with the answers that each of them gets. -/
structure Overlap where
  dev : UPSDeviceConfig
  ctx : Ctx
  status : Option DesktopStatus
  call : PowerCall
  answers : Caller → Answers

/-- The mode, the phase and the deadline. -/
def OrchState.view (r : OrchState) : Mode × Option Phase × Option Int :=
  (r.mode, r.phase, r.phaseDeadline)

/-- A report never takes a context out of idle, and never from `shutting_down` to monitoring. -/
def Mode.Spared (m m' : Mode) : Prop :=
  (m = .idle → m' ≠ .shuttingDown ∧ m' ≠ .monitoring) ∧ (m = .shuttingDown → m' ≠ .monitoring)

namespace Overlap

variable (x : Overlap)

/-- The report in one step. -/
def report (c : Ctx) : Ctx := c.notifyDesktopStateChange x.dev (x.answers .report).1 x.status

/-- The power call in one step. -/
def power (c : Ctx) : Ctx := x.call.run x.dev (x.answers .power).1 (x.answers .power).2 c

def program : Caller → Handler Unit
  | .report => Handler.notifyDesktopStateChange x.dev x.status
  | .power => x.call.program x.dev

def start : Pool Op Op.Ans Shared Caller where
  shared := { ctx := x.ctx }
  threads := x.program

/-- A run of the two calls, in which each gets its own answers. -/
def Interleaves (tr : List (Transition (Pool Op Op.Ans Shared Caller) (Caller × Answers)))
    (w : Pool Op Op.Ans Shared Caller) : Prop :=
  Run (pool Op.exec x.start) x.start tr w ∧ ∀ t ∈ tr, t.act.2 = x.answers t.act.1

/-- One of the two orders ends with the mode, the phase and the deadline of the record. -/
def InOrder (r : OrchState) : Prop :=
  r.view = (x.power (x.report x.ctx)).orch.view ∨ r.view = (x.report (x.power x.ctx)).orch.view

/-- **The report is serialisable with the power call**: every interleaving that comes to its end ends
as one of the two orders does, and no step of the report goes to a mode that it must not go to. -/
structure Serialisable : Prop where
  outcome : ∀ tr w, x.Interleaves tr w → (∀ i, w.threads i = .ret ()) → x.InOrder w.shared.ctx.orch
  spared : ∀ tr w, x.Interleaves tr w → ∀ t ∈ tr, t.act.1 = .report →
    Mode.Spared t.pre.shared.ctx.mode t.post.shared.ctx.mode

/-- The desktop reports that it is going away. -/
def Down : Prop := x.status = some .offline ∨ x.status = some .shuttingDown

/-- **The power call gets between the reads and the write of the report**, or the report between
those of the power call. -/
inductive Clash : Prop
  /-- a report that the desktop is going away, and the power call stands down -/
  | standDown (role : x.dev.isObserver = false) (down : x.Down) (mode : x.ctx.mode = .monitoring)
      (call : x.call.kind.standsDown (x.answers .power).2 = true)
  /-- a report of a suspend in the phase `user_prompt`, and the power call leaves monitoring -/
  | leave (role : x.dev.isObserver = false) (status : x.status = some .suspended)
      (mode : x.ctx.mode = .monitoring) (phase : x.ctx.orch.phase = some .userPrompt)
      (call : x.call.kind.Leaves (x.answers .power).1 (x.answers .power).2 x.ctx.orch)
  /-- a report of a suspend, and a low battery starts with the phase `user_prompt` -/
  | low (role : x.dev.isObserver = false) (status : x.status = some .suspended)
      (mode : x.ctx.mode = .idle ∨ x.ctx.mode = .desktopHandled) (call : x.call.kind.isLow = true)
      (phase : Ctx.startPhase x.dev (x.answers .power).1 x.ctx = .userPrompt)

/-! ### The record -/

/-- The report writes when it has read this record. -/
def Triggers (r : OrchState) : Prop :=
  x.dev.isObserver = false ∧ r.mode = .monitoring ∧
    (x.Down ∨ (x.status = some .suspended ∧ r.phase = some .userPrompt))

/-- The record of a suspend that is reported over the record `r`. -/
def suspended (r : OrchState) : OrchState :=
  { r with
    phase := some .suspendWait
    phaseDeadline := some ((x.answers .report).1.clock .deadline + x.dev.timing.desktopSuspendWait) }

/-- What the report makes of the record. -/
def Reported (r r' : OrchState) : Prop :=
  (x.Down ∧ r' = r.struck) ∨
    (x.status = some .suspended ∧ r.phase = some .userPrompt ∧ r' = x.suspended r)

variable {x} {c : Ctx} {r r' : OrchState}

theorem not_down_of_suspended (h : x.status = some .suspended) : ¬x.Down := by
  unfold Down
  rw [h]
  simp

theorem report_of_not_triggers (h : ¬x.Triggers c.orch) : x.report c = c := by
  unfold report Ctx.notifyDesktopStateChange
  split_ifs with h1 h2 h3 h4
  · rfl
  · rfl
  · exact absurd ⟨by simpa using h1, not_not.mp h2, .inl h3⟩ h
  · exact absurd ⟨by simpa using h1, not_not.mp h2, .inr h4⟩ h
  · rfl

theorem orch_report (h : x.Triggers c.orch) (hr : x.Reported c.orch r') :
    (x.report c).orch = r' := by
  obtain ⟨ho, hm, -⟩ := h
  have hm' : ¬c.mode ≠ .monitoring := not_not.mpr hm
  unfold report Ctx.notifyDesktopStateChange
  rw [if_neg (by simp [ho]), if_neg hm']
  rcases hr with ⟨hd, rfl⟩ | ⟨hs, hp, rfl⟩
  · rw [if_pos (show _ ∨ _ from hd)]
    rfl
  · rw [if_neg (show ¬(_ ∨ _) from not_down_of_suspended hs), if_pos ⟨hs, hp⟩]
    rfl

/-- The record of a start of monitoring over the context. -/
def fresh (x : Overlap) (c : Ctx) : OrchState :=
  Ctx.monitoringRecord x.dev (x.answers .power).1 (Ctx.startPhase x.dev (x.answers .power).1 c) c.orch

/-- **The record that the power call leaves.** -/
theorem orch_power : (x.power c).orch =
    x.call.kind.effect (x.answers .power).1 (x.answers .power).2 (x.fresh c) c.orch := by
  unfold power
  rw [PowerCall.run_eq, PowerKind.orch_act]
  unfold PowerCall.noted fresh
  cases x.call.ownReport with
  | none => rfl
  | some b =>
    obtain ⟨log, h⟩ := Ctx.noteOwnPower_eq (c := c) (e := (x.answers .power).1) b
    simp only [h]
    rfl

end Overlap

end UpsOrchestrator

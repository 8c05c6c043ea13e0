import UpsOrchestrator.System

/-!
# What a handler does

Every later case analysis of the handlers is read off one: a call notes the power of its UPS, and then
does one of a few things, under a guard.

* `Call.ownReport`, `Ctx.noteReport`: what is noted.
* `Ctx.Performs`: what is done; **`Ctx.performs_handler`**: by every call other than a worker step.
-/

set_option autoImplicit false

namespace UpsOrchestrator

theorem Mode.at_rest {m : Mode} (h : ¬(m = .monitoring ∨ m = .shuttingDown)) :
    m = .idle ∨ m = .desktopHandled := by
  cases m <;> simp at h ⊢

/-- What `_note_own_power` makes of the call, if the call reports on this UPS. -/
def Call.ownReport : Call → Option Bool
  | .upsStatus status =>
    if hasFlag "OB" status || hasFlag "LB" status then some true
    else if hasFlag "OL" status then some false
    else none
  | .event .lowbatt => some true
  | .event .onbatt => some true
  | .event .online => some false
  | _ => none

namespace Ctx

variable {d : UPSDeviceConfig} {p : Peers} {e : Env} {b c c' : Ctx} {k : Call}

/-! ## Handlers as record updates -/

theorem noteOwnPower_eq (b : Bool) :
    ∃ log, c.noteOwnPower e b = { c with upsOnBattery := b, outageLog := log } := by
  simp only [noteOwnPower]
  split_ifs with h1
  · exact ⟨c.outageLog, by rw [h1]⟩
  all_goals exact ⟨_, rfl⟩

theorem cancelPending_eq (r : String) : ∃ cmd out, (∀ x, cmd = some x → x.status ≠ .pending) ∧
    c.cancelPending e r = { c with command := cmd, out := out } := by
  unfold cancelPending
  split
  next h => exact ⟨none, _, by simp, by rw [← h]⟩
  next cmd h =>
    split_ifs with hp
    · refine ⟨_, _, ?_, rfl⟩
      rintro x hx
      rw [← Option.some.inj hx]
      simp
    · refine ⟨some cmd, c.out, ?_, by rw [← h]⟩
      rintro x hx
      rw [← Option.some.inj hx]
      exact hp

variable (d e) in
/-- The desktop state on file after a fetch. -/
def fetchedState (state : DesktopState) : DesktopState :=
  if d.desktop.isNone then state else e.agent.getD state

theorem fetchStateFromDesktop_fst :
    (c.fetchStateFromDesktop d e).1 = { c with desktopState := fetchedState d e c.desktopState } := by
  unfold fetchStateFromDesktop fetchedState
  split_ifs
  · rfl
  · cases e.agent <;> rfl

theorem fetchAtStart_eq : ∃ st, c.fetchAtStart d e = { c with desktopState := st } := by
  unfold fetchAtStart
  split_ifs
  · exact ⟨_, rfl⟩
  · exact ⟨_, fetchStateFromDesktop_fst⟩

theorem logOwnOutage_eq : ∃ log, c.logOwnOutage e = { c with outageLog := log } := by
  unfold logOwnOutage
  split_ifs <;> exact ⟨_, rfl⟩

/-- **The start of monitoring**: the record and the timer, besides the outage log, the cached
desktop state and, in the phase `user_prompt`, the command. -/
theorem startBatteryMonitoring_eq : ∃ log st, c.startBatteryMonitoring d e =
    notifyDesktop e (startPhase d e c) { c with
      orch := monitoringRecord d e (startPhase d e c) c.orch
      outageLog := log
      desktopState := st
      deadlineTimer := some ⟨e.clock .remaining +
        max (e.clock .deadline + phaseWait d (startPhase d e c) - e.clock .remaining) 0, false⟩ } := by
  obtain ⟨log, h1⟩ := logOwnOutage_eq (c := c) (e := e)
  obtain ⟨st, h2⟩ := fetchAtStart_eq (c := { c with outageLog := log }) (d := d) (e := e)
  refine ⟨log, st, ?_⟩
  simp only [startBatteryMonitoring, h1, h2]
  rfl

theorem executePhaseAction_of_ne (r : Reason) (h : c.mode ≠ .monitoring) :
    c.executePhaseAction d e r = c := if_pos h

theorem executePhaseAction_eq (r : Reason) (h : c.mode = .monitoring) :
    c.executePhaseAction d e r = { c with
      orch := { c.orch with mode := .shuttingDown }
      outageLog := c.outageLog.recordEnd .shutdownInitiated (e.clock .phaseEnd)
      threads := c.threads ++ [⟨c.spawned, phaseWorker d (c.orch.phase.getD .offlineWait) r⟩]
      spawned := c.spawned + 1
      out := c.out ++ [.phaseAction (c.orch.phase.getD .offlineWait) r] } := if_neg (not_not.mpr h)

theorem resetToIdle_eq (r : String) : ∃ log cmd out, (∀ x, cmd = some x → x.status ≠ .pending) ∧
    c.resetToIdle e r = { c with
      orch := { mode := .idle, lastEvent := some "ONLINE" }
      deadlineTimer := none, outageLog := log, command := cmd, out := out } := by
  obtain ⟨cmd, out, hc, h⟩ := cancelPending_eq (e := e)
    (c := (c.recordEnd .powerRestored (e.clock .resetEnd)).leaveMonitoring .idle (some "ONLINE")) r
  exact ⟨_, cmd, out, hc, h⟩

theorem fireTimer_cases (h : c.fireTimer d e = some c') :
    ∃ t, c.deadlineTimer = some t ∧ t.fired = false ∧ t.due ≤ e.start ∧
      c' = { c with deadlineTimer := some { t with fired := true } }.executePhaseAction d e
        .phaseDeadline := by
  unfold fireTimer at h
  cases ht : c.deadlineTimer with
  | none => simp [ht] at h
  | some t =>
    simp only [ht, Option.ite_none_right_eq_some, Option.some.injEq] at h
    exact ⟨t, rfl, h.1.1, h.1.2, h.2.symm⟩

theorem ack_cases (id : String) (status : AckStatus) :
    (∃ cmd, c.command = some cmd ∧ cmd.id = id ∧
      c.ack id status = { c with command := some { cmd with status := status.toStatus } }) ∨
    (c.command.any (·.id = id) = false ∧ c.ack id status = c) := by
  unfold ack
  split
  next h => exact .inr ⟨by simp [h], rfl⟩
  next cmd h =>
    split_ifs with hid
    · exact .inl ⟨cmd, h, hid, rfl⟩
    · exact .inr ⟨by simp [h, hid], rfl⟩

/-! ## Own power -/

/-- The context once the call has noted the own power. -/
def noteReport (e : Env) (k : Call) (c : Ctx) : Ctx :=
  match k.ownReport with
  | none => c
  | some onBattery => c.noteOwnPower e onBattery

theorem noteReport_eq : ∃ log, c.noteReport e k =
    { c with upsOnBattery := k.ownReport.getD c.upsOnBattery, outageLog := log } := by
  unfold noteReport
  cases k.ownReport with
  | none => exact ⟨c.outageLog, rfl⟩
  | some b => exact noteOwnPower_eq b

theorem noteReport_frame : (c.noteReport e k).orch = c.orch ∧
    (c.noteReport e k).deadlineTimer = c.deadlineTimer ∧
    (c.noteReport e k).upsOnBattery = k.ownReport.getD c.upsOnBattery := by
  obtain ⟨log, h⟩ := noteReport_eq (c := c) (e := e) (k := k)
  rw [h]
  exact ⟨rfl, rfl, rfl⟩

theorem out_noteReport : (c.noteReport e k).out = c.out := by
  obtain ⟨log, h⟩ := noteReport_eq (c := c) (e := e) (k := k)
  rw [h]

theorem command_noteReport : (c.noteReport e k).command = c.command := by
  obtain ⟨log, h⟩ := noteReport_eq (c := c) (e := e) (k := k)
  rw [h]

theorem desktopState_noteReport : (c.noteReport e k).desktopState = c.desktopState := by
  obtain ⟨log, h⟩ := noteReport_eq (c := c) (e := e) (k := k)
  rw [h]

theorem noteUpsStatus_eq (status : String) :
    c.noteUpsStatus e status = c.noteReport e (.upsStatus status) := by
  simp only [noteUpsStatus, noteReport, Call.ownReport]
  split_ifs <;> rfl

theorem noteEvent_eq (ev : NutEvent) : c.noteEvent e ev = c.noteReport e (.event ev) := by
  cases ev <;> rfl

/-! ## What is done -/

/-- Why the call `k` executes the phase action of the context `b`. -/
def Strikes (e : Env) (k : Call) (b : Ctx) : Reason → Prop
  | .phaseDeadline =>
    (k = .timer ∧ ∃ t, b.deadlineTimer = some t ∧ t.fired = false ∧ t.due ≤ e.start) ∨
      b.orch.phaseDeadline.getD 0 ≤ e.clock .check
  | .lowBattery => ∃ status, k = .upsStatus status ∧ hasFlag "LB" status = true
  | .lowBatteryEvent => k = .event .lowbatt
  | .suspendDueEvent => k = .event .desktopSuspendDue

/-- **What a call does** to the context `b`, which has noted the own power. -/
inductive Performs (d : UPSDeviceConfig) (p : Peers) (e : Env) (k : Call) (b : Ctx) : Ctx → Prop
  | nothing (out : k.ownReport = some true → b.mode = .monitoring ∨ b.mode = .shuttingDown) :
      Performs d p e k b b
  | fetch (call : k = .fetch) : Performs d p e k b (b.fetchStateFromDesktop d e).1
  | start (mode : b.mode = .idle ∨ b.mode = .desktopHandled)
      (outage : k.ownReport = some true ∨ p.desktopUpsOnBattery = true) :
      Performs d p e k b (b.startBatteryMonitoring d e)
  | strike (r : Reason) (mode : b.mode = .monitoring) (why : Strikes e k b r)
      (poll : r = .phaseDeadline →
        k.ownReport = some true ∨ p.desktopUpsOnBattery = true ∨ k = .upsUnavailable) :
      Performs d p e k b (b.executePhaseAction d e r)
  | expire (t : Timer) (call : k = .timer) (timer : b.deadlineTimer = some t)
      (armed : t.fired = false) (due : t.due ≤ e.start) : Performs d p e k b
        ({ b with deadlineTimer := some { t with fired := true } }.executePhaseAction d e
          .phaseDeadline)
  | startStrike (r : Reason) (mode : b.mode = .idle ∨ b.mode = .desktopHandled)
      (low : r.isLowBattery = true) (report : k.ownReport = some true) :
      Performs d p e k b ((b.startBatteryMonitoring d e).executePhaseAction d e r)
  | reset (reason : String) (mode : b.mode ≠ .idle) (report : k.ownReport = some false)
      (alone : p.desktopUpsOnBattery = false) : Performs d p e k b (b.resetToIdle e reason)
  | ignore (status : Option DesktopStatus) (call : k = .updateState status) :
      Performs d p e k b (b.saveDesktopState { status := some status })
  | confirm (status : Option DesktopStatus) (call : k = .updateState status)
      (down : status = some .offline ∨ status = some .shuttingDown) (role : d.isObserver = false)
      (mode : b.mode = .monitoring) : Performs d p e k b
        ((((b.saveDesktopState { status := some status }).saveOrchestratorState
          { b.orch with mode := .shuttingDown }).recordEnd .shutdownInitiated
            (e.clock .phaseEnd)).launch .terminalAction)
  | suspend (call : k = .updateState (some .suspended)) (role : d.isObserver = false)
      (mode : b.mode = .monitoring) (phase : b.orch.phase = some .userPrompt) : Performs d p e k b
        ((b.saveDesktopState { status := some (some .suspended) }).saveOrchestratorState
          { b.orch with
            phase := some .suspendWait
            phaseDeadline := some (e.clock .deadline + d.timing.desktopSuspendWait) })
  | createCommand (name : String) (ev : Option String) (expires : Option (Option Int))
      (call : k = .createCommand name ev expires) :
      Performs d p e k b (b.createCommand e name ev expires)
  | ack (id : String) (status : AckStatus) (call : k = .ack id status) :
      Performs d p e k b (b.ack id status)

theorem performs_startMonitoringIfMode {ms : List Mode} (hm : b.mode ∈ ms)
    (hms : ∀ m ∈ ms, m = .idle ∨ m = .desktopHandled)
    (ho : k.ownReport = some true ∨ p.desktopUpsOnBattery = true) :
    Performs d p e k b (b.startMonitoringIfMode d e ms) := by
  rw [startMonitoringIfMode, if_pos hm]
  exact .start (hms _ hm) ho

theorem performs_checkPhaseDeadline (hm : b.mode = .monitoring)
    (ho : k.ownReport = some true ∨ p.desktopUpsOnBattery = true ∨ k = .upsUnavailable) :
    Performs d p e k b (b.checkPhaseDeadline d e) := by
  unfold checkPhaseDeadline
  split_ifs with h
  · exact .nothing fun _ => .inl hm
  · exact .strike _ hm (.inr (not_lt.mp h)) fun _ => ho

theorem performs_followDesktopUps (hr : k.ownReport = some false) (reason : String) :
    Performs d p e k b (b.followDesktopUps d e p.desktopUpsOnBattery b.mode reason) := by
  have hn : k.ownReport = some true → b.mode = .monitoring ∨ b.mode = .shuttingDown := by
    rw [hr]
    simp
  unfold followDesktopUps
  split_ifs with h1 h2 h3 h4
  · exact performs_startMonitoringIfMode (by simp [h2]) (by simp) (.inr h1)
  · exact performs_checkPhaseDeadline h3 (.inr (.inl h1))
  · exact .nothing hn
  · exact .reset reason h4 hr (by simpa using h1)
  · exact .nothing hn

theorem performs_lowBatteryAction {r : Reason} (hr : Strikes e k b r) (hl : r.isLowBattery = true)
    (hk : k.ownReport = some true) : Performs d p e k b (b.lowBatteryAction d e b.mode r) := by
  simp only [lowBatteryAction]
  split_ifs with h1 h2
  · exact .nothing fun _ => .inr h1
  · exact .startStrike r (Mode.at_rest (not_or.mpr ⟨h2, h1⟩)) hl hk
  · exact .strike r (not_not.mp h2) hr fun _ => .inl hk

theorem performs_updateState (status : Option DesktopStatus) :
    Performs d p e (.updateState status) b (b.updateState d e status) := by
  simp only [updateState, notifyDesktopStateChange]
  split_ifs with h1 h2 h3 h4
  · exact .ignore status rfl
  · exact .ignore status rfl
  · exact .confirm status rfl h3 (by simpa using h1) (not_not.mp h2)
  · obtain ⟨rfl, hp⟩ := h4
    exact .suspend rfl (by simpa using h1) (not_not.mp h2) hp
  · exact .ignore status rfl

theorem performs_upsStatusAction (status : String) : Performs d p e (.upsStatus status) b
    (b.upsStatusAction d e p.desktopUpsOnBattery status b.mode) := by
  unfold upsStatusAction
  split_ifs with h1 h2 h3 h4 h5
  · exact performs_lowBatteryAction ⟨status, rfl, h1⟩ rfl (by simp [Call.ownReport, h1])
  · exact performs_startMonitoringIfMode (by simpa using h3) (by simp)
      (.inl (by simp [Call.ownReport, h2]))
  · exact performs_checkPhaseDeadline h4 (.inl (by simp [Call.ownReport, h2]))
  · refine .nothing fun _ => .inr ?_
    cases h : b.mode <;> simp_all
  · exact performs_followDesktopUps (by simp [Call.ownReport, h1, h2, h5]) _
  · exact .nothing (by simp [Call.ownReport, h1, h2, h5])

theorem performs_handleUpsStatusUnavailable : Performs d p e .upsUnavailable b
    (b.handleUpsStatusUnavailable d e p.desktopUpsOnBattery) := by
  simp only [handleUpsStatusUnavailable]
  split_ifs with h1 h2
  · exact performs_checkPhaseDeadline h1 (.inr (.inr rfl))
  · exact performs_startMonitoringIfMode (by simp [h2.1]) (by simp) (.inr h2.2)
  · exact .nothing (by simp [Call.ownReport])

theorem performs_eventAction (ev : NutEvent) : Performs d p e (.event ev) b
    (b.eventAction d e p.desktopUpsOnBattery b.mode ev) := by
  cases ev with
  | lowbatt => exact performs_lowBatteryAction rfl rfl rfl
  | onbatt =>
    simp only [eventAction]
    split_ifs with h
    · exact performs_startMonitoringIfMode (by simpa using h) (by simp) (.inl rfl)
    · refine .nothing fun _ => ?_
      cases hm : b.mode <;> simp_all
  | online => exact performs_followDesktopUps rfl _
  | desktopSuspendDue =>
    simp only [eventAction]
    split_ifs with h
    · exact .strike _ h rfl (by simp)
    · exact .nothing (by simp [Call.ownReport])
  | other => exact .nothing (by simp [Call.ownReport])

/-- **Every call other than a worker step** notes the own power and does one of these. -/
theorem performs_handler (hk : ∀ id, k ≠ .worker id) (h : k.exec d p e c = some c') :
    Performs d p e k (c.noteReport e k) c' := by
  cases k with
  | fetch => exact Option.some.inj h ▸ .fetch rfl
  | upsStatus status =>
    obtain rfl := Option.some.inj h
    simp only [handleUpsStatusTransition, noteUpsStatus_eq]
    exact performs_upsStatusAction status
  | upsUnavailable => exact Option.some.inj h ▸ performs_handleUpsStatusUnavailable
  | event ev =>
    obtain rfl := Option.some.inj h
    simp only [handleEvent, noteEvent_eq]
    exact performs_eventAction ev
  | updateState status => exact Option.some.inj h ▸ performs_updateState status
  | timer =>
    obtain ⟨t, ht, hf, hd, rfl⟩ := fireTimer_cases h
    exact .expire t rfl ht hf hd
  | worker id => exact absurd rfl (hk id)
  | createCommand name ev expires => exact Option.some.inj h ▸ .createCommand name ev expires rfl
  | ack id status => exact Option.some.inj h ▸ .ack id status rfl

end Ctx

end UpsOrchestrator

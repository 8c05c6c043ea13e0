import UpsOrchestrator.Handlers

/-!
# What a call can do

Every later invariant is read off the case analysis of the handlers and one of the workers.

* `Move`: the four things a handler can do to the mode, the timer and the threads of a context;
  **`move_handler`**: every call other than a worker step is one of them.
* `SegmentOutcome`: the ways a worker step ends; **`segment_outcome`**. `WorkFrame`: what it leaves
  alone.
* `HandlerFrame`: the own-power flag follows the reports about the UPS itself, and handlers store
  and push nothing but cancellations and prompts; **`handlerFrame`**.
-/

set_option autoImplicit false

namespace UpsOrchestrator

/-- The thread positions of a device's role. -/
def Pc.fits (d : UPSDeviceConfig) : Pc → Bool
  | .terminalAction => true
  | .observerPowerOff => d.isObserver
  | .observerHolding _ => d.isObserver
  | _ => !d.isObserver

/-- A worker that is still to push `critical_shutdown`. -/
def Pc.unpushed : Pc → Bool
  | .forceShutdownDesktop => true
  | .wakeThenShutdown => true
  | .sendingWol => true
  | .fetchingState _ _ => true
  | .resendingWol _ => true
  | .wakeSleeping _ _ => true
  | _ => false

/-- Waiting for the agent in the wake loop. -/
def Pc.isFetching : Pc → Bool
  | .fetchingState _ _ => true
  | _ => false

/-- What a handler of the device `d` can do outside its context: cancel a command, prompt the
desktop (a primary only) and start a phase action. -/
def Effect.ByHandler (d : UPSDeviceConfig) : Effect → Prop
  | .saveCommand cmd =>
    cmd.status = .cancelled ∨ (d.isObserver = false ∧ cmd.command = "ups_state")
  | .pushCommand cmd => d.isObserver = false ∧ cmd.command = "ups_state"
  | .phaseAction _ _ => True
  | _ => False

namespace Ctx

variable {d : UPSDeviceConfig} {p : Peers} {e : Env} {c c' : Ctx}

/-! ## Moves -/

/-- The deadline timer is armed and has not fired. -/
def Armed (c : Ctx) : Prop := ∃ t, c.deadlineTimer = some t ∧ t.fired = false

/-- No phase, no deadline, no timer: what `_leave_monitoring` leaves behind. -/
def Resting (c : Ctx) : Prop :=
  c.orch.phase = none ∧ c.orch.phaseDeadline = none ∧ c.orch.onbattSince = none ∧
    c.deadlineTimer = none

/-- **What a handler can do** to the mode, the timer and the threads. -/
inductive Move (d : UPSDeviceConfig) (c c' : Ctx) : Prop
  | keep (mode : c'.mode = c.mode) (threads : c'.threads = c.threads)
      (spawned : c'.spawned = c.spawned) (orch : c.mode ≠ .monitoring → c'.orch = c.orch)
      (timer : c.mode = .monitoring ∨ c.deadlineTimer = none → c'.deadlineTimer = c.deadlineTimer)
  | start (mode : c.mode = .idle ∨ c.mode = .desktopHandled) (mode' : c'.mode = .monitoring)
      (threads : c'.threads = c.threads) (spawned : c'.spawned = c.spawned) (timer : c'.Armed)
  | strike (pc : Pc) (mode : c.mode ≠ .shuttingDown) (mode' : c'.mode = .shuttingDown)
      (threads : c'.threads = c.threads ++ [⟨c.spawned, pc⟩]) (spawned : c'.spawned = c.spawned + 1)
      (fits : pc.fits d)
  | standDown (mode : c.mode ≠ .idle) (mode' : c'.mode = .idle) (threads : c'.threads = c.threads)
      (spawned : c'.spawned = c.spawned) (rest : c'.Resting)
      (command : ∀ cmd, c'.command = some cmd → cmd.status ≠ .pending)

theorem Move.refl : Move d c c := .keep rfl rfl rfl (fun _ => rfl) fun _ => rfl

theorem Move.of_orch_eq (ho : c'.orch = c.orch) (ht : c'.threads = c.threads)
    (hs : c'.spawned = c.spawned) (hd : c'.deadlineTimer = c.deadlineTimer) : Move d c c' :=
  .keep (by rw [mode, mode, ho]) ht hs (fun _ => ho) fun _ => hd

theorem Move.of_noteReport {k : Call} (h : Move d (c.noteReport e k) c') : Move d c c' := by
  obtain ⟨log, he⟩ := noteReport_eq (c := c) (e := e) (k := k)
  rw [he] at h
  cases h with
  | keep h1 h2 h3 h4 h5 => exact .keep h1 h2 h3 h4 h5
  | start h1 h2 h3 h4 h5 => exact .start h1 h2 h3 h4 h5
  | strike pc h1 h2 h3 h4 h5 => exact .strike pc h1 h2 h3 h4 h5
  | standDown h1 h2 h3 h4 h5 h6 => exact .standDown h1 h2 h3 h4 h5 h6

theorem fits_phaseWorker (phase : Phase) (r : Reason) : (phaseWorker d phase r).fits d = true := by
  unfold phaseWorker
  cases ho : d.isObserver
  · cases phase <;> simp [Pc.fits, ho]
  · cases r.isLowBattery <;> simp [Pc.fits, ho]

theorem startBatteryMonitoring_frame :
    (c.startBatteryMonitoring d e).mode = .monitoring ∧
      (c.startBatteryMonitoring d e).threads = c.threads ∧
      (c.startBatteryMonitoring d e).spawned = c.spawned ∧ (c.startBatteryMonitoring d e).Armed := by
  obtain ⟨log, st, h⟩ := startBatteryMonitoring_eq (c := c) (d := d) (e := e)
  rw [h, notifyDesktop]
  split_ifs
  · exact ⟨rfl, rfl, rfl, _, rfl, rfl⟩
  · exact ⟨rfl, rfl, rfl, _, rfl, rfl⟩

theorem lowBatteryAction_mode (r : Reason) :
    (c.lowBatteryAction d e c.mode r).mode = .shuttingDown := by
  simp only [lowBatteryAction]
  split_ifs with h1 h2
  · exact h1
  · have h3 := (startBatteryMonitoring_frame (c := c) (d := d) (e := e)).1
    rw [executePhaseAction_eq r h3]
  · rw [executePhaseAction_eq r (not_not.mp h2)]

theorem move_executePhaseAction (r : Reason) : Move d c (c.executePhaseAction d e r) := by
  by_cases h : c.mode = .monitoring
  · rw [executePhaseAction_eq r h]
    exact .strike _ (by rw [h]; decide) rfl rfl rfl (fits_phaseWorker _ r)
  · rw [executePhaseAction_of_ne r h]
    exact .refl

theorem move_expire {t : Timer} (ht : c.deadlineTimer = some t) : Move d c
    ({ c with deadlineTimer := some { t with fired := true } }.executePhaseAction d e
      .phaseDeadline) := by
  by_cases hm : c.mode = .monitoring
  · rw [executePhaseAction_eq _ (by exact hm)]
    exact .strike _ (by rw [hm]; decide) rfl rfl rfl (fits_phaseWorker _ _)
  · rw [executePhaseAction_of_ne _ (by exact hm)]
    exact .keep rfl rfl rfl (fun _ => rfl) fun h => (h.elim hm (by simp [ht])).elim

theorem move_startStrike (r : Reason) (hm : c.mode = .idle ∨ c.mode = .desktopHandled) :
    Move d c ((c.startBatteryMonitoring d e).executePhaseAction d e r) := by
  obtain ⟨h1, h2, h3, -⟩ := startBatteryMonitoring_frame (c := c) (d := d) (e := e)
  have hne : c.mode ≠ .shuttingDown := by
    intro h
    simp [h] at hm
  rw [executePhaseAction_eq r h1]
  exact .strike _ hne rfl (by rw [h2, h3]) (by rw [h3]) (fits_phaseWorker _ r)

theorem move_ack (id : String) (status : AckStatus) : Move d c (c.ack id status) := by
  rcases ack_cases (c := c) id status with ⟨cmd, -, -, h⟩ | ⟨-, h⟩
  · rw [h]
    exact .of_orch_eq rfl rfl rfl rfl
  · rw [h]
    exact .refl

/-- **Every call other than a worker step is a move.** -/
theorem move_handler {k : Call} (hk : ∀ id, k ≠ .worker id) (h : k.exec d p e c = some c') :
    Move d c c' := by
  apply Move.of_noteReport (e := e) (k := k)
  cases performs_handler hk h with
  | nothing => exact .refl
  | fetch =>
    rw [fetchStateFromDesktop_fst]
    exact .of_orch_eq rfl rfl rfl rfl
  | start mode =>
    obtain ⟨h1, h2, h3, h4⟩ :=
      startBatteryMonitoring_frame (c := c.noteReport e k) (d := d) (e := e)
    exact .start mode h1 h2 h3 h4
  | strike r => exact move_executePhaseAction r
  | expire t _ timer => exact move_expire timer
  | startStrike r mode => exact move_startStrike r mode
  | reset reason mode =>
    obtain ⟨log, cmd, out, hc, he⟩ := resetToIdle_eq (c := c.noteReport e k) (e := e) reason
    rw [he]
    exact .standDown mode rfl rfl rfl ⟨rfl, rfl, rfl, rfl⟩ hc
  | ignore status => exact .of_orch_eq rfl rfl rfl rfl
  | confirm status _ _ _ mode =>
    exact .strike .terminalAction (by rw [mode]; decide) rfl rfl rfl rfl
  | suspend _ _ mode => exact .keep rfl rfl rfl (fun h => absurd mode h) fun _ => rfl
  | createCommand name ev expires => exact .of_orch_eq rfl rfl rfl rfl
  | ack id status => exact move_ack id status

/-! ## Own power and effects of handlers -/

/-- Nothing but handler effects is added, a command is stored only by one of them, and the
own-power flag is left alone. -/
structure Tame (d : UPSDeviceConfig) (c c' : Ctx) : Prop where
  power : c'.upsOnBattery = c.upsOnBattery
  command : c'.command = c.command ∨
    ∃ cmd, c'.command = some cmd ∧ (Effect.saveCommand cmd).ByHandler d
  out : ∀ eff ∈ c'.out, eff ∈ c.out ∨ eff.ByHandler d

theorem Tame.refl : Tame d c c := ⟨rfl, .inl rfl, fun _ h => .inl h⟩

theorem Tame.trans {b : Ctx} (h₁ : Tame d c b) (h₂ : Tame d b c') : Tame d c c' :=
  ⟨h₂.power.trans h₁.power, h₂.command.elim (fun h => by rw [h]; exact h₁.command) .inr,
    fun eff h => (h₂.out eff h).elim (h₁.out eff) .inr⟩

theorem Tame.of_eq (hp : c'.upsOnBattery = c.upsOnBattery) (hc : c'.command = c.command)
    (ho : c'.out = c.out) : Tame d c c' :=
  ⟨hp, .inl hc, fun _ h => .inl (ho ▸ h)⟩

theorem isObserver_of_startPhase (h : startPhase d e c = .userPrompt) : d.isObserver = false := by
  unfold startPhase at h
  split_ifs at h with ho
  exact Bool.eq_false_iff.mpr ho

theorem tame_startBatteryMonitoring : Tame d c (c.startBatteryMonitoring d e) := by
  obtain ⟨log, st, h⟩ := startBatteryMonitoring_eq (c := c) (d := d) (e := e)
  rw [h, notifyDesktop]
  split_ifs with hp
  · have ho := isObserver_of_startPhase hp
    refine ⟨rfl, .inr ⟨_, rfl, .inr ⟨ho, rfl⟩⟩, fun eff heff => ?_⟩
    simp only [saveAndPush, emit, saveCommand, List.mem_append, List.mem_singleton] at heff
    rcases heff with (heff | rfl) | rfl
    · exact .inl heff
    · exact .inr (.inr ⟨ho, rfl⟩)
    · exact .inr ⟨ho, rfl⟩
  · exact .of_eq rfl rfl rfl

theorem tame_executePhaseAction (r : Reason) : Tame d c (c.executePhaseAction d e r) := by
  by_cases h : c.mode = .monitoring
  · rw [executePhaseAction_eq r h]
    refine ⟨rfl, .inl rfl, fun eff heff => ?_⟩
    simp only [List.mem_append, List.mem_singleton] at heff
    rcases heff with heff | rfl
    · exact .inl heff
    · exact .inr trivial
  · rw [executePhaseAction_of_ne r h]
    exact .refl

theorem tame_saveCommand {cmd : Command} (h : (Effect.saveCommand cmd).ByHandler d) :
    Tame d c (c.saveCommand cmd) := by
  refine ⟨rfl, .inr ⟨_, rfl, h⟩, fun eff heff => ?_⟩
  simp only [saveCommand, List.mem_append, List.mem_singleton] at heff
  rcases heff with heff | rfl
  · exact .inl heff
  · exact .inr h

theorem tame_cancelPending (r : String) : Tame d c (c.cancelPending e r) := by
  unfold cancelPending
  split
  · exact .refl
  · split_ifs
    · exact tame_saveCommand (.inl rfl)
    · exact .refl

theorem tame_resetToIdle (r : String) : Tame d c (c.resetToIdle e r) :=
  Tame.trans (b := (c.recordEnd .powerRestored (e.clock .resetEnd)).leaveMonitoring .idle _)
    (.of_eq rfl rfl rfl) (tame_cancelPending r)

theorem tame_cancelShutdownOnStartup : Tame d c c.cancelShutdownOnStartup := by
  unfold cancelShutdownOnStartup
  split
  · exact .refl
  · split_ifs
    · exact tame_saveCommand (.inl rfl)
    · exact .refl

theorem tame_resetStateOnStartup : Tame d c (c.resetStateOnStartup e) :=
  Tame.trans (b := leaveMonitoring .idle _ { c with outageLog := _ }) (.of_eq rfl rfl rfl)
    tame_cancelShutdownOnStartup

theorem tame_expire {t : Timer} : Tame d c
    ({ c with deadlineTimer := some t }.executePhaseAction d e .phaseDeadline) :=
  Tame.trans (b := { c with deadlineTimer := some t }) (.of_eq rfl rfl rfl)
    (tame_executePhaseAction _)

/-- **What a handler does to the own-power flag, to the stored command and outside the context.** -/
structure HandlerFrame (d : UPSDeviceConfig) (k : Call) (c c' : Ctx) : Prop where
  power : c'.upsOnBattery = k.ownReport.getD c.upsOnBattery
  command : c'.command = c.command ∨ (∃ name ev expires, k = .createCommand name ev expires) ∨
    ∃ cmd, c'.command = some cmd ∧
      (cmd.status ≠ .pending ∨ (d.isObserver = false ∧ cmd.command = "ups_state"))
  out : ∀ eff ∈ c'.out, eff ∈ c.out ∨ eff.ByHandler d

theorem HandlerFrame.of_tame {k : Call} {b : Ctx}
    (hp : b.upsOnBattery = k.ownReport.getD c.upsOnBattery) (hc : b.command = c.command)
    (ho : b.out = c.out) (h : Tame d b c') : HandlerFrame d k c c' := by
  refine ⟨h.power.trans hp, ?_, fun eff heff => ho ▸ h.out eff heff⟩
  rcases h.command with h | ⟨cmd, h, hcmd⟩
  · exact .inl (h.trans hc)
  · exact .inr (.inr ⟨cmd, h, hcmd.imp_left fun hs => by rw [hs]; decide⟩)

theorem handlerFrame {k : Call} (hk : ∀ id, k ≠ .worker id) (h : k.exec d p e c = some c') :
    HandlerFrame d k c c' := by
  have hp := (noteReport_frame (c := c) (e := e) (k := k)).2.2
  have hc := command_noteReport (c := c) (e := e) (k := k)
  have ho := out_noteReport (c := c) (e := e) (k := k)
  cases performs_handler hk h with
  | nothing => exact .of_tame hp hc ho .refl
  | fetch =>
    rw [fetchStateFromDesktop_fst]
    exact .of_tame hp hc ho (.of_eq rfl rfl rfl)
  | start => exact .of_tame hp hc ho tame_startBatteryMonitoring
  | strike r => exact .of_tame hp hc ho (tame_executePhaseAction r)
  | expire => exact .of_tame hp hc ho tame_expire
  | startStrike r =>
    exact .of_tame hp hc ho (tame_startBatteryMonitoring.trans (tame_executePhaseAction r))
  | reset reason => exact .of_tame hp hc ho (tame_resetToIdle reason)
  | ignore => exact .of_tame hp hc ho (.of_eq rfl rfl rfl)
  | confirm => exact .of_tame hp hc ho (.of_eq rfl rfl rfl)
  | suspend => exact .of_tame hp hc ho (.of_eq rfl rfl rfl)
  | createCommand name ev expires call =>
    exact ⟨hp, .inr (.inl ⟨name, ev, expires, call⟩), fun eff heff => .inl (ho ▸ heff)⟩
  | ack id status =>
    rcases ack_cases (c := c.noteReport e k) id status with ⟨cmd, -, -, he⟩ | ⟨-, he⟩
    · rw [he]
      exact ⟨hp, .inr (.inr ⟨_, rfl, .inl status.toStatus_ne_pending⟩),
        fun eff heff => .inl (ho ▸ heff)⟩
    · rw [he]
      exact .of_tame hp hc ho .refl

/-! ## Worker steps -/

variable (d p e) in
/-- The step of this worker powers the UPS off without having looked at the mode: the hold worker
has no owner to wait for, or its time is up. -/
def Unchecked : Pc → Prop
  | .observerPowerOff => p.owners = [] ∨
      e.clock .deadline + d.timing.observerPoweroffMaxWait ≤ e.clock .loop
  | .observerHolding deadline => deadline ≤ e.clock .loop
  | _ => False

variable (d p e) in
/-- **How a step of a worker at `pc` ends**, and where the worker goes on. -/
inductive SegmentOutcome (c : Ctx) (pc : Pc) (c' : Ctx) : Option Pc → Prop
  | wait (pc' : Pc) (orch : c'.orch = c.orch) (timer : c'.deadlineTimer = c.deadlineTimer)
      (command : c'.command = c.command)
      (out : c'.out = c.out ∨ c'.out = c.out ++ [.sendWol] ∧ (pc.fits d → d.isObserver = false))
      (fits : pc.fits d → pc'.fits d) (unpushed : pc'.unpushed → pc.unpushed) :
      SegmentOutcome c pc c' (some pc')
  | abort (mode : c.mode ≠ .shuttingDown) (orch : c'.orch = c.orch)
      (timer : c'.deadlineTimer = c.deadlineTimer) (command : c'.command = c.command)
      (out : c'.out = c.out) : SegmentOutcome c pc c' none
  | push (unpushed : pc.unpushed) (mode : c.mode = .shuttingDown ∨ pc = .forceShutdownDesktop)
      (orch : c'.orch = c.orch) (timer : c'.deadlineTimer = c.deadlineTimer)
      (command : c'.command = some (makeCriticalShutdownCommand e))
      (out : c'.out = c.out ++ [.saveCommand (makeCriticalShutdownCommand e)] ++
        [.pushCommand (makeCriticalShutdownCommand e)])
      (fits : pc.fits d → d.isObserver = false) : SegmentOutcome c pc c' (some .pushingShutdown)
  | shutdown (mode : c.mode = .shuttingDown) (role : d.isObserver = false)
      (power : c.upsOnBattery = true) (orch : c'.orch = c.orch)
      (timer : c'.deadlineTimer = c.deadlineTimer) (command : c'.command = c.command)
      (out : c'.out = c.out ++ [.selfShutdown]) : SegmentOutcome c pc c' none
  | powerOff (mode : c.mode = .shuttingDown ∨ Unchecked d p e pc)
      (fits : pc.fits d → d.isObserver = true) (orch : c'.orch = c.orch)
      (timer : c'.deadlineTimer = c.deadlineTimer) (command : c'.command = c.command)
      (out : c'.out = c.out ++ [.powerOffUps]) : SegmentOutcome c pc c' none
  | handled (mode : c.mode = .shuttingDown) (role : d.isObserver = false)
      (power : c.upsOnBattery = false) (orch : c'.orch.mode = .desktopHandled) (rest : c'.Resting)
      (command : c'.command = c.command) (out : c'.out = c.out) : SegmentOutcome c pc c' none

variable {pc : Pc}

theorem outcome_terminalAction :
    SegmentOutcome d p e c pc (c.terminalAction d) none := by
  unfold terminalAction
  split_ifs with h1 h2 h3
  · exact .abort h1 rfl rfl rfl rfl
  · simp only [Bool.and_eq_true, Bool.not_eq_true'] at h2
    exact .handled (not_not.mp h1) h2.1 h2.2 rfl ⟨rfl, rfl, rfl, rfl⟩ rfl rfl
  · exact .powerOff (.inl (not_not.mp h1)) (fun _ => h3) rfl rfl rfl rfl
  · simp only [Bool.and_eq_true, Bool.not_eq_true', not_and, Bool.not_eq_false] at h2
    have ho := Bool.eq_false_iff.mpr h3
    exact .shutdown (not_not.mp h1) ho (h2 ho) rfl rfl rfl rfl

theorem outcome_holdIteration (deadline : Int) (hf : pc.fits d → d.isObserver = true)
    (hu : deadline ≤ e.clock .loop → Unchecked d p e pc) :
    SegmentOutcome d p e c pc (c.holdIteration p e deadline).1 (c.holdIteration p e deadline).2 := by
  unfold holdIteration
  split_ifs with h1 h2 h3 h4 h5
  · exact .abort h2 rfl rfl rfl rfl
  · exact .powerOff (.inl (not_not.mp h2)) hf rfl rfl rfl rfl
  · exact .powerOff (.inl (not_not.mp h2)) hf rfl rfl rfl rfl
  · exact .powerOff (.inl (not_not.mp h2)) hf rfl rfl rfl rfl
  · exact .wait _ rfl rfl rfl (.inl rfl) hf (by simp [Pc.unpushed])
  · exact .powerOff (.inr (hu (not_lt.mp h1))) hf rfl rfl rfl rfl

theorem outcome_waitIteration (deadline : Int) (hf : pc.fits d → d.isObserver = false) :
    SegmentOutcome d p e c pc (c.waitIteration d e deadline).1 (c.waitIteration d e deadline).2 := by
  unfold waitIteration
  split_ifs with h1 h2 h3
  · exact .abort h2 rfl rfl rfl rfl
  · exact outcome_terminalAction
  · exact .wait _ rfl rfl rfl (.inl rfl) (fun h => by simp [Pc.fits, hf h]) (by simp [Pc.unpushed])
  · exact outcome_terminalAction

theorem outcome_shutdownAfterWake (hu : pc.unpushed) (hf : pc.fits d → d.isObserver = false) :
    SegmentOutcome d p e c pc (c.shutdownAfterWake e).1 (c.shutdownAfterWake e).2 := by
  unfold shutdownAfterWake
  split_ifs with h
  · exact .abort h rfl rfl rfl rfl
  · exact .push hu (.inl (not_not.mp h)) rfl rfl rfl rfl hf

theorem outcome_wakeIteration (deadline nextRetry : Int) (hu : pc.unpushed)
    (hf : pc.fits d → d.isObserver = false) : SegmentOutcome d p e c pc
      (c.wakeIteration e deadline nextRetry).1 (c.wakeIteration e deadline nextRetry).2 := by
  unfold wakeIteration
  split_ifs with h1 h2
  · exact .abort h2 rfl rfl rfl rfl
  · exact .wait _ rfl rfl rfl (.inl rfl) (fun h => by simp [Pc.fits, hf h]) fun _ => hu
  · exact outcome_shutdownAfterWake hu hf

theorem outcome_wakeAfterFetch (deadline nextRetry : Int) (hu : pc.unpushed)
    (hf : pc.fits d → d.isObserver = false) : SegmentOutcome d p e c pc
      (c.wakeAfterFetch d e deadline nextRetry).1 (c.wakeAfterFetch d e deadline nextRetry).2 := by
  have hc := fetchStateFromDesktop_fst (c := c) (d := d) (e := e)
  simp only [wakeAfterFetch, hc]
  split_ifs with h1 h2
  · unfold shutdownAfterWake
    split_ifs with h
    · exact .abort h rfl rfl rfl rfl
    · exact .push hu (.inl (not_not.mp h)) rfl rfl rfl rfl hf
  · exact .wait _ rfl rfl rfl (.inr ⟨rfl, hf⟩) (fun h => by simp [Pc.fits, hf h]) fun _ => hu
  · exact .wait _ rfl rfl rfl (.inl rfl) (fun h => by simp [Pc.fits, hf h]) fun _ => hu

/-- **Every worker step ends in one of these ways.** -/
theorem segment_outcome (pc : Pc) :
    SegmentOutcome d p e c pc (segment d p e c pc).1 (segment d p e c pc).2 := by
  have hprim : ∀ {b : Bool}, (!b) = true → b = false := by simp
  cases pc with
  | terminalAction => exact outcome_terminalAction
  | observerPowerOff =>
    simp only [segment, observerPowerOffWhenDesktopSafe]
    split_ifs with h
    · exact .powerOff (.inr (.inl (List.isEmpty_iff.mp h))) id rfl rfl rfl rfl
    · exact outcome_holdIteration _ id fun h => .inr h
  | observerHolding deadline => exact outcome_holdIteration _ id id
  | forceShutdownDesktop => exact .push rfl (.inr rfl) rfl rfl rfl rfl hprim
  | pushingShutdown => exact outcome_waitIteration _ hprim
  | waitingDesktop deadline => exact outcome_waitIteration _ hprim
  | wakeThenShutdown => exact .wait _ rfl rfl rfl (.inr ⟨rfl, hprim⟩) id fun _ => rfl
  | sendingWol => exact outcome_wakeIteration _ _ rfl hprim
  | fetchingState deadline nextRetry => exact outcome_wakeAfterFetch _ _ rfl hprim
  | resendingWol deadline => exact .wait _ rfl rfl rfl (.inl rfl) id fun _ => rfl
  | wakeSleeping deadline nextRetry => exact outcome_wakeIteration _ _ rfl hprim

/-- What a worker step does outside the context, and when. -/
inductive SegmentEffect (d : UPSDeviceConfig) (p : Peers) (e : Env) (c : Ctx) (pc : Pc) : Effect → Prop
  | sendWol (fits : pc.fits d → d.isObserver = false) : SegmentEffect d p e c pc .sendWol
  | save (unpushed : pc.unpushed) (mode : c.mode = .shuttingDown ∨ pc = .forceShutdownDesktop)
      (fits : pc.fits d → d.isObserver = false) :
      SegmentEffect d p e c pc (.saveCommand (makeCriticalShutdownCommand e))
  | push (unpushed : pc.unpushed) (mode : c.mode = .shuttingDown ∨ pc = .forceShutdownDesktop)
      (fits : pc.fits d → d.isObserver = false) :
      SegmentEffect d p e c pc (.pushCommand (makeCriticalShutdownCommand e))
  | shutdown (mode : c.mode = .shuttingDown) (role : d.isObserver = false)
      (power : c.upsOnBattery = true) : SegmentEffect d p e c pc .selfShutdown
  | powerOff (mode : c.mode = .shuttingDown ∨ Unchecked d p e pc)
      (fits : pc.fits d → d.isObserver = true) : SegmentEffect d p e c pc .powerOffUps

theorem SegmentOutcome.effect {pc' : Option Pc} (h : SegmentOutcome d p e c pc c' pc')
    (hc : c.out = []) {eff : Effect} (heff : eff ∈ c'.out) : SegmentEffect d p e c pc eff := by
  cases h with
  | wait _ _ _ _ out =>
    rcases out with out | ⟨out, fits⟩
    · rw [out, hc] at heff
      exact absurd heff List.not_mem_nil
    · rw [out, hc] at heff
      obtain rfl := List.mem_singleton.mp heff
      exact .sendWol fits
  | abort _ _ _ _ out =>
    rw [out, hc] at heff
    exact absurd heff List.not_mem_nil
  | push unpushed mode _ _ _ out fits =>
    rw [out, hc] at heff
    simp only [List.nil_append, List.mem_append, List.mem_singleton] at heff
    rcases heff with rfl | rfl
    · exact .save unpushed mode fits
    · exact .push unpushed mode fits
  | shutdown mode role power _ _ _ out =>
    rw [out, hc] at heff
    obtain rfl := List.mem_singleton.mp heff
    exact .shutdown mode role power
  | powerOff mode fits _ _ _ out =>
    rw [out, hc] at heff
    obtain rfl := List.mem_singleton.mp heff
    exact .powerOff mode fits
  | handled _ _ _ _ _ _ out =>
    rw [out, hc] at heff
    exact absurd heff List.not_mem_nil

theorem segment_unchecked {pc : Pc} (h : Unchecked d p e pc) :
    (segment d p e c pc).1.out = c.out ++ [.powerOffUps] := by
  cases pc with
  | observerPowerOff =>
    simp only [segment, observerPowerOffWhenDesktopSafe]
    split_ifs with h1
    · rfl
    · have h2 := h.resolve_left fun h2 => h1 (List.isEmpty_iff.mpr h2)
      rw [holdIteration, if_neg (not_lt.mpr h2)]
      rfl
  | observerHolding deadline =>
    rw [segment, holdIteration, if_neg (not_lt.mpr h)]
    rfl
  | _ => exact h.elim

/-- What a worker step leaves alone. -/
structure WorkFrame (c c' : Ctx) : Prop where
  threads : c'.threads = c.threads
  spawned : c'.spawned = c.spawned
  power : c'.upsOnBattery = c.upsOnBattery
  log : c'.outageLog = c.outageLog
  desktop : c'.desktopState = c.desktopState

theorem WorkFrame.refl : WorkFrame c c := ⟨rfl, rfl, rfl, rfl, rfl⟩

theorem workFrame_terminalAction : WorkFrame c (c.terminalAction d) := by
  unfold terminalAction
  split_ifs <;> exact ⟨rfl, rfl, rfl, rfl, rfl⟩

theorem workFrame_holdIteration (deadline : Int) :
    WorkFrame c (c.holdIteration p e deadline).1 := by
  unfold holdIteration
  split_ifs <;> exact ⟨rfl, rfl, rfl, rfl, rfl⟩

theorem workFrame_observerPowerOff :
    WorkFrame c (c.observerPowerOffWhenDesktopSafe d p e).1 := by
  unfold observerPowerOffWhenDesktopSafe
  split_ifs
  · exact ⟨rfl, rfl, rfl, rfl, rfl⟩
  · exact workFrame_holdIteration _

theorem workFrame_waitIteration (deadline : Int) :
    WorkFrame c (c.waitIteration d e deadline).1 := by
  unfold waitIteration
  split_ifs
  · exact .refl
  · exact workFrame_terminalAction
  · exact .refl
  · exact workFrame_terminalAction

theorem workFrame_shutdownAfterWake : WorkFrame c (c.shutdownAfterWake e).1 := by
  unfold shutdownAfterWake
  split_ifs <;> exact ⟨rfl, rfl, rfl, rfl, rfl⟩

theorem workFrame_wakeIteration (deadline nextRetry : Int) :
    WorkFrame c (c.wakeIteration e deadline nextRetry).1 := by
  unfold wakeIteration
  split_ifs
  · exact .refl
  · exact .refl
  · exact workFrame_shutdownAfterWake

theorem workFrame_wakeAfterFetch (deadline nextRetry : Int) :
    WorkFrame { c with desktopState := fetchedState d e c.desktopState }
      (c.wakeAfterFetch d e deadline nextRetry).1 := by
  simp only [wakeAfterFetch, fetchStateFromDesktop_fst]
  split_ifs
  · exact workFrame_shutdownAfterWake
  · exact ⟨rfl, rfl, rfl, rfl, rfl⟩
  · exact .refl

/-- **Of the workers, only the wake loop** writes the desktop state. -/
theorem workFrame_segment (pc : Pc) : WorkFrame
    { c with desktopState :=
        if pc.isFetching then fetchedState d e c.desktopState else c.desktopState }
    (segment d p e c pc).1 := by
  cases pc with
  | terminalAction => exact workFrame_terminalAction
  | observerPowerOff => exact workFrame_observerPowerOff
  | observerHolding deadline => exact workFrame_holdIteration _
  | pushingShutdown => exact workFrame_waitIteration _
  | waitingDesktop deadline => exact workFrame_waitIteration _
  | sendingWol => exact workFrame_wakeIteration _ _
  | wakeSleeping deadline nextRetry => exact workFrame_wakeIteration _ _
  | fetchingState deadline nextRetry => exact workFrame_wakeAfterFetch _ _
  | _ => exact ⟨rfl, rfl, rfl, rfl, rfl⟩

theorem segment_frame (pc : Pc) : (segment d p e c pc).1.threads = c.threads ∧
    (segment d p e c pc).1.spawned = c.spawned ∧
    (segment d p e c pc).1.upsOnBattery = c.upsOnBattery ∧
    (segment d p e c pc).1.outageLog = c.outageLog :=
  have h := workFrame_segment (c := c) (d := d) (p := p) (e := e) pc
  ⟨h.threads, h.spawned, h.power, h.log⟩

theorem workerStep_eq {id : ℕ} (h : c.workerStep d p e id = some c') :
    ∃ th ∈ c.threads, th.id = id ∧
      c' = (segment d p e c th.pc).1.resume id (segment d p e c th.pc).2 := by
  unfold workerStep at h
  cases hf : c.threads.find? (·.id = id) with
  | none => simp [hf] at h
  | some th =>
    simp only [hf, Option.some.injEq] at h
    exact ⟨th, List.mem_of_find?_eq_some hf, by simpa using List.find?_some hf, h.symm⟩

end Ctx

end UpsOrchestrator

import UpsOrchestrator.ContextServer

/-!
# What a thread owes the record

`critical_shutdown` is meant for a record in `shutting_down`, and whoever writes an idle record
cancels the pending command afterwards.

* `ShutsDesktop`, `Binds`: the operations this is about.
* `duties`: the protocol of a thread; its stage is what it knows of the record and what it still owes.
* `Mindful`: a program that keeps to it with nothing known; **`mindful_program`**: every request
  does, and every worker but `_action_force_shutdown_desktop`.
* `Unguarded`: the thread may push before it looks at the record again;
  **`follows_blind_of_not_unguarded`**.
-/

set_option autoImplicit false

namespace UpsOrchestrator

open Lts

/-! ## Operations -/

/-- A pending `critical_shutdown` of the state machine. -/
def Command.Shuts (cmd : Command) : Prop :=
  cmd.status = .pending ∧ cmd.command = "critical_shutdown" ∧
    ∃ ts : Int, cmd.id = "shutdown-" ++ toString ts

theorem Command.not_shuts_of_status {cmd : Command} (h : cmd.status ≠ .pending) : ¬cmd.Shuts :=
  fun hs => h hs.1

theorem Command.not_shuts_of_id {cmd : Command} (ts : Int)
    (h : cmd.id = cmd.command ++ "-" ++ toString ts) : ¬cmd.Shuts := by
  rintro ⟨-, hname, ts', hid⟩
  rw [h, hname] at hid
  have hchars := congrArg String.toList hid
  simp [String.toList_append] at hchars

namespace WorkerOp

/-- A pending `critical_shutdown` is stored, or one is pushed. -/
def ShutsDesktop : WorkerOp → Prop
  | .handler (.saveCommand cmd) => cmd.Shuts
  | .handler (.pushCommandToDesktop cmd) => cmd.command = "critical_shutdown"
  | _ => False

/-- `_action_force_shutdown_desktop` is launched. -/
def LaunchesPush : WorkerOp → Prop
  | .handler (.startThread pc) => pc = .forceShutdownDesktop
  | _ => False

/-- The operation writes an idle record. -/
def WritesIdle : WorkerOp → Prop
  | .handler (.saveOrchestratorState orch) => orch.mode = .idle
  | _ => False

/-- One of these. -/
def Binds : WorkerOp → Prop
  | .handler (.saveCommand cmd) => cmd.Shuts
  | .handler (.pushCommandToDesktop cmd) => cmd.command = "critical_shutdown"
  | .handler (.startThread pc) => pc = .forceShutdownDesktop
  | .handler (.saveOrchestratorState orch) => orch.mode = .idle
  | _ => False

theorem Binds.of_shutsDesktop {o : WorkerOp} (h : o.ShutsDesktop) : o.Binds := by
  unfold ShutsDesktop at h
  split at h
  · exact h
  · exact h
  · exact h.elim

theorem Binds.of_launchesPush {o : WorkerOp} (h : o.LaunchesPush) : o.Binds := by
  unfold LaunchesPush at h
  split at h
  · exact h
  · exact h.elim

theorem Binds.of_writesIdle {o : WorkerOp} (h : o.WritesIdle) : o.Binds := by
  unfold WritesIdle at h
  split at h
  · exact h
  · exact h.elim

/-- The operation does not touch the record, waits for nothing, and the context does not decide its
answer. -/
def passes : WorkerOp → Bool
  | .handler .getOrchestratorState => false
  | .handler (.saveOrchestratorState _) => false
  | .handler .getDesktopState => false
  | .handler .getCommand => false
  | .handler .getUpsOnBattery => false
  | .handler (.acquire _) => false
  | _ => true

theorem shutsDesktop_of_saved {o : WorkerOp} {cmd : Command} (h : o.saved = some cmd)
    (hs : cmd.Shuts) : o.ShutsDesktop := by
  unfold saved at h
  split at h
  · obtain rfl := Option.some.inj h
    exact hs
  · cases h

theorem launchesPush_of_launched {o : WorkerOp} (h : o.launched = some .forceShutdownDesktop) :
    o.LaunchesPush := by
  unfold launched at h
  split at h
  · exact Option.some.inj h
  · cases h

theorem written_of_passes {o : WorkerOp} (h : o.passes = true) : o.written = none := by
  unfold written
  split
  · cases h
  · rfl

theorem of_launchesPush {o : WorkerOp} (h : o.LaunchesPush) :
    o = .handler (.startThread .forceShutdownDesktop) := by
  unfold LaunchesPush at h
  split at h
  · rw [h]
  · exact h.elim

theorem launched_of_written {o : WorkerOp} {orch : OrchState} (h : o.written = some orch) :
    o.launched = none := by
  unfold written at h
  split at h
  · rfl
  · cases h

end WorkerOp

/-! ## The protocol -/

/-- What a thread knows of the record, and what it owes. -/
inductive Duty
  /-- nothing -/
  | blind
  /-- the record said `shutting_down` when the thread last looked -/
  | sure
  /-- it has written an idle record and will read the command -/
  | toRead
  /-- it has found the command pending and will cancel it -/
  | toCancel

namespace Duty

/-- The thread owes nothing. -/
def Done : Duty → Prop
  | .blind => True
  | .sure => True
  | _ => False

/-- The thread no longer knows the record. -/
def unsure : Duty → Duty
  | .sure => .blind
  | q => q

/-- The stage after an operation and its answer. -/
def next (q : Duty) : (o : WorkerOp) → o.Ans → Duty
  | .handler .getOrchestratorState, orch => if orch.mode = .shuttingDown then .sure else q.unsure
  | .handler (.saveOrchestratorState orch), _ =>
    if orch.mode = .shuttingDown then .sure else if orch.mode = .idle then .toRead else .blind
  | .handler .getCommand, cmd =>
    match q with
    | .toRead => if cmd.any (·.status = .pending) then .toCancel else .blind
    | q => q.unsure
  | .handler (.saveCommand _), _ =>
    match q with
    | .toCancel => .blind
    | q => q
  | o, _ => if o.passes then q else q.unsure

end Duty

/-- The protocol of a thread: only one that has seen `shutting_down` stores or pushes
`critical_shutdown` or launches `_action_force_shutdown_desktop`. -/
def duties : Discipline WorkerOp WorkerOp.Ans Duty where
  allowed q o := q = .sure ∨ (¬o.ShutsDesktop ∧ ¬o.LaunchesPush)
  possible _ _ _ := True
  next := Duty.next

namespace Duty

variable {o : WorkerOp} {a : o.Ans}

theorem next_sure : next .sure o a = next .blind o a ∨
    (o.passes = true ∧ next .sure o a = .sure ∧ next .blind o a = .blind) := by
  cases o with
  | handler o =>
    cases o with
    | getOrchestratorState => exact .inl rfl
    | saveOrchestratorState orch => exact .inl rfl
    | getDesktopState => exact .inl rfl
    | getCommand => exact .inl rfl
    | getUpsOnBattery => exact .inl rfl
    | acquire lock => exact .inl rfl
    | _ => exact .inr ⟨rfl, rfl, rfl⟩
  | _ => exact .inr ⟨rfl, rfl, rfl⟩

theorem unsure_ne_sure (q : Duty) : q.unsure ≠ .sure := by cases q <;> simp [unsure]

/-- **A thread that knows `shutting_down` is right**, if it was before the operation. -/
theorem mode_of_next_sure {q : Duty} {e : Env × Peers} {u v : Shared}
    (h : o.exec e u = some (a, v)) (hq : q = .sure → u.ctx.mode = .shuttingDown)
    (hn : q.next o a = .sure) : v.ctx.mode = .shuttingDown := by
  have horch : v.ctx.orch = o.written.getD u.ctx.orch := (WorkerOp.exec_spec h).orch
  have hkept : o.written = none → q = .sure → v.ctx.mode = .shuttingDown := fun hw hs => by
    rw [hw] at horch
    rw [Ctx.mode, horch]
    exact hq hs
  cases o with
  | handler o =>
    cases o with
    | getOrchestratorState =>
      simp only [next] at hn
      split_ifs at hn with hm
      · rw [WorkerOp.eq_of_getOrchestratorState h] at hm
        rw [Ctx.mode, horch]
        exact hm
      · exact absurd hn q.unsure_ne_sure
    | saveOrchestratorState orch =>
      simp only [next] at hn
      split_ifs at hn with hm
      rw [Ctx.mode, horch]
      exact hm
    | getDesktopState => exact absurd hn q.unsure_ne_sure
    | getUpsOnBattery => exact absurd hn q.unsure_ne_sure
    | acquire lock => exact absurd hn q.unsure_ne_sure
    | getCommand =>
      cases q with
      | toRead =>
        simp only [next] at hn
        split_ifs at hn
      | _ => exact absurd hn (by simp [next, unsure])
    | saveCommand cmd =>
      cases q with
      | toCancel => exact absurd hn (by simp [next])
      | _ => exact hkept rfl hn
    | _ => exact hkept rfl hn
  | _ => exact hkept rfl hn

/-- The thread still has to cancel what is pending. -/
def Owes (q : Duty) : Prop := q = .toRead ∨ q = .toCancel

theorem Owes.not_done {q : Duty} (h : q.Owes) : ¬q.Done := by
  rcases h with rfl | rfl <;> exact id

/-- **What is owed is not forgotten** while the record is idle and a command is pending. -/
theorem owes_next {q : Duty} {e : Env × Peers} {u v : Shared} (h : o.exec e u = some (a, v))
    (hq : q.Owes) (hu : u.ctx.mode = .idle) (hv : v.ctx.mode = .idle)
    (hp : ∃ cmd, u.ctx.command = some cmd ∧ cmd.status = .pending) (ho : o.saved = none) :
    (q.next o a).Owes := by
  have hrest : q.unsure = q := by rcases hq with rfl | rfl <;> rfl
  have hunsure : q.unsure.Owes := by rwa [hrest]
  cases o with
  | handler o =>
    cases o with
    | getOrchestratorState =>
      have hm : a.mode ≠ .shuttingDown := by
        rw [WorkerOp.eq_of_getOrchestratorState h]
        exact fun hs => absurd (hu.symm.trans hs) (by decide)
      simpa only [next, if_neg hm, hrest] using hq
    | saveOrchestratorState orch =>
      have hm : orch.mode = .idle := by
        have horch : v.ctx.orch = orch := (WorkerOp.exec_spec h).orch
        rw [← horch]
        exact hv
      exact .inl (by simp [next, hm])
    | getCommand =>
      obtain ⟨cmd, hcmd, hpending⟩ := hp
      have ha : a = some cmd := (WorkerOp.eq_of_getCommand h).trans hcmd
      rcases hq with rfl | rfl
      · exact .inr (by simp [next, ha, hpending])
      · exact .inr rfl
    | saveCommand cmd => cases ho
    | getDesktopState => exact hunsure
    | getUpsOnBattery => exact hunsure
    | acquire lock => exact hunsure
    | _ => exact hq
  | _ => exact hq

theorem next_of_writesIdle {q : Duty} (h : o.WritesIdle) : q.next o a = .toRead := by
  unfold WorkerOp.WritesIdle at h
  split at h
  · simp [next, h]
  · exact h.elim

theorem next_blind (h : ¬o.WritesIdle) : next .blind o a = .blind ∨ next .blind o a = .sure := by
  cases o with
  | handler o =>
    cases o with
    | getOrchestratorState =>
      simp only [next]
      split_ifs
      · exact .inr rfl
      · exact .inl rfl
    | saveOrchestratorState orch =>
      simp only [next]
      split_ifs with h1 h2
      · exact .inr rfl
      · exact absurd h2 h
      · exact .inl rfl
    | _ => exact .inl rfl
  | _ => exact .inl rfl

end Duty

/-! ## Mindful programs -/

section Mindful

variable {α β : Type} {R : α → Prop} {S : β → Prop} {p : Worker α} {o : WorkerOp}
  {Q : Duty → α → Prop}

/-- What keeps to the protocol with nothing known keeps to it in `shutting_down`. -/
theorem follows_sure (h : Follows duties .blind p Q) (hQ : ∀ a, Q .blind a → Q .sure a) :
    Follows duties .sure p Q := by
  induction p with
  | ret a => exact hQ a h
  | op o k ih =>
    refine ⟨.inl rfl, fun a _ => ?_⟩
    have hk : Follows duties (Duty.next .blind o a) (k a) Q := h.2 a trivial
    show Follows duties (Duty.next .sure o a) (k a) Q
    rcases Duty.next_sure (o := o) (a := a) with he | ⟨-, hs, hb⟩
    · rwa [he]
    · rw [hb] at hk
      rw [hs]
      exact ih a hk

/-- **The program keeps to the protocol**, with nothing known and nothing owed; it returns a value
with `R`. -/
def Mindful (R : α → Prop) (p : Worker α) : Prop :=
  Follows duties .blind p fun q a => q.Done ∧ R a

theorem mindful_ret {a : α} (h : R a) : Mindful R (.ret a) := ⟨trivial, h⟩

theorem Mindful.sure (h : Mindful R p) : Follows duties .sure p fun q a => q.Done ∧ R a :=
  follows_sure h fun _ h => ⟨trivial, h.2⟩

theorem Mindful.done {q : Duty} (h : Mindful R p) (hq : q.Done) :
    Follows duties q p fun q a => q.Done ∧ R a := by
  cases q with
  | blind => exact h
  | sure => exact h.sure
  | _ => exact hq.elim

theorem mindful_op {k : o.Ans → Worker α} (ho : ¬o.Binds) (hk : ∀ a, Mindful R (k a)) :
    Mindful R (.op o k) := by
  refine ⟨.inr ⟨fun h => ho (.of_shutsDesktop h), fun h => ho (.of_launchesPush h)⟩,
    fun a _ => (hk a).done ?_⟩
  show (Duty.next .blind o a).Done
  rcases Duty.next_blind (a := a) fun h => ho (.of_writesIdle h) with h | h
  · rw [h]
    trivial
  · rw [h]
    trivial

/-- **Sequential composition.** -/
theorem Mindful.bind {p : Worker β} {f : β → Worker α} (hp : Mindful S p)
    (hf : ∀ b, S b → Mindful R (f b)) : Mindful R (p.bind f) :=
  Follows.bind (Follows.mono hp fun _ b h => (hf b h.2).done h.1)

end Mindful

namespace Handler

/-- The same of a handler. -/
def Mindful {α : Type} (p : Handler α) : Prop := UpsOrchestrator.Mindful (fun _ => True) p.asWorker

variable {α β : Type} {p : Handler α} {d : UPSDeviceConfig}

theorem mindful_ret (a : α) : Mindful (.ret a : Handler α) := UpsOrchestrator.mindful_ret trivial

theorem mindful_op {o : Op} {k : o.Ans → Handler α} (ho : ¬(WorkerOp.handler o).Binds)
    (hk : ∀ a, Mindful (k a)) : Mindful (.op o k) :=
  UpsOrchestrator.mindful_op ho hk

theorem asWorker_bind (p : Handler α) (f : α → Handler β) :
    asWorker (p.bind f) = (asWorker p).bind fun a => asWorker (f a) := by
  induction p with
  | ret a => rfl
  | op o k ih => exact congrArg (Prog.op _) (funext ih)

theorem Mindful.bind {f : α → Handler β} (hp : Mindful p) (hf : ∀ a, Mindful (f a)) :
    Mindful (p.bind f) := by
  unfold Mindful
  rw [asWorker_bind]
  exact UpsOrchestrator.Mindful.bind hp fun a _ => hf a

/-! ### Requests -/

theorem mindful_noteOwnPower (b : Bool) : Mindful (noteOwnPower b) := by
  refine mindful_op id fun onBattery => ?_
  simp only [Prog.ret_bind]
  split_ifs
  · exact mindful_ret ()
  · exact mindful_op id fun _ => mindful_op id fun _ => mindful_ret ()
  · refine mindful_op id fun _ => mindful_op id fun orch => ?_
    simp only [Prog.ret_bind]
    split_ifs
    · exact mindful_op id fun _ => mindful_op id fun _ => mindful_ret ()
    · exact mindful_ret ()

theorem mindful_fetchStateFromDesktop : Mindful (fetchStateFromDesktop d) := by
  unfold fetchStateFromDesktop
  split_ifs
  · exact mindful_ret none
  · refine mindful_op id fun live => ?_
    cases live with
    | none => exact mindful_ret none
    | some state => exact mindful_op id fun _ => mindful_ret _

theorem mindful_startPhase : Mindful (startPhase d) := by
  have hstatus : Mindful (statusAtStart d) := by
    refine mindful_op id fun state => ?_
    split_ifs
    · exact mindful_ret none
    · refine mindful_fetchStateFromDesktop.bind fun live => ?_
      cases live <;> exact mindful_ret _
  unfold startPhase
  split_ifs
  · exact mindful_ret _
  · exact hstatus.bind fun _ => mindful_ret _

/-- The record that monitoring starts with is not idle. -/
theorem mindful_prepareMonitoring : UpsOrchestrator.Mindful (fun r => r.1.mode = .monitoring)
    (asWorker (prepareMonitoring d)) := by
  have hphase : ∀ (orch : OrchState) (ts : Int),
      UpsOrchestrator.Mindful (fun r => r.1.mode = .monitoring) (asWorker do
        let phase ← startPhase d
        let phaseDeadline := (← nowTs .deadline) + Ctx.phaseWait d phase
        pure ({ orch with
          mode := .monitoring
          lastEvent := some "ONBATT"
          onbattSince := some ts
          phase := some phase
          phaseDeadline := some phaseDeadline }, phase)) := by
    intro orch ts
    rw [Prog.bind_eq, asWorker_bind]
    exact UpsOrchestrator.Mindful.bind mindful_startPhase fun _ _ =>
      UpsOrchestrator.mindful_op id fun _ => UpsOrchestrator.mindful_ret rfl
  refine UpsOrchestrator.mindful_op id fun orch => UpsOrchestrator.mindful_op id fun ts =>
    UpsOrchestrator.mindful_op id fun onBattery => ?_
  cases onBattery with
  | false => exact hphase orch ts
  | true => exact UpsOrchestrator.mindful_op id fun _ => hphase orch ts

theorem mindful_finishMonitoring (orch : OrchState) (phase : Phase) :
    Mindful (finishMonitoring orch phase) := by
  have hname : "ups_state" ≠ "critical_shutdown" := by decide
  refine mindful_op id fun _ => mindful_op id fun _ => ?_
  split_ifs
  · refine mindful_op id fun _ => mindful_op id fun _ => ?_
    exact mindful_op (fun h => hname h.2.1) fun _ => mindful_op hname fun _ => mindful_ret ()
  · exact mindful_ret ()

theorem mindful_startBatteryMonitoring : Mindful (startBatteryMonitoring d) := by
  unfold Mindful startBatteryMonitoring
  rw [Prog.bind_eq, asWorker_bind]
  refine mindful_prepareMonitoring.bind fun ⟨orch, phase⟩ hmode => ?_
  refine UpsOrchestrator.mindful_op (fun hidle => ?_) fun _ => mindful_finishMonitoring orch phase
  exact absurd (hmode.symm.trans hidle) (by decide)

theorem mindful_startMonitoringIfMode (allowed : List Mode) :
    Mindful (startMonitoringIfMode d allowed) := by
  have hrelease : Mindful (release .start) := mindful_op id fun _ => mindful_ret ()
  refine mindful_op id fun _ => mindful_op id fun orch => ?_
  simp only [Prog.ret_bind]
  split_ifs
  · exact mindful_startBatteryMonitoring.bind fun _ => hrelease
  · exact hrelease

theorem mindful_executePhaseAction (reason : Reason) : Mindful (executePhaseAction d reason) := by
  refine mindful_op id fun _ => mindful_op id fun orch => ?_
  simp only [Prog.ret_bind]
  split_ifs
  · exact mindful_op id fun _ => mindful_ret ()
  · refine mindful_op id fun _ => ⟨.inr ⟨id, id⟩, fun _ _ => ?_⟩
    show Follows duties .sure _ _
    exact ⟨.inl rfl, fun _ _ => ⟨.inl rfl, fun _ _ => ⟨.inl rfl, fun _ _ => ⟨trivial, trivial⟩⟩⟩⟩

theorem mindful_checkPhaseDeadline : Mindful (checkPhaseDeadline d) := by
  refine mindful_op id fun orch => mindful_op id fun now => ?_
  simp only [Prog.ret_bind]
  split_ifs
  · exact mindful_ret ()
  · exact mindful_executePhaseAction _

theorem follows_cancelPending (reason : String) :
    Follows duties .toRead (asWorker (cancelPending reason)) fun q _ => q.Done ∧ True := by
  refine ⟨.inr ⟨id, id⟩, fun cmd _ => ?_⟩
  cases cmd with
  | none => exact ⟨trivial, trivial⟩
  | some cmd =>
    by_cases hp : cmd.status = .pending
    · have hnext : duties.next .toRead (.handler .getCommand) (some cmd) = .toCancel := by
        simp [duties, Duty.next, hp]
      rw [hnext]
      simp only [Prog.ret_bind, if_pos hp]
      refine ⟨.inr ⟨id, id⟩, fun _ _ => ⟨.inr ⟨?_, id⟩, fun _ _ => ⟨trivial, trivial⟩⟩⟩
      exact Command.not_shuts_of_status (by simp)
    · have hnext : duties.next .toRead (.handler .getCommand) (some cmd) = .blind := by
        simp [duties, Duty.next, hp]
      rw [hnext]
      simp only [Prog.ret_bind, if_neg hp]
      exact ⟨trivial, trivial⟩

theorem mindful_resetToIdle (reason : String) : Mindful (resetToIdle reason) := by
  refine mindful_op id fun _ => mindful_op id fun _ => mindful_op id fun _ => mindful_op id fun _ => ?_
  refine ⟨.inr ⟨id, id⟩, fun _ _ => ?_⟩
  show Follows duties .toRead _ _
  exact ⟨.inr ⟨id, id⟩, fun _ _ => follows_cancelPending reason⟩

theorem mindful_followDesktopUps (mode : Mode) (reason : String) :
    Mindful (followDesktopUps d mode reason) := by
  refine mindful_op id fun out => ?_
  simp only [Prog.ret_bind]
  split_ifs
  · exact mindful_startMonitoringIfMode _
  · exact mindful_checkPhaseDeadline
  · exact mindful_ret ()
  · exact mindful_resetToIdle reason
  · exact mindful_ret ()

theorem mindful_lowBatteryAction (mode : Mode) (reason : Reason) :
    Mindful (lowBatteryAction d mode reason) := by
  have haction := mindful_executePhaseAction (d := d) reason
  cases mode with
  | idle => exact mindful_startBatteryMonitoring.bind fun _ => haction
  | desktopHandled => exact mindful_startBatteryMonitoring.bind fun _ => haction
  | monitoring => exact haction
  | shuttingDown => exact mindful_ret ()

theorem mindful_body (k : PowerKind) : Mindful (k.body d) := by
  cases k with
  | low reason => exact mindful_op id fun orch => mindful_lowBatteryAction _ reason
  | battery checks =>
    refine mindful_op id fun orch => ?_
    simp only [Prog.ret_bind]
    split_ifs
    · exact mindful_startMonitoringIfMode _
    · exact mindful_checkPhaseDeadline
    · exact mindful_ret ()
  | mains reason => exact mindful_op id fun orch => mindful_followDesktopUps _ reason
  | suspendDue =>
    refine mindful_op id fun orch => ?_
    simp only [Prog.ret_bind]
    split_ifs
    · exact mindful_executePhaseAction _
    · exact mindful_ret ()
  | timer => exact mindful_executePhaseAction _
  | reset reason => exact mindful_resetToIdle reason
  | nothing => exact mindful_op id fun _ => mindful_ret ()

theorem mindful_power (k : PowerCall) : Mindful (k.program d) := by
  rw [PowerCall.program_eq]
  refine Mindful.bind ?_ fun _ => mindful_body _
  unfold PowerCall.noteProgram
  cases k.ownReport with
  | none => exact mindful_ret ()
  | some onBattery => exact mindful_noteOwnPower onBattery

theorem mindful_handleUpsStatusUnavailable : Mindful (handleUpsStatusUnavailable d) := by
  refine mindful_op id fun orch => ?_
  simp only [Prog.ret_bind]
  split_ifs
  · exact mindful_checkPhaseDeadline
  · refine mindful_op id fun out => ?_
    simp only [Prog.ret_bind]
    split_ifs
    · exact mindful_startMonitoringIfMode _
    · exact mindful_ret ()
  · exact mindful_ret ()

theorem mindful_desktopGoingAway : Mindful desktopGoingAway := by
  refine mindful_op id fun _ => mindful_op id fun cur => ?_
  simp only [Prog.ret_bind]
  split_ifs
  · exact mindful_op id fun _ => mindful_ret ()
  · refine mindful_op (by simp [WorkerOp.Binds]) fun _ => mindful_op id fun _ => ?_
    exact mindful_op id fun _ => mindful_op (by simp [WorkerOp.Binds]) fun _ => mindful_ret ()

/-- A report writes back the mode it has read, and that is `monitoring`. -/
theorem mindful_updateState (status : Option DesktopStatus) : Mindful (updateState d status) := by
  refine mindful_op id fun _ => ?_
  simp only [Prog.ret_bind, notifyDesktopStateChange]
  split_ifs
  · exact mindful_ret ()
  refine mindful_op id fun orch => ?_
  simp only [Prog.ret_bind, reactToReport]
  split_ifs with hm
  · exact mindful_ret ()
  · exact mindful_desktopGoingAway
  · refine mindful_op id fun _ => mindful_op ?_ fun _ => mindful_ret ()
    simpa [WorkerOp.Binds] using fun h => hm (by rw [h]; decide)
  · exact mindful_ret ()

theorem mindful_createCommand (command : String) (event : Option String)
    (expiresAt : Option (Option Int)) : Mindful (createCommand command event expiresAt) := by
  refine mindful_op id fun ts => mindful_op id fun _ => mindful_op id fun _ => ?_
  exact mindful_op (Command.not_shuts_of_id ts rfl) fun _ => mindful_ret ()

theorem mindful_ack (id : String) (status : Ctx.AckStatus) : Mindful (ack id status) := by
  refine mindful_op (fun h => h) fun cmd => ?_
  cases cmd with
  | none => exact mindful_ret ()
  | some cmd =>
    simp only [Prog.ret_bind]
    split_ifs
    · exact mindful_op (Command.not_shuts_of_status status.toStatus_ne_pending) fun _ =>
        mindful_ret ()
    · exact mindful_ret ()

end Handler

/-! ### Workers -/

namespace Worker

open Handler (asWorker)

variable {d : UPSDeviceConfig}

/-- The worker goes on, but not with `_action_force_shutdown_desktop`. -/
def Onward (pc : Option Pc) : Prop := pc ≠ some .forceShutdownDesktop

theorem onward_none : Onward none := by simp [Onward]

theorem mindful_terminalAction : Mindful (fun _ => True) (terminalAction d) := by
  refine mindful_op id fun _ => mindful_op id fun orch => ?_
  simp only [Prog.embed, Prog.ret_bind]
  split_ifs
  · exact mindful_op id fun _ => mindful_ret trivial
  · exact mindful_op id fun _ => mindful_op id fun _ => mindful_ret trivial
  · refine mindful_op id fun onBattery => ?_
    cases onBattery with
    | true => exact mindful_op id fun _ => mindful_op id fun _ => mindful_ret trivial
    | false =>
      refine mindful_op id fun _ => mindful_op id fun _ => mindful_op ?_ fun _ => ?_
      · simp [WorkerOp.Binds]
      · exact mindful_op id fun _ => mindful_ret trivial

theorem mindful_waitIteration (deadline : Int) : Mindful Onward (waitIteration d deadline) := by
  have hterminal : Mindful Onward
      ((terminalAction d).bind fun _ => (.ret none : Worker (Option Pc))) :=
    mindful_terminalAction.bind fun _ _ => mindful_ret onward_none
  refine mindful_op id fun now => ?_
  simp only [Prog.embed, Prog.ret_bind]
  split_ifs
  · refine mindful_op id fun orch => ?_
    simp only [Prog.embed, Prog.ret_bind]
    split_ifs
    · exact mindful_ret onward_none
    · refine mindful_op id fun state => ?_
      simp only [Prog.embed, Prog.ret_bind]
      split_ifs
      · exact hterminal
      · exact mindful_ret (by simp [Onward])
  · exact hterminal

theorem mindful_holdIteration (deadline : Int) : Mindful Onward (holdIteration deadline) := by
  have hoff : Mindful Onward (powerOffUps.bind fun _ => (.ret none : Worker (Option Pc))) :=
    mindful_op id fun _ => mindful_ret onward_none
  refine mindful_op id fun now => ?_
  simp only [Prog.embed, Prog.ret_bind]
  split_ifs
  · refine mindful_op id fun orch => ?_
    simp only [Prog.embed, Prog.ret_bind]
    split_ifs
    · exact mindful_ret onward_none
    · refine mindful_op id fun down => ?_
      simp only [Prog.ret_bind]
      split_ifs
      · exact hoff
      · refine mindful_op id fun finished => ?_
        simp only [Prog.ret_bind]
        split_ifs
        · exact hoff
        · refine mindful_op id fun status => ?_
          simp only [Prog.ret_bind]
          split_ifs
          · exact hoff
          · exact mindful_ret (by simp [Onward])
  · exact hoff

/-- It stores and pushes at once, so it has to know the record. -/
theorem follows_pushCriticalShutdown : Follows duties .sure pushCriticalShutdown fun q pc =>
    q.Done ∧ Onward pc := by
  refine ⟨.inl rfl, fun _ _ => ⟨.inl rfl, fun _ _ => ⟨.inl rfl, fun _ _ => ⟨.inl rfl, fun _ _ => ?_⟩⟩⟩⟩
  exact ⟨trivial, by simp [Onward]⟩

theorem mindful_shutdownAfterWake : Mindful Onward shutdownAfterWake := by
  refine ⟨.inr ⟨id, id⟩, fun orch _ => ?_⟩
  simp only [Prog.embed, Prog.ret_bind, duties, Duty.next]
  by_cases hm : orch.mode = .shuttingDown
  · rw [if_pos hm, if_neg (not_not.mpr hm)]
    exact follows_pushCriticalShutdown
  · rw [if_neg hm, if_pos hm]
    exact mindful_ret onward_none

theorem mindful_wakeIteration (deadline nextRetry : Int) :
    Mindful Onward (wakeIteration deadline nextRetry) := by
  refine mindful_op id fun now => ?_
  simp only [Prog.embed, Prog.ret_bind]
  split_ifs
  · refine mindful_op id fun orch => ?_
    simp only [Prog.embed, Prog.ret_bind]
    split_ifs
    · exact mindful_ret onward_none
    · exact mindful_ret (by simp [Onward])
  · exact mindful_shutdownAfterWake

theorem mindful_wakeAfterFetch (deadline nextRetry : Int) :
    Mindful Onward (wakeAfterFetch d deadline nextRetry) := by
  refine Mindful.bind Handler.mindful_fetchStateFromDesktop fun state _ => ?_
  split_ifs
  · exact mindful_shutdownAfterWake
  · refine mindful_op id fun now => ?_
    simp only [Prog.embed, Prog.ret_bind]
    split_ifs
    · exact mindful_op id fun _ => mindful_ret (by simp [Onward])
    · exact mindful_ret (by simp [Onward])
  · exact mindful_ret (by simp [Onward])

/-- **Every segment but the first of `_action_force_shutdown_desktop`** looks before it pushes. -/
theorem mindful_segment {pc : Pc} (h : pc ≠ .forceShutdownDesktop) :
    Mindful Onward (segment d pc) := by
  cases pc with
  | terminalAction => exact mindful_terminalAction.bind fun _ _ => mindful_ret onward_none
  | observerPowerOff =>
    refine mindful_op id fun none => ?_
    cases none with
    | true => exact mindful_op id fun _ => mindful_ret onward_none
    | false => exact mindful_op id fun now => mindful_holdIteration _
  | observerHolding deadline => exact mindful_holdIteration deadline
  | forceShutdownDesktop => exact absurd rfl h
  | pushingShutdown => exact mindful_op id fun now => mindful_waitIteration _
  | waitingDesktop deadline => exact mindful_waitIteration deadline
  | wakeThenShutdown => exact mindful_op id fun _ => mindful_ret (by simp [Onward])
  | sendingWol => exact mindful_op id fun _ => mindful_op id fun _ => mindful_wakeIteration _ _
  | fetchingState deadline nextRetry => exact mindful_wakeAfterFetch deadline nextRetry
  | resendingWol deadline => exact mindful_op id fun _ => mindful_ret (by simp [Onward])
  | wakeSleeping deadline nextRetry => exact mindful_wakeIteration deadline nextRetry

theorem mindful_run (n : ℕ) {pc : Pc} (h : pc ≠ .forceShutdownDesktop) :
    Mindful (fun _ => True) (run d n pc) := by
  induction n generalizing pc with
  | zero => exact mindful_ret trivial
  | succ n ih =>
    refine (mindful_segment h).bind fun pc hpc => ?_
    cases pc with
    | none => exact mindful_ret trivial
    | some pc => exact ih fun he => hpc (congrArg some he)

theorem follows_run_force (n : ℕ) :
    Follows duties .sure (run d n .forceShutdownDesktop) fun q _ => q.Done ∧ True := by
  cases n with
  | zero => exact ⟨trivial, trivial⟩
  | succ n =>
    refine Follows.bind (follows_pushCriticalShutdown.mono fun q pc h => ?_)
    cases pc with
    | none => exact ⟨h.1, trivial⟩
    | some pc => exact (mindful_run n fun he => h.2 (congrArg some he)).done h.1

end Worker

/-- **Every request is mindful.** -/
theorem Routine.mindful_program {d : UPSDeviceConfig} {r : Routine} (hr : r.isWorker = false) :
    Mindful (fun _ => True) (r.program d) := by
  cases r with
  | power k => exact Handler.mindful_power k
  | upsUnavailable => exact Handler.mindful_handleUpsStatusUnavailable
  | updateState status => exact Handler.mindful_updateState status
  | fetch =>
    exact Handler.Mindful.bind Handler.mindful_fetchStateFromDesktop fun _ => Handler.mindful_ret ()
  | createCommand command event expiresAt =>
    exact Handler.mindful_createCommand command event expiresAt
  | ack id status => exact Handler.mindful_ack id status
  | worker passes pc => cases hr

/-! ## Unguarded threads -/

/-- **The thread may push without looking**: it may store or push `critical_shutdown`, or launch
`_action_force_shutdown_desktop`, before it touches the record, waits or asks the context anything. -/
def Unguarded {α : Type} : Worker α → Prop
  | .ret _ => False
  | .op o k => o.ShutsDesktop ∨ o.LaunchesPush ∨ (o.passes = true ∧ ∃ a, Unguarded (k a))

/-- A thread that is not unguarded does not depend on what it knows of the record. -/
theorem follows_blind_of_not_unguarded {α : Type} {p : Worker α} {Q : Duty → α → Prop}
    (h : Follows duties .sure p Q) (hQ : ∀ a, Q .sure a → Q .blind a) (hp : ¬Unguarded p) :
    Follows duties .blind p Q := by
  induction p with
  | ret a => exact hQ a h
  | op o k ih =>
    obtain ⟨hs, hp⟩ := not_or.mp hp
    obtain ⟨hl, hp⟩ := not_or.mp hp
    refine ⟨.inr ⟨hs, hl⟩, fun a _ => ?_⟩
    have hk : Follows duties (Duty.next .sure o a) (k a) Q := h.2 a trivial
    show Follows duties (Duty.next .blind o a) (k a) Q
    rcases Duty.next_sure (o := o) (a := a) with he | ⟨hpass, hsure, hblind⟩
    · rwa [← he]
    · rw [hsure] at hk
      rw [hblind]
      exact ih a hk fun ha => hp ⟨hpass, a, ha⟩

end UpsOrchestrator

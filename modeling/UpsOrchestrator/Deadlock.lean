import UpsOrchestrator.Lib.Locks
import UpsOrchestrator.WorkerPrograms

/-!
# The locks of a context

Any number of threads work on one context at once: polls, events, reports, commands and their acks,
deadline timers, resets and workers, each one operation at a time. `_action_lock` and `_start_lock`
are not reentrant.

* `Routine`: what a thread of the server can run; `contextPool`: any family of them, interleaved.
* **`keepsLocks_program`**: every routine takes one lock at a time and gives it back on every path.
* `LocksSound`: mutual exclusion, no deadlock, and every call returns; **`locksSound`**.
-/

set_option autoImplicit false

namespace UpsOrchestrator

open Lts

/-! ## What the operations do with the locks -/

instance : Fintype Lock := ⟨{.action, .start}, fun l => by cases l <;> simp⟩

/-- No thread holds two locks, so the discrete order of them will do. -/
instance : PartialOrder Lock where
  le := Eq
  le_refl := Eq.refl
  le_trans _ _ _ := Eq.trans
  le_antisymm _ _ h _ := h

def Op.use : Op → LockUse Lock
  | .acquire lock => .acquire lock
  | .release lock => .release lock
  | _ => .pass

def WorkerOp.use : WorkerOp → LockUse Lock
  | .handler o => o.use
  | _ => .pass

/-- The locks of a context that are held. -/
def Shared.held (u : Shared) : Set Lock :=
  {l | match l with
    | .action => u.action = true
    | .start => u.start = true}

section Exec

variable {o : Op} {e : Answers} {u v : Shared} {a : o.Ans}

theorem Op.waits (h : o.exec e u = none) : ∃ l, o.use = .acquire l ∧ l ∈ u.held := by
  cases o with
  | acquire l =>
    refine ⟨l, rfl, ?_⟩
    cases l with
    | action =>
      show u.action = true
      simpa [exec] using h
    | start =>
      show u.start = true
      simpa [exec] using h
  | release l => cases l <;> cases h
  | _ => cases h

theorem Op.free {l : Lock} (h : o.exec e u = some (a, v)) (ho : o.use = .acquire l) :
    l ∉ u.held := by
  cases o with
  | acquire l' =>
    obtain rfl := LockUse.acquire.inj ho
    intro hl
    cases l' with
    | action =>
      have hl : u.action = true := hl
      simp [exec, hl] at h
    | start =>
      have hl : u.start = true := hl
      simp [exec, hl] at h
  | _ => cases ho

theorem Op.held_after (h : o.exec e u = some (a, v)) : v.held = o.use.after u.held := by
  cases o with
  | acquire l =>
    cases l with
    | action =>
      have h : (if u.action then none else some ((), { u with action := true })) = some (a, v) := h
      split_ifs at h
      obtain ⟨-, rfl⟩ := Prod.ext_iff.mp (Option.some.inj h)
      ext l
      cases l <;> simp [Shared.held, use, LockUse.after]
    | start =>
      have h : (if u.start then none else some ((), { u with start := true })) = some (a, v) := h
      split_ifs at h
      obtain ⟨-, rfl⟩ := Prod.ext_iff.mp (Option.some.inj h)
      ext l
      cases l <;> simp [Shared.held, use, LockUse.after]
  | release l =>
    cases l with
    | action =>
      obtain ⟨-, rfl⟩ := Prod.ext_iff.mp (Option.some.inj h)
      ext l
      cases l <;> simp [Shared.held, use, LockUse.after]
    | start =>
      obtain ⟨-, rfl⟩ := Prod.ext_iff.mp (Option.some.inj h)
      ext l
      cases l <;> simp [Shared.held, use, LockUse.after]
  | _ =>
    obtain ⟨-, rfl⟩ := Prod.ext_iff.mp (Option.some.inj h)
    rfl

end Exec

theorem locked_exec : Locked WorkerOp.exec WorkerOp.use Shared.held where
  waits o e u h := by
    cases o with
    | handler o => exact Op.waits h
    | _ => cases h
  free o e u a v l h ho := by
    cases o with
    | handler o => exact Op.free h ho
    | _ => cases ho
  after o e u a v h := by
    cases o with
    | handler o => exact Op.held_after h
    | _ =>
      obtain ⟨-, rfl⟩ := Prod.ext_iff.mp (Option.some.inj h)
      rfl

/-! ## Routines -/

/-- The operation has to do with a lock. -/
def Op.locks (o : Op) : Bool :=
  match o.use with
  | .pass => false
  | _ => true

theorem Op.use_of_not_locks (o : Op) (h : o.locks = false) : o.use = .pass := by
  unfold locks at h
  split at h
  · assumption
  · cases h

theorem Op.locks_of_not_steers (o : Op) (h : o.steers = false) : o.locks = false := by
  cases o <;> first | rfl | cases h

/-- What a thread of the server runs. -/
inductive Routine
  /-- an event, a polled status, the deadline timer or a reset -/
  | power (k : PowerCall)
  /-- `handle_ups_status_unavailable` -/
  | upsUnavailable
  /-- the `update-state` route -/
  | updateState (status : Option DesktopStatus)
  /-- `fetch_state_from_desktop`, by the poll loop or the state route -/
  | fetch
  /-- the `command` route -/
  | createCommand (command : String) (event : Option String) (expiresAt : Option (Option Int))
  /-- the `ack` route -/
  | ack (id : String) (status : Ctx.AckStatus)
  /-- a worker thread, over a number of passes -/
  | worker (passes : ℕ) (pc : Pc)

variable {d : UPSDeviceConfig}

def Routine.program (d : UPSDeviceConfig) : Routine → Worker Unit
  | .power k => Handler.asWorker (k.program d)
  | .upsUnavailable => Handler.asWorker (Handler.handleUpsStatusUnavailable d)
  | .updateState status => Handler.asWorker (Handler.updateState d status)
  | .fetch => Handler.asWorker do
    let _ ← Handler.fetchStateFromDesktop d
    pure ()
  | .createCommand command event expiresAt =>
    Handler.asWorker (Handler.createCommand command event expiresAt)
  | .ack id status => Handler.asWorker (Handler.ack id status)
  | .worker passes pc => Worker.run d passes pc

namespace Handler

theorem keepsLocks_of_avoids {α : Type} {p : Handler α} (h : p.Avoids Op.locks) :
    KeepsLocks Op.use p :=
  keepsLocks_of_passes h Op.use_of_not_locks

theorem avoids_locks_startBatteryMonitoring : (startBatteryMonitoring d).Avoids Op.locks := by
  refine (avoids_prepareMonitoring.mono Op.locks_of_not_steers).bind fun ⟨orch, phase⟩ => ?_
  refine ⟨rfl, fun _ => ?_⟩
  exact (avoids_finishMonitoring orch phase).mono fun o ho =>
    Op.locks_of_not_steers o (Op.steers_of_not_coordinates ho)

theorem keepsLocks_noteOwnPower (b : Bool) : KeepsLocks Op.use (noteOwnPower b) :=
  keepsLocks_of_avoids ((avoids_noteOwnPower b).mono Op.locks_of_not_steers)

theorem keepsLocks_fetchStateFromDesktop : KeepsLocks Op.use (fetchStateFromDesktop d) :=
  keepsLocks_of_avoids (avoids_fetchStateFromDesktop.mono fun o ho =>
    Op.locks_of_not_steers o (Op.steers_of_not_coordinates ho))

theorem keepsLocks_startMonitoringIfMode (allowed : List Mode) :
    KeepsLocks Op.use (startMonitoringIfMode d allowed) := by
  have hrelease : GivesBack Op.use Lock.start (release .start) :=
    givesBack_release rfl fun _ => keepsLocks_ret ()
  refine keepsLocks_acquire rfl fun _ => follows_pass rfl fun orch => ?_
  simp only [Prog.ret_bind]
  split_ifs
  · exact follows_bind_of_passes avoids_locks_startBatteryMonitoring Op.use_of_not_locks
      fun _ => hrelease
  · exact hrelease

theorem keepsLocks_executePhaseAction (reason : Reason) :
    KeepsLocks Op.use (executePhaseAction d reason) := by
  refine keepsLocks_acquire rfl fun _ => follows_pass rfl fun orch => ?_
  simp only [Prog.ret_bind]
  split_ifs
  · exact givesBack_release rfl fun _ => keepsLocks_ret ()
  · refine follows_pass rfl fun _ => follows_pass rfl fun _ => follows_pass rfl fun _ => ?_
    exact givesBack_release rfl fun _ => follows_pass rfl fun _ => keepsLocks_ret ()

theorem keepsLocks_checkPhaseDeadline : KeepsLocks Op.use (checkPhaseDeadline d) := by
  refine follows_pass rfl fun orch => follows_pass rfl fun now => ?_
  simp only [Prog.ret_bind]
  split_ifs
  · exact keepsLocks_ret ()
  · exact keepsLocks_executePhaseAction _

theorem keepsLocks_cancelPending (reason : String) : KeepsLocks Op.use (cancelPending reason) := by
  refine follows_pass rfl fun cmd => ?_
  cases cmd with
  | none => exact keepsLocks_ret ()
  | some cmd =>
    simp only [Prog.ret_bind]
    split_ifs
    · exact follows_pass rfl fun _ => follows_pass rfl fun _ => keepsLocks_ret ()
    · exact keepsLocks_ret ()

theorem keepsLocks_resetToIdle (reason : String) : KeepsLocks Op.use (resetToIdle reason) := by
  refine follows_pass rfl fun _ => keepsLocks_acquire rfl fun _ => ?_
  refine follows_pass rfl fun _ => follows_pass rfl fun _ => follows_pass rfl fun _ => ?_
  exact givesBack_release rfl fun _ => keepsLocks_cancelPending reason

theorem keepsLocks_followDesktopUps (mode : Mode) (reason : String) :
    KeepsLocks Op.use (followDesktopUps d mode reason) := by
  refine follows_pass rfl fun out => ?_
  simp only [Prog.ret_bind]
  split_ifs
  · exact keepsLocks_startMonitoringIfMode _
  · exact keepsLocks_checkPhaseDeadline
  · exact keepsLocks_ret ()
  · exact keepsLocks_resetToIdle reason
  · exact keepsLocks_ret ()

/-- Low battery starts monitoring without the start lock. -/
theorem keepsLocks_lowBatteryAction (mode : Mode) (reason : Reason) :
    KeepsLocks Op.use (lowBatteryAction d mode reason) := by
  have haction := keepsLocks_executePhaseAction (d := d) reason
  cases mode with
  | idle => exact (keepsLocks_of_avoids avoids_locks_startBatteryMonitoring).bind fun _ => haction
  | desktopHandled =>
    exact (keepsLocks_of_avoids avoids_locks_startBatteryMonitoring).bind fun _ => haction
  | monitoring => exact haction
  | shuttingDown => exact keepsLocks_ret ()

theorem keepsLocks_body (k : PowerKind) : KeepsLocks Op.use (k.body d) := by
  cases k with
  | low reason => exact follows_pass rfl fun orch => keepsLocks_lowBatteryAction _ reason
  | battery checks =>
    refine follows_pass rfl fun orch => ?_
    simp only [Prog.ret_bind]
    split_ifs
    · exact keepsLocks_startMonitoringIfMode _
    · exact keepsLocks_checkPhaseDeadline
    · exact keepsLocks_ret ()
  | mains reason => exact follows_pass rfl fun orch => keepsLocks_followDesktopUps _ reason
  | suspendDue =>
    refine follows_pass rfl fun orch => ?_
    simp only [Prog.ret_bind]
    split_ifs
    · exact keepsLocks_executePhaseAction _
    · exact keepsLocks_ret ()
  | timer => exact keepsLocks_executePhaseAction _
  | reset reason => exact keepsLocks_resetToIdle reason
  | nothing => exact follows_pass rfl fun _ => keepsLocks_ret ()

theorem keepsLocks_power (k : PowerCall) : KeepsLocks Op.use (k.program d) := by
  rw [PowerCall.program_eq]
  refine KeepsLocks.bind ?_ fun _ => keepsLocks_body _
  unfold PowerCall.noteProgram
  cases k.ownReport with
  | none => exact keepsLocks_ret ()
  | some onBattery => exact keepsLocks_noteOwnPower onBattery

theorem keepsLocks_handleUpsStatusUnavailable :
    KeepsLocks Op.use (handleUpsStatusUnavailable d) := by
  refine follows_pass rfl fun orch => ?_
  simp only [Prog.ret_bind]
  split_ifs
  · exact keepsLocks_checkPhaseDeadline
  · refine follows_pass rfl fun out => ?_
    simp only [Prog.ret_bind]
    split_ifs
    · exact keepsLocks_startMonitoringIfMode _
    · exact keepsLocks_ret ()
  · exact keepsLocks_ret ()

theorem keepsLocks_desktopGoingAway : KeepsLocks Op.use desktopGoingAway := by
  refine keepsLocks_acquire rfl fun _ => follows_pass rfl fun cur => ?_
  simp only [Prog.ret_bind]
  split_ifs
  · exact givesBack_release rfl fun _ => keepsLocks_ret ()
  · refine follows_pass rfl fun _ => givesBack_release rfl fun _ => ?_
    exact follows_pass rfl fun _ => follows_pass rfl fun _ => keepsLocks_ret ()

theorem keepsLocks_updateState (status : Option DesktopStatus) :
    KeepsLocks Op.use (updateState d status) := by
  refine follows_pass rfl fun _ => ?_
  simp only [Prog.ret_bind, notifyDesktopStateChange]
  split_ifs
  · exact keepsLocks_ret ()
  refine follows_pass rfl fun orch => ?_
  simp only [Prog.ret_bind, reactToReport]
  split_ifs
  · exact keepsLocks_ret ()
  · exact keepsLocks_desktopGoingAway
  · exact follows_pass rfl fun _ => follows_pass rfl fun _ => keepsLocks_ret ()
  · exact keepsLocks_ret ()

theorem keepsLocks_ack (id : String) (status : Ctx.AckStatus) :
    KeepsLocks Op.use (ack id status) := by
  refine follows_pass rfl fun cmd => ?_
  cases cmd with
  | none => exact keepsLocks_ret ()
  | some cmd =>
    simp only [Prog.ret_bind]
    split_ifs
    · exact follows_pass rfl fun _ => keepsLocks_ret ()
    · exact keepsLocks_ret ()

theorem keepsLocks_createCommand (command : String) (event : Option String)
    (expiresAt : Option (Option Int)) :
    KeepsLocks Op.use (createCommand command event expiresAt) :=
  follows_pass rfl fun _ => follows_pass rfl fun _ => follows_pass rfl fun _ =>
    follows_pass rfl fun _ => keepsLocks_ret ()

theorem keepsLocks_asWorker {α : Type} {p : Handler α} (h : KeepsLocks Op.use p) :
    KeepsLocks WorkerOp.use (asWorker p) :=
  h.embed fun _ => rfl

end Handler

namespace Worker

open Handler

theorem keepsLocks_perform {o : WorkerOp} (ho : o.use = .pass) :
    KeepsLocks WorkerOp.use (Prog.perform o : Worker o.Ans) :=
  follows_pass ho fun a => keepsLocks_ret a

theorem givesBack_action {p : Worker Unit} (hp : KeepsLocks WorkerOp.use p) :
    GivesBack WorkerOp.use Lock.action ((asWorker (release .action)).bind fun _ => p) := by
  have ho : WorkerOp.use (.handler (.release .action)) = .release .action := rfl
  exact givesBack_release ho fun _ => hp

theorem keepsLocks_terminalAction : KeepsLocks WorkerOp.use (terminalAction d) := by
  refine keepsLocks_acquire rfl fun _ => follows_pass rfl fun orch => ?_
  simp only [Prog.embed, Prog.ret_bind]
  split_ifs
  · exact givesBack_release rfl fun _ => keepsLocks_ret ()
  · exact givesBack_action (keepsLocks_perform rfl)
  · refine follows_pass rfl fun onBattery => ?_
    cases onBattery with
    | true => exact givesBack_action (keepsLocks_perform rfl)
    | false =>
      refine follows_pass rfl fun _ => follows_pass rfl fun _ => follows_pass rfl fun _ => ?_
      exact givesBack_release rfl fun _ => keepsLocks_ret ()

theorem keepsLocks_waitIteration (deadline : Int) :
    KeepsLocks WorkerOp.use (waitIteration d deadline) := by
  have hterminal : KeepsLocks WorkerOp.use
      ((terminalAction d).bind fun _ => (.ret none : Worker (Option Pc))) :=
    keepsLocks_terminalAction.bind fun _ => keepsLocks_ret none
  refine follows_pass rfl fun now => ?_
  simp only [Prog.embed, Prog.ret_bind]
  split_ifs
  · refine follows_pass rfl fun orch => ?_
    simp only [Prog.embed, Prog.ret_bind]
    split_ifs
    · exact keepsLocks_ret none
    · refine follows_pass rfl fun state => ?_
      simp only [Prog.embed, Prog.ret_bind]
      split_ifs
      · exact hterminal
      · exact keepsLocks_ret _
  · exact hterminal

theorem keepsLocks_holdIteration (deadline : Int) :
    KeepsLocks WorkerOp.use (holdIteration deadline) := by
  have hoff : KeepsLocks WorkerOp.use
      (powerOffUps.bind fun _ => (.ret none : Worker (Option Pc))) :=
    (keepsLocks_perform rfl).bind fun _ => keepsLocks_ret none
  refine follows_pass rfl fun now => ?_
  simp only [Prog.embed, Prog.ret_bind]
  split_ifs
  · refine follows_pass rfl fun orch => ?_
    simp only [Prog.embed, Prog.ret_bind]
    split_ifs
    · exact keepsLocks_ret none
    · refine follows_pass rfl fun down => ?_
      simp only [Prog.ret_bind]
      split_ifs
      · exact hoff
      · refine follows_pass rfl fun finished => ?_
        simp only [Prog.ret_bind]
        split_ifs
        · exact hoff
        · refine follows_pass rfl fun status => ?_
          simp only [Prog.ret_bind]
          split_ifs
          · exact hoff
          · exact keepsLocks_ret _
  · exact hoff

theorem keepsLocks_pushCriticalShutdown : KeepsLocks WorkerOp.use pushCriticalShutdown :=
  follows_pass rfl fun _ => follows_pass rfl fun _ => follows_pass rfl fun _ =>
    follows_pass rfl fun _ => keepsLocks_ret _

theorem keepsLocks_shutdownAfterWake : KeepsLocks WorkerOp.use shutdownAfterWake := by
  refine follows_pass rfl fun orch => ?_
  simp only [Prog.embed, Prog.ret_bind]
  split_ifs
  · exact keepsLocks_ret none
  · exact keepsLocks_pushCriticalShutdown

theorem keepsLocks_wakeIteration (deadline nextRetry : Int) :
    KeepsLocks WorkerOp.use (wakeIteration deadline nextRetry) := by
  refine follows_pass rfl fun now => ?_
  simp only [Prog.embed, Prog.ret_bind]
  split_ifs
  · refine follows_pass rfl fun orch => ?_
    simp only [Prog.embed, Prog.ret_bind]
    split_ifs
    · exact keepsLocks_ret none
    · exact keepsLocks_ret _
  · exact keepsLocks_shutdownAfterWake

theorem keepsLocks_wakeAfterFetch (deadline nextRetry : Int) :
    KeepsLocks WorkerOp.use (wakeAfterFetch d deadline nextRetry) := by
  refine (keepsLocks_asWorker keepsLocks_fetchStateFromDesktop).bind fun state => ?_
  split_ifs
  · exact keepsLocks_shutdownAfterWake
  · refine follows_pass rfl fun now => ?_
    simp only [Prog.embed, Prog.ret_bind]
    split_ifs
    · exact (keepsLocks_perform rfl).bind fun _ => keepsLocks_ret _
    · exact keepsLocks_ret _
  · exact keepsLocks_ret _

theorem keepsLocks_segment (pc : Pc) : KeepsLocks WorkerOp.use (segment d pc) := by
  cases pc with
  | terminalAction => exact keepsLocks_terminalAction.bind fun _ => keepsLocks_ret none
  | observerPowerOff =>
    refine follows_pass rfl fun none => ?_
    cases none with
    | true => exact (keepsLocks_perform rfl).bind fun _ => keepsLocks_ret _
    | false => exact follows_pass rfl fun now => keepsLocks_holdIteration _
  | observerHolding deadline => exact keepsLocks_holdIteration deadline
  | forceShutdownDesktop => exact keepsLocks_pushCriticalShutdown
  | pushingShutdown => exact follows_pass rfl fun now => keepsLocks_waitIteration _
  | waitingDesktop deadline => exact keepsLocks_waitIteration deadline
  | wakeThenShutdown => exact (keepsLocks_perform rfl).bind fun _ => keepsLocks_ret _
  | sendingWol => exact follows_pass rfl fun _ => follows_pass rfl fun _ => keepsLocks_wakeIteration _ _
  | fetchingState deadline nextRetry => exact keepsLocks_wakeAfterFetch deadline nextRetry
  | resendingWol deadline => exact follows_pass rfl fun _ => keepsLocks_ret _
  | wakeSleeping deadline nextRetry => exact keepsLocks_wakeIteration deadline nextRetry

theorem keepsLocks_run (n : ℕ) (pc : Pc) : KeepsLocks WorkerOp.use (run d n pc) := by
  induction n generalizing pc with
  | zero => exact keepsLocks_ret ()
  | succ n ih =>
    refine (keepsLocks_segment pc).bind fun pc => ?_
    cases pc with
    | none => exact keepsLocks_ret ()
    | some pc => exact ih pc

end Worker

/-- **Every routine keeps to the protocol**: it takes one lock at a time, and gives it back on every
path. -/
theorem Routine.keepsLocks_program (r : Routine) : KeepsLocks WorkerOp.use (r.program d) := by
  cases r with
  | power k => exact Handler.keepsLocks_asWorker (Handler.keepsLocks_power k)
  | upsUnavailable =>
    exact Handler.keepsLocks_asWorker Handler.keepsLocks_handleUpsStatusUnavailable
  | updateState status => exact Handler.keepsLocks_asWorker (Handler.keepsLocks_updateState status)
  | fetch =>
    exact Handler.keepsLocks_asWorker
      (Handler.keepsLocks_fetchStateFromDesktop.bind fun _ => keepsLocks_ret ())
  | createCommand command event expiresAt =>
    exact Handler.keepsLocks_asWorker (Handler.keepsLocks_createCommand command event expiresAt)
  | ack id status => exact Handler.keepsLocks_asWorker (Handler.keepsLocks_ack id status)
  | worker passes pc => exact Worker.keepsLocks_run passes pc

/-! ## Any number of threads -/

section Threads

variable {ι : Type} [DecidableEq ι] {c : Ctx} {routines : ι → Routine}

/-- **The threads of a context**, interleaved; both locks are free in the beginning. -/
def contextPool (d : UPSDeviceConfig) (c : Ctx) (routines : ι → Routine) :
    System (Pool WorkerOp WorkerOp.Ans Shared ι) (ι × (Env × Peers)) :=
  pool WorkerOp.exec ⟨⟨c, false, false⟩, fun i => (routines i).program d⟩

/-- All threads have returned. -/
def AllReturned (w : Pool WorkerOp WorkerOp.Ans Shared ι) : Prop := ∀ i, w.threads i = .ret ()

/-- **The locks of a context**, at every point of an execution. -/
structure LocksSound (x : Execution (contextPool d c routines)) : Prop where
  /-- a lock is taken when nobody has it, and given back by the thread that has it -/
  exclusive : ∀ tr₁ t tr₂, x.steps = tr₁ ++ t :: tr₂ →
    (∀ l, lockUse WorkerOp.use t = some (.acquire l) → owner WorkerOp.use tr₁ l = none) ∧
      ∀ l, lockUse WorkerOp.use t = some (.release l) →
        owner WorkerOp.use tr₁ l = some t.act.1
  /-- some thread can go on, whatever it is answered, until all have returned -/
  goesOn : AllReturned x.last ∨
    ∃ i, ∀ e, ∃ w, (contextPool d c routines).step x.last (i, e) = some w
  /-- then both locks are free -/
  atRest : AllReturned x.last → x.last.shared.action = false ∧ x.last.shared.start = false
  /-- finitely many threads take finitely many steps, whatever their order -/
  ends : Finite ι → WellFounded fun w' w => ∃ a, (contextPool d c routines).step w a = some w'
  /-- and can all return -/
  returns : Finite ι → ∃ tr w, Run (contextPool d c routines) x.last tr w ∧ AllReturned w

theorem lockSafe_last (x : Execution (contextPool d c routines)) :
    LockSafe WorkerOp.use Shared.held x.last := by
  obtain ⟨start, steps, last, rfl, run⟩ := x
  refine LockSafe.run locked_exec run (lockSafe_of_keepsLocks (fun i => ?_) ?_)
  · exact (routines i).keepsLocks_program
  · ext l
    cases l <;> simp [Shared.held]

/-- **The locks are sound**: mutual exclusion, no deadlock, and no call that does not return, for any
number of routines of one context at once. -/
theorem locksSound (x : Execution (contextPool d c routines)) : LocksSound x := by
  have hlast := lockSafe_last x
  refine ⟨fun tr₁ t tr₂ hx => ?_, ?_, fun hret => ?_, fun hfin => ?_, fun hfin => ?_⟩
  · have hrun := x.run
    have hstart : x.start = ⟨⟨c, false, false⟩, fun i => (routines i).program d⟩ := x.init
    rw [hx] at hrun
    refine exclusive locked_exec (fun i => ?_) ?_ hrun
    · rw [hstart]
      exact (routines i).keepsLocks_program
    · rw [hstart]
      ext l
      cases l <;> simp [Shared.held]
  · by_cases hrun : ∃ i o, (x.last.threads i).head = some o
    · obtain ⟨i, o, hi⟩ := hrun
      exact .inr (hlast.exists_step locked_exec hi)
    · refine .inl fun i => ?_
      cases hp : x.last.threads i with
      | ret a => rfl
      | op o k => exact absurd ⟨i, o, by rw [hp]; rfl⟩ hrun
  · have hnone := hlast.held_eq_empty hret
    have hfree : ∀ l, l ∉ x.last.shared.held := fun l => by rw [hnone]; exact Set.notMem_empty l
    exact ⟨Bool.eq_false_iff.mpr (hfree .action), Bool.eq_false_iff.mpr (hfree .start)⟩
  · have := Fintype.ofFinite ι
    exact step_wellFounded
  · have := Fintype.ofFinite ι
    have : Nonempty (Env × Peers) := ⟨.at 0, ⟨false, []⟩⟩
    obtain ⟨tr, w, hr, hret, -⟩ := hlast.completes locked_exec
    exact ⟨tr, w, hr, hret⟩

end Threads

end UpsOrchestrator

import UpsOrchestrator.Lib.Traces

/-!
# The power agent

`power_agent.py`: the desktop agent that holds a delay lock of logind, so that it can report a sleep
or a shutdown before it happens. Its handlers run one at a time.

* `PowerOp`: what the handlers ask of the system; `sendState`, `takeDelayLock`, `releaseDelayLock`
  and the handlers, with the agent's state passed along.
* `powerSystem`: any sequence of events, each with the trace of its handler.
* `lockDiscipline`: a descriptor is taken only when none is open, and only the open one is closed;
  `follows_handle`.
* `LockDiscipline`: at most one descriptor is open at any time and none is closed twice or lost;
  **`lockDiscipline_holds`**.
-/

set_option autoImplicit false

namespace UpsOrchestrator

open Lts

/-! ## Operations -/

inductive PowerOp
  /-- logind's `Inhibit` -/
  | inhibit
  /-- `os.close` -/
  | closeFd (fd : ℕ)
  /-- a POST of the state to the server -/
  | post (status : String) (timeoutSec : ℤ)
  | sleep (seconds : ℤ)
  /-- `loop.quit` -/
  | quit
  deriving DecidableEq

/-- The answers: a descriptor, or what did not raise. -/
abbrev PowerOp.Ans : PowerOp → Type
  | inhibit => Option ℕ
  | closeFd _ => Bool
  | post _ _ => Bool
  | _ => Unit

abbrev PowerProg (α : Type) : Type := Prog PowerOp PowerOp.Ans α

/-- One operation. -/
abbrev PowerOp.perform (o : PowerOp) : PowerProg o.Ans := Prog.perform o

structure PowerConfig where
  requestTimeoutFast : ℤ := 2
  requestTimeoutNormal : ℤ := 5
  networkWaitTimeout : ℤ := 5

/-- The state of the agent. -/
structure PowerAgent where
  inhibitFd : Option ℕ := none
  deriving DecidableEq

/-! ## The functions -/

namespace PowerAgent

/-- `_send_state` with that many attempts left. -/
def sendState (state : String) (timeoutSec : ℤ) : ℕ → PowerProg Bool
  | 0 => pure false
  | retries + 1 => do
    if ← (PowerOp.post state timeoutSec).perform then pure true
    else do
      if 0 < retries then (PowerOp.sleep 1).perform
      sendState state timeoutSec retries

variable (cfg : PowerConfig) (a : PowerAgent)

/-- `release_delay_lock` -/
def releaseDelayLock : PowerProg PowerAgent :=
  match a.inhibitFd with
  | none => pure a
  | some fd => do
    -- the field is reset also if the call raises
    let _ ← (PowerOp.closeFd fd).perform
    pure { a with inhibitFd := none }

/-- `take_delay_lock` -/
def takeDelayLock : PowerProg PowerAgent := do
  let a ← (if a.inhibitFd.isSome then a.releaseDelayLock else pure a)
  match ← PowerOp.inhibit.perform with
  | none => pure a
  | some fd => pure { a with inhibitFd := some fd }

/-- `on_prepare_for_sleep`; `time.sleep` raises on a negative time. -/
def onPrepareForSleep (sleeping : Bool) : PowerProg PowerAgent :=
  if sleeping then do
    let _ ← sendState "suspended" cfg.requestTimeoutFast 3
    a.releaseDelayLock
  else if cfg.networkWaitTimeout < 0 then pure a
  else do
    (PowerOp.sleep cfg.networkWaitTimeout).perform
    let a ← a.takeDelayLock
    let _ ← sendState "online" cfg.requestTimeoutNormal 5
    pure a

/-- `on_prepare_for_shutdown` -/
def onPrepareForShutdown (shuttingDown : Bool) : PowerProg PowerAgent :=
  if shuttingDown then do
    let _ ← sendState "shutting_down" cfg.requestTimeoutFast 1
    a.releaseDelayLock
  else a.takeDelayLock

/-- `handle_signal` -/
def handleSignal : PowerProg PowerAgent := do
  let _ ← sendState "offline" cfg.requestTimeoutFast 1
  let a ← a.releaseDelayLock
  PowerOp.quit.perform
  pure a

/-- `run` up to the main loop. -/
def startUp : PowerProg PowerAgent := do
  let a ← a.takeDelayLock
  let _ ← sendState "online" cfg.requestTimeoutNormal 3
  pure a

end PowerAgent

/-! ## Events -/

inductive PowerEvent
  | startUp
  | prepareForSleep (sleeping : Bool)
  | prepareForShutdown (shuttingDown : Bool)
  | signal
  /-- the `finally` of `run` -/
  | loopExit
  deriving DecidableEq

/-- What handles the event. -/
def PowerEvent.handle (cfg : PowerConfig) (a : PowerAgent) : PowerEvent → PowerProg PowerAgent
  | startUp => a.startUp cfg
  | prepareForSleep sleeping => a.onPrepareForSleep cfg sleeping
  | prepareForShutdown shuttingDown => a.onPrepareForShutdown cfg shuttingDown
  | signal => a.handleSignal cfg
  | loopExit => a.releaseDelayLock

/-- What happens while a handler runs. -/
abbrev PowerTrace : Type := List (Event PowerOp PowerOp.Ans)

/-- **Any sequence of events**, with the trace of each handler. -/
def powerSystem (cfg : PowerConfig) : System PowerAgent (PowerEvent × PowerTrace) where
  init a := a = {}
  step a act := (act.1.handle cfg a).replay act.2

abbrev PowerStep : Type := Transition PowerAgent (PowerEvent × PowerTrace)

/-- All that has happened in the steps. -/
def performed (tr : List PowerStep) : PowerTrace := tr.flatMap fun t => t.act.2

/-! ## The property -/

/-- One more operation: a descriptor is obtained, or closed. `close` gives a descriptor back to the
system also when it reports an error. -/
def nextFds (fds : List ℕ) : Event PowerOp PowerOp.Ans → List ℕ
  | ⟨.inhibit, some fd⟩ => fd :: fds
  | ⟨.closeFd fd, _⟩ => fds.erase fd
  | _ => fds

/-- The descriptors that have been obtained and not been closed. -/
def openFds (tr : PowerTrace) : List ℕ := tr.foldl nextFds []

/-- What the agent reports before it lets the machine go to sleep or shut down. -/
def PowerEvent.announces : PowerEvent → Option String
  | prepareForSleep true => some "suspended"
  | prepareForShutdown true => some "shutting_down"
  | _ => none

/-- The events after which the lock is free. -/
def PowerEvent.releases : PowerEvent → Bool
  | prepareForSleep sleeping => sleeping
  | prepareForShutdown shuttingDown => shuttingDown
  | signal => true
  | loopExit => true
  | startUp => false

variable {cfg : PowerConfig}

/-- **The discipline of the delay lock.** -/
structure LockDiscipline (x : Execution (powerSystem cfg)) : Prop where
  /-- at any time, also within a handler -/
  one : ∀ tr, tr <+: performed x.steps → (openFds tr).length ≤ 1
  /-- only a descriptor that is open is closed -/
  once : ∀ tr fd ok, tr ++ [⟨.closeFd fd, ok⟩] <+: performed x.steps → fd ∈ openFds tr
  kept : openFds (performed x.steps) = x.last.inhibitFd.toList
  announced : ∀ t ∈ x.steps, ∀ status, t.act.1.announces = some status →
    ∀ tr fd ok tr', t.act.2 = tr ++ ⟨.closeFd fd, ok⟩ :: tr' →
      ∃ timeoutSec sent, ⟨.post status timeoutSec, sent⟩ ∈ tr
  released : ∀ t ∈ x.steps, t.act.1.releases = true → t.post.inhibitFd = none

/-! ## The discipline -/

/-- The stage is the open descriptor. -/
def lockDiscipline : Discipline PowerOp PowerOp.Ans (Option ℕ) where
  allowed
    | q, .inhibit => q = none
    | q, .closeFd fd => q = some fd
    | _, _ => True
  possible _ _ _ := True
  next
    | _, .inhibit, fd => fd
    | _, .closeFd _, _ => none
    | q, _, _ => q

/-- The operation takes or releases a lock. -/
def PowerOp.locks : PowerOp → Bool
  | inhibit => true
  | closeFd _ => true
  | _ => false

theorem follows_of_avoids {α : Type} {p : PowerProg α} {q : Option ℕ}
    (hp : p.Avoids PowerOp.locks) : Follows lockDiscipline q p fun q' _ => q' = q := by
  refine .of_avoids hp (fun o ho => ?_) fun _ => rfl
  cases o with
  | inhibit => cases ho
  | closeFd fd => cases ho
  | _ => exact ⟨trivial, fun _ => rfl⟩

namespace PowerAgent

variable {a : PowerAgent}

theorem avoids_sendState {state : String} {timeoutSec : ℤ} {retries : ℕ} :
    (sendState state timeoutSec retries).Avoids PowerOp.locks := by
  induction retries with
  | zero => trivial
  | succ retries ih =>
    refine ⟨rfl, fun sent => ?_⟩
    cases sent with
    | true => trivial
    | false =>
      show Prog.Avoids _ (if 0 < retries then _ else _)
      split_ifs
      · exact ⟨rfl, fun _ => ih⟩
      · exact ih

theorem follows_releaseDelayLock : Follows lockDiscipline a.inhibitFd a.releaseDelayLock
    fun q a' => q = a'.inhibitFd ∧ a'.inhibitFd = none := by
  unfold releaseDelayLock
  cases h : a.inhibitFd with
  | none => exact ⟨h.symm, h⟩
  | some fd => exact ⟨rfl, fun _ _ => ⟨rfl, rfl⟩⟩

theorem follows_takeDelayLock : Follows lockDiscipline a.inhibitFd a.takeDelayLock
    fun q a' => q = a'.inhibitFd := by
  have hfree : Follows lockDiscipline a.inhibitFd
      (if a.inhibitFd.isSome then a.releaseDelayLock else pure a)
      fun q a' => q = a'.inhibitFd ∧ a'.inhibitFd = none := by
    split_ifs with h
    · exact follows_releaseDelayLock
    · exact ⟨rfl, by simpa using h⟩
  refine .bind (hfree.mono fun q a' hq => ?_)
  obtain ⟨rfl, hnone⟩ := hq
  refine ⟨hnone, fun fd _ => ?_⟩
  cases fd with
  | none => exact hnone.symm
  | some fd => rfl

end PowerAgent

theorem follows_report {p : Bool → PowerProg PowerAgent} {state : String} {timeoutSec : ℤ}
    {retries : ℕ} {q : Option ℕ} {Q : Option ℕ → PowerAgent → Prop}
    (h : ∀ sent, Follows lockDiscipline q (p sent) Q) :
    Follows lockDiscipline q ((PowerAgent.sendState state timeoutSec retries).bind p) Q := by
  refine .bind ((follows_of_avoids PowerAgent.avoids_sendState).mono fun q' sent hq => ?_)
  rw [hq]
  exact h sent

theorem follows_takeAndReport {a : PowerAgent} {state : String} {timeoutSec : ℤ} {retries : ℕ} :
    Follows lockDiscipline a.inhibitFd (a.takeDelayLock.bind fun a' =>
      (PowerAgent.sendState state timeoutSec retries).bind fun _ => .ret a')
      fun q a' => q = a'.inhibitFd := by
  refine .bind (PowerAgent.follows_takeDelayLock.mono fun q a' hq => ?_)
  exact follows_report fun _ => hq

/-- **Every handler keeps to the discipline**, and the agent knows the open descriptor. -/
theorem follows_handle (ev : PowerEvent) (a : PowerAgent) :
    Follows lockDiscipline a.inhibitFd (ev.handle cfg a)
      fun q a' => q = a'.inhibitFd ∧ (ev.releases = true → a'.inhibitFd = none) := by
  have hkeep : ∀ {p : PowerProg PowerAgent}, ev.releases = false →
      Follows lockDiscipline a.inhibitFd p (fun q a' => q = a'.inhibitFd) →
      Follows lockDiscipline a.inhibitFd p
        fun q a' => q = a'.inhibitFd ∧ (ev.releases = true → a'.inhibitFd = none) := by
    intro p hev h
    refine h.mono fun q a' hq => ⟨hq, fun hr => ?_⟩
    rw [hev] at hr
    cases hr
  have hfree := PowerAgent.follows_releaseDelayLock (a := a)
  cases ev with
  | startUp => exact hkeep rfl follows_takeAndReport
  | prepareForSleep sleeping =>
    cases sleeping with
    | true => exact follows_report fun _ => hfree.mono fun q a' hq => ⟨hq.1, fun _ => hq.2⟩
    | false =>
      refine hkeep rfl ?_
      show Follows _ _ (if cfg.networkWaitTimeout < 0 then pure a else _) _
      split_ifs
      · rfl
      · exact ⟨trivial, fun _ _ => follows_takeAndReport⟩
  | prepareForShutdown shuttingDown =>
    cases shuttingDown with
    | true => exact follows_report fun _ => hfree.mono fun q a' hq => ⟨hq.1, fun _ => hq.2⟩
    | false => exact hkeep rfl PowerAgent.follows_takeDelayLock
  | signal =>
    refine follows_report fun _ => .bind (hfree.mono fun q a' hq => ?_)
    exact ⟨trivial, fun _ _ => ⟨hq.1, fun _ => hq.2⟩⟩
  | loopExit => exact hfree.mono fun q a' hq => ⟨hq.1, fun _ => hq.2⟩

/-! ## Runs -/

theorem runs_step {t : PowerStep} (ht : (powerSystem cfg).Takes t) :
    (t.act.1.handle cfg t.pre).Runs t.act.2 t.post :=
  Prog.replay_eq_some.mp ht

theorem performed_snoc {tr : List PowerStep} {t : PowerStep} :
    performed (tr ++ [t]) = performed tr ++ t.act.2 := by
  simp [performed]

/-- **All that has happened keeps to the discipline.** -/
theorem admits_performed {u w : PowerAgent} {tr : List PowerStep}
    (h : Run (powerSystem cfg) u tr w) (hu : u.inhibitFd = none) :
    lockDiscipline.Admits none (performed tr) ∧
      lockDiscipline.after none (performed tr) = w.inhibitFd := by
  induction h with
  | nil => exact ⟨trivial, hu.symm⟩
  | @snoc v w tr act hr ha ih =>
    obtain ⟨hadmits, hafter⟩ := ih
    have hstep := Follows.runs (fun _ _ _ => trivial) (follows_handle act.1 v)
      (runs_step (t := ⟨v, act, w⟩) ha)
    rw [performed_snoc, Discipline.admits_append, Discipline.after_append, hafter]
    exact ⟨⟨hadmits, hstep.1⟩, hstep.2.1⟩

theorem openFds_eq {tr : PowerTrace} (h : lockDiscipline.Admits none tr) :
    openFds tr = (lockDiscipline.after none tr).toList := by
  induction tr using List.reverseRecOn with
  | nil => rfl
  | append_singleton tr e ih =>
    obtain ⟨htr, he, -⟩ := Discipline.admits_append.mp h
    have hfds : openFds (tr ++ [e]) = nextFds (openFds tr) e := List.foldl_concat ..
    rw [hfds, ih htr, Discipline.after_append]
    generalize lockDiscipline.after none tr = q at he
    obtain ⟨o, x⟩ := e
    cases o with
    | inhibit =>
      obtain rfl : q = none := he
      cases x <;> rfl
    | closeFd fd =>
      obtain rfl : q = some fd := he
      simp [nextFds, Discipline.after, lockDiscipline]
    | _ => rfl

theorem head_handle {ev : PowerEvent} {a : PowerAgent} {status : String}
    (h : ev.announces = some status) :
    (ev.handle cfg a).head = some (.post status cfg.requestTimeoutFast) := by
  cases ev with
  | prepareForSleep sleeping =>
    cases sleeping with
    | true =>
      cases h
      rfl
    | false => cases h
  | prepareForShutdown shuttingDown =>
    cases shuttingDown with
    | true =>
      cases h
      rfl
    | false => cases h
  | _ => cases h

/-- **The delay lock is never lost, taken twice or closed twice**, whatever fails. -/
theorem lockDiscipline_holds (x : Execution (powerSystem cfg)) : LockDiscipline x := by
  have hinit : x.start.inhibitFd = none := by
    rw [show x.start = {} from x.init]
  obtain ⟨hadmits, hafter⟩ := admits_performed x.run hinit
  have hsofar : ∀ tr, tr <+: performed x.steps → lockDiscipline.Admits none tr := by
    rintro tr ⟨tr', htr⟩
    rw [← htr] at hadmits
    exact (Discipline.admits_append.mp hadmits).1
  refine ⟨fun tr htr => ?_, fun tr fd ok htr => ?_, ?_, fun t ht status hs tr fd ok tr' htr => ?_,
    fun t ht hr => ?_⟩
  · rw [openFds_eq (hsofar tr htr)]
    cases lockDiscipline.after none tr <;> simp
  · obtain ⟨htr', hclose, -⟩ := Discipline.admits_append.mp (hsofar _ htr)
    rw [openFds_eq htr', show lockDiscipline.after none tr = some fd from hclose]
    simp
  · rw [openFds_eq hadmits, hafter]
  · obtain ⟨sent, rest, hpost⟩ := (runs_step (x.takes ht)).of_head (head_handle hs)
    rw [htr] at hpost
    cases tr with
    | nil => cases hpost
    | cons e tr =>
      obtain ⟨rfl, -⟩ := List.cons.inj hpost
      exact ⟨_, sent, List.mem_cons_self⟩
  · exact (Follows.runs (fun _ _ _ => trivial) (follows_handle t.act.1 t.pre)
      (runs_step (x.takes ht))).2.2 hr

-- two wake-ups in a row; the first report of each handler fails
example : ((exec (powerSystem {}) {}
    [(.startUp, [⟨.inhibit, some 7⟩, ⟨.post "online" 5, false⟩, ⟨.sleep 1, ()⟩, ⟨.post "online" 5, true⟩]),
      (.prepareForSleep false, [⟨.sleep 5, ()⟩, ⟨.closeFd 7, false⟩, ⟨.inhibit, some 7⟩,
        ⟨.post "online" 5, true⟩]),
      (.prepareForShutdown true, [⟨.post "shutting_down" 2, false⟩, ⟨.closeFd 7, true⟩]),
      (.loopExit, [])]).map fun r => r.2) = some { inhibitFd := none } := by
  decide

end UpsOrchestrator

import UpsOrchestrator.Confirmation
import UpsOrchestrator.Episodes

/-!
# The shutdown window of the desktop

The two workers that push `critical_shutdown` then wait for the desktop to go down, at most
`desktop_shutdown_wait` seconds, and call `_terminal_action`.

* `ThreadStep`: where a thread after a step comes from; **`threadStep`**.
* `OutageOf`: the steps since the monitoring began of the outage that launched a worker.
* `Window`: the statement, for one context; **`window`**: it holds in every execution.
-/

set_option autoImplicit false

namespace UpsOrchestrator

open Lts

/-- A worker that tends the desktop: it pushes `critical_shutdown`, or waits for what comes of it. -/
def Pc.tendsDesktop (pc : Pc) : Bool :=
  pc.unpushed || match pc with
    | .pushingShutdown => true
    | .waitingDesktop _ => true
    | _ => false

/-- A worker in `_action_wake_then_shutdown`, before its push. -/
def Pc.wakes (pc : Pc) : Bool := pc.unpushed && pc ≠ .forceShutdownDesktop

/-- Where a thread starts. -/
def Pc.isLaunch : Pc → Bool
  | .terminalAction => true
  | .observerPowerOff => true
  | .forceShutdownDesktop => true
  | .wakeThenShutdown => true
  | _ => false

namespace Ctx

variable {d : UPSDeviceConfig} {p : Peers} {e : Env} {b c c' : Ctx} {k : Call} {pc : Pc}

/-! ## What a thread starts from -/

/-- Monitoring in a phase at whose end a worker tends the desktop. -/
def Tending (c : Ctx) : Prop := c.mode = .monitoring ∧ c.orch.phase.getD .offlineWait ≠ .offlineWait

/-- **A phase that tends the desktop starts from a desktop that is not down**, whatever was cached. -/
theorem fetched_not_down (h : startPhase d e c ≠ .offlineWait) :
    (c.fetchAtStart d e).reportsDesktopDown = false := by
  have hobs : ¬d.isObserver = true := fun ho => h (if_pos ho)
  have hphase : phaseAtStart d (statusAtStart d e c) ≠ .offlineWait := by
    rw [startPhase, if_neg hobs] at h
    exact h
  have hdesk : ¬d.desktop.isNone = true := fun hd => hphase (if_pos (.inl hd))
  have hstatus : statusAtStart d e c = some .online ∨ statusAtStart d e c = some .suspended := by
    by_contra hn
    exact hphase (if_pos (.inr (not_or.mp hn)))
  rw [reportsDesktopDown, fetchAtStart, if_neg hobs, fetchStateFromDesktop_fst, fetchedState,
    if_neg hdesk]
  simp only [statusAtStart, if_neg hdesk] at hstatus
  cases ha : e.agent with
  | none =>
    -- unreachable: a down status on file would have been taken for the live one
    rw [ha] at hstatus
    by_cases hdown : c.desktopState.isDown = true
    · simp only [if_pos hdown] at hstatus
      simp only [DesktopState.isDown, decide_eq_true_eq] at hdown
      rcases hstatus with hs | hs <;> rw [hs] at hdown <;> simp at hdown
    · simpa using hdown
  | some live =>
    rw [ha] at hstatus
    cases hl : live.status with
    | none => simp [DesktopState.isDown, DesktopState.getStatus, hl]
    | some status =>
      simp only [hl, Option.getD_some] at hstatus
      rcases hstatus with rfl | rfl <;> simp [DesktopState.isDown, DesktopState.getStatus, hl]

/-- **The thread that a call launches**, and where the call found the context. -/
structure Launched (d : UPSDeviceConfig) (c c' : Ctx) (th : Thread) : Prop where
  id : th.id = c.spawned
  spawned : c'.spawned = th.id + 1
  pc : th.pc.isLaunch = true
  mode : c'.mode = .shuttingDown
  tends : th.pc.tendsDesktop = true →
    (c.Tending ∧ c'.desktopState = c.desktopState) ∨
      ((c.mode = .idle ∨ c.mode = .desktopHandled) ∧ c'.reportsDesktopDown = false)

theorem isLaunch_phaseWorker (phase : Phase) (r : Reason) :
    (phaseWorker d phase r).isLaunch = true := by
  unfold phaseWorker
  split_ifs
  · rfl
  · rfl
  · cases phase <;> rfl

theorem ne_offlineWait_of_tendsDesktop {phase : Phase} {r : Reason}
    (h : (phaseWorker d phase r).tendsDesktop = true) : phase ≠ .offlineWait := by
  rintro rfl
  unfold phaseWorker at h
  split_ifs at h <;> exact absurd h (by decide)

theorem launched_executePhaseAction (r : Reason) (hm : b.mode = .monitoring) {th : Thread}
    (hth : th ∈ (b.executePhaseAction d e r).threads) (hnew : th ∉ b.threads) :
    Launched d b (b.executePhaseAction d e r) th := by
  rw [executePhaseAction_eq r hm] at hth ⊢
  obtain rfl := List.mem_singleton.mp ((List.mem_append.mp hth).resolve_left hnew)
  exact ⟨rfl, rfl, isLaunch_phaseWorker _ r, rfl,
    fun ht => .inl ⟨⟨hm, ne_offlineWait_of_tendsDesktop ht⟩, rfl⟩⟩

theorem launched_startStrike (r : Reason) (hm : b.mode = .idle ∨ b.mode = .desktopHandled)
    {th : Thread} (hth : th ∈ ((b.startBatteryMonitoring d e).executePhaseAction d e r).threads)
    (hnew : th ∉ b.threads) :
    Launched d b ((b.startBatteryMonitoring d e).executePhaseAction d e r) th := by
  obtain ⟨hmon, hthreads, hspawned, -⟩ := startBatteryMonitoring_frame (c := b) (d := d) (e := e)
  obtain ⟨horch, -, -, hstate⟩ := startBatteryMonitoring_record (b := b) (d := d) (e := e)
  have hl := launched_executePhaseAction r hmon hth (by rw [hthreads]; exact hnew)
  refine ⟨hl.id.trans hspawned, hl.spawned, hl.pc, hl.mode, fun ht => .inr ⟨hm, ?_⟩⟩
  have hphase : startPhase d e b ≠ .offlineWait := by
    rcases hl.tends ht with ⟨⟨-, h⟩, -⟩ | ⟨h, -⟩
    · rw [horch] at h
      exact h
    · rcases h with h | h <;> exact absurd (hmon.symm.trans h) (by decide)
  rw [executePhaseAction_eq r hmon]
  show (b.startBatteryMonitoring d e).desktopState.isDown = false
  rw [hstate]
  exact fetched_not_down hphase

/-- **What a handler launches.** -/
theorem launched_handler (hk : ∀ id, k ≠ .worker id) (h : k.exec d p e c = some c') {th : Thread}
    (hth : th ∈ c'.threads) (hnew : th ∉ c.threads) : Launched d c c' th := by
  obtain ⟨log, hb⟩ := noteReport_eq (c := c) (e := e) (k := k)
  have hperf := performs_handler hk h
  -- noting the own power touches neither threads nor record
  suffices hl : Launched d (c.noteReport e k) c' th by
    rw [hb] at hl
    exact ⟨hl.id, hl.spawned, hl.pc, hl.mode, hl.tends⟩
  have hnew' : th ∉ (c.noteReport e k).threads := by rwa [hb]
  generalize c.noteReport e k = b at *
  cases hperf with
  | strike r mode => exact launched_executePhaseAction r mode hth hnew'
  | expire t =>
    by_cases hm : b.mode = .monitoring
    · have hl := launched_executePhaseAction
        (b := { b with deadlineTimer := some { t with fired := true } }) .phaseDeadline hm hth hnew'
      exact ⟨hl.id, hl.spawned, hl.pc, hl.mode, hl.tends⟩
    · rw [executePhaseAction_of_ne _ (by exact hm)] at hth
      exact absurd hth hnew'
  | startStrike r mode => exact launched_startStrike r mode hth hnew'
  | confirm =>
    obtain rfl := List.mem_singleton.mp ((List.mem_append.mp hth).resolve_left hnew')
    exact ⟨rfl, rfl, rfl, rfl, fun ht => by simp [Pc.tendsDesktop, Pc.unpushed] at ht⟩
  | start =>
    rw [startBatteryMonitoring_frame.2.1] at hth
    exact absurd hth hnew'
  | fetch =>
    rw [fetchStateFromDesktop_fst] at hth
    exact absurd hth hnew'
  | reset reason =>
    obtain ⟨_, _, _, -, he⟩ := resetToIdle_eq (c := b) (e := e) reason
    rw [he] at hth
    exact absurd hth hnew'
  | ack id status =>
    rcases ack_cases (c := b) id status with ⟨_, -, -, he⟩ | ⟨-, he⟩
    · rw [he] at hth
      exact absurd hth hnew'
    · rw [he] at hth
      exact absurd hth hnew'
  | _ => exact absurd hth hnew'

end Ctx

variable {s : Site} {t : Step s} {tr after : List (Step s)} {i : s.Ix} {w : World s} {id : ℕ}

/-- **Where a thread after a step comes from.** -/
inductive ThreadStep (t : Step s) (i : s.Ix) (th : Thread) : Prop
  | stays (mem : th ∈ (t.pre.ctx i).threads) (act : t.act.workerOf i ≠ some th.id)
  | moves (e : Env) (pc : Pc) (c : Ctx) (step : WorkerStep t i e ⟨th.id, pc⟩ c (some th.pc))
  | launched (e : Env) (k : Call) (act : t.act = .call i e k)
      (launch : Ctx.Launched (s.dev i) (t.pre.ctx i) (t.post.ctx i) th)

theorem threadStep (ht : (system s).Takes t) {th : Thread} (hth : th ∈ (t.post.ctx i).threads) :
    ThreadStep t i th := by
  cases ctxStep ht i with
  | handler e k act hk exec =>
    by_cases hmem : th ∈ (t.pre.ctx i).threads
    · refine .stays hmem ?_
      rw [workerOf_handler act hk]
      simp
    · have hl := Ctx.launched_handler (c := (t.pre.ctx i).quiet) hk exec hth hmem
      exact .launched e k act ⟨hl.id, hl.spawned, hl.pc, hl.mode, hl.tends⟩
  | worker e th₀ c pc step =>
    have hth' := hth
    rw [step.post] at hth'
    rcases Ctx.mem_resume hth' with ⟨hmem, hne⟩ | ⟨pc', rfl, rfl⟩
    · rw [step.threads] at hmem
      refine .stays hmem ?_
      rw [step.workerOf]
      exact fun h => hne (Option.some.inj h).symm
    · exact .moves e th₀.pc c step
  | other j e k act hj post =>
    rw [post] at hth
    refine .stays hth ?_
    rw [workerOf_other act hj]
    simp
  | restart e act post =>
    rw [post, (Ctx.reset_frame e).2.1] at hth
    exact absurd hth List.not_mem_nil

/-! ## The outage of a worker -/

/-- The step receives a status, by `update-state` or by a fetch, that says that the desktop is going
away. -/
def ReceivesDown (i : s.Ix) (t : Step s) : Prop :=
  ((t.act.reportOf i).isSome ∨ SavesAnswer i t) ∧ (t.post.ctx i).reportsDesktopDown = true

/-- Such a status has been received in the steps `after`, and stands. -/
def DownReceived (i : s.Ix) (after : List (Step s)) : Prop :=
  Since (ReceivesDown i) (fun t => (t.post.ctx i).reportsDesktopDown = true) after

/-- The step begins the monitoring of an outage. -/
def BeginsMonitoring (i : s.Ix) (t : Step s) : Prop :=
  ((t.pre.ctx i).mode = .idle ∨ (t.pre.ctx i).mode = .desktopHandled) ∧
    ((t.post.ctx i).mode = .monitoring ∨ (t.post.ctx i).mode = .shuttingDown)

/-- The step launches the worker `id`. -/
def Launches (i : s.Ix) (id : ℕ) (t : Step s) : Prop :=
  (t.pre.ctx i).spawned = id ∧ (t.post.ctx i).spawned = id + 1

/-- **The outage that launched the worker `id`**: its monitoring began with the step `b`, and went on
until the launch, in that step or one of those `after` it. -/
structure OutageOf (i : s.Ix) (id : ℕ) (b : Step s) (after : List (Step s)) : Prop where
  begins : BeginsMonitoring i b
  launch : ∃ mon l later, b :: after = mon ++ l :: later ∧
    (∀ t ∈ mon, (t.post.ctx i).mode = .monitoring) ∧ Launches i id l

theorem OutageOf.snoc {b : Step s} (h : OutageOf i id b after) (t : Step s) :
    OutageOf i id b (after ++ [t]) := by
  obtain ⟨mon, l, later, he, hmon, hl⟩ := h.launch
  refine ⟨h.begins, mon, l, later ++ [t], ?_, hmon, hl⟩
  rw [← List.cons_append, he, List.append_assoc, List.cons_append]

theorem receivesDown_of_down (ht : (system s).Takes t) (hs : (t.pre.ctx i).Sound (s.dev i))
    (hdown : (t.post.ctx i).reportsDesktopDown = true) :
    ReceivesDown i t ∨ (t.pre.ctx i).reportsDesktopDown = true := by
  cases hr : t.act.reportOf i with
  | some status => exact .inl ⟨.inl (by rw [hr]; rfl), hdown⟩
  | none =>
    rcases desktopState_step ht hs hr with ⟨_, -, hsaves, -⟩ | ⟨-, hkeep⟩
    · exact .inl ⟨.inr hsaves, hdown⟩
    · rw [Ctx.reportsDesktopDown, hkeep] at hdown
      exact .inr hdown

/-- A down status on file has been received in the steps `after`. -/
def FreshDown (i : s.Ix) (after : List (Step s)) (w : World s) : Prop :=
  (w.ctx i).reportsDesktopDown = true → DownReceived i after

theorem FreshDown.snoc (ht : (system s).Takes t) (hs : (t.pre.ctx i).Sound (s.dev i))
    (h : FreshDown i after t.pre) : FreshDown i (after ++ [t]) t.post := by
  intro hdown
  refine since_snoc.mpr ?_
  rcases receivesDown_of_down ht hs hdown with hrec | hpre
  · exact .inl hrec
  · exact .inr ⟨hdown, h hpre⟩

/-- **In monitoring** in a phase that tends the desktop, a down status on file has been received since
the monitoring began. -/
def MonitoringFresh (i : s.Ix) (tr : List (Step s)) (w : World s) : Prop :=
  (w.ctx i).Tending → ∃ past b after, tr = past ++ b :: after ∧ BeginsMonitoring i b ∧
    (∀ t ∈ b :: after, (t.post.ctx i).mode = .monitoring) ∧ FreshDown i after w

theorem MonitoringFresh.extend (ht : (system s).Takes t) (hs : (t.pre.ctx i).Sound (s.dev i))
    (ih : MonitoringFresh i tr t.pre) (hpre : (t.pre.ctx i).Tending)
    (hm : (t.post.ctx i).mode = .monitoring) : MonitoringFresh i (tr ++ [t]) t.post := by
  intro _
  obtain ⟨past, b, after, rfl, hb, hmon, hfresh⟩ := ih hpre
  refine ⟨past, b, after ++ [t], by simp, hb, ?_, hfresh.snoc ht hs⟩
  rw [← List.cons_append]
  exact List.forall_mem_append.mpr ⟨hmon, List.forall_mem_singleton.mpr hm⟩

theorem monitoringFresh_snoc (ht : (system s).Takes t) (hs : (t.pre.ctx i).Sound (s.dev i))
    (ih : MonitoringFresh i tr t.pre) : MonitoringFresh i (tr ++ [t]) t.post := by
  rintro ⟨hm, hphase⟩
  -- a step that leaves the record alone
  have hkeep : (t.post.ctx i).orch = (t.pre.ctx i).orch →
      ∃ past b after, tr ++ [t] = past ++ b :: after ∧ BeginsMonitoring i b ∧
        (∀ t' ∈ b :: after, (t'.post.ctx i).mode = .monitoring) ∧ FreshDown i after t.post := by
    intro horch
    refine ih.extend ht hs ⟨(congrArg OrchState.mode horch).symm.trans hm, ?_⟩ hm ⟨hm, hphase⟩
    rw [← horch]
    exact hphase
  cases ctxStep ht i with
  | other j e k act hj post => exact hkeep (by rw [post]; rfl)
  | restart e act post =>
    rw [post] at hm
    exact absurd (hm.symm.trans (Ctx.reset_frame e).1) (by decide)
  | worker e th c pc step =>
    have hpost : (t.post.ctx i).orch = c.orch := by rw [step.post]; rfl
    rcases step.outcome.orch_eq with ⟨ho, -⟩ | ⟨-, -, -, hh, -⟩
    · exact hkeep (hpost.trans ho)
    · have hm' : (t.post.ctx i).mode = .desktopHandled := (congrArg OrchState.mode hpost).trans hh
      exact absurd (hm.symm.trans hm') (by decide)
  | handler e k act hk exec =>
    obtain ⟨hnote, -⟩ := Ctx.noteReport_frame (c := (t.pre.ctx i).quiet) (e := e) (k := k)
    have hmode : ((t.pre.ctx i).quiet.noteReport e k).mode = (t.pre.ctx i).mode :=
      congrArg OrchState.mode hnote
    have hsd : (t.post.ctx i).mode ≠ .shuttingDown := by
      rw [hm]
      decide
    cases Ctx.acted_handler hk exec with
    | keep orch => exact hkeep (orch.trans hnote)
    | start mode orch _ _ desktop =>
      rw [hmode] at mode
      refine ⟨tr, t, [], rfl, ⟨mode, .inl hm⟩, by simpa using hm, fun hdown => ?_⟩
      rw [orch] at hphase
      rw [Ctx.reportsDesktopDown, desktop] at hdown
      exact absurd (hdown.symm.trans (Ctx.fetched_not_down hphase)) (by decide)
    | suspend call role mode phase orch =>
      refine ih.extend ht hs ⟨hmode.symm.trans mode, ?_⟩ hm ⟨hm, hphase⟩
      rw [hnote] at phase
      change (t.pre.ctx i).orch.phase = _ at phase
      rw [phase]
      decide
    | strike r mode why orch => exact absurd (congrArg OrchState.mode orch) hsd
    | startStrike r mode low report orch => exact absurd (congrArg OrchState.mode orch) hsd
    | confirm status call down role mode orch => exact absurd (congrArg OrchState.mode orch) hsd
    | reset mode report alone orch =>
      exact absurd (hm.symm.trans (congrArg OrchState.mode orch)) (by decide)

/-! ## The stages of a worker -/

/-- Until when a worker that has sent its first magic packet tries to wake the desktop. -/
def Pc.wakeUntil : Pc → Option Int
  | .fetchingState deadline _ => some deadline
  | .resendingWol deadline => some deadline
  | .wakeSleeping deadline _ => some deadline
  | _ => none

namespace Ctx

variable {d : UPSDeviceConfig} {p : Peers} {e : Env} {c c' : Ctx} {pc pc' : Pc} {deadline : Int}

variable (d e) in
/-- The end of the wake loop, as a step of the worker at `pc` knows it. -/
def wakeDeadline : Pc → Option Int
  | .sendingWol => some (e.clock .deadline + d.timing.wakeOnlineTimeout)
  | pc => pc.wakeUntil

variable (d e) in
/-- **Where the worker at `pc` goes on**, and how often it pushes `critical_shutdown` before. -/
inductive Resumes (pc : Pc) : Pc → ℕ → Prop
  | hold (deadline : Int) (tends : pc.tendsDesktop = false) : Resumes pc (.observerHolding deadline) 0
  | wol (start : pc = .wakeThenShutdown) : Resumes pc .sendingWol 0
  | wake (pc' : Pc) (deadline : Int) (pre : wakeDeadline d e pc = some deadline)
      (post : pc'.wakeUntil = some deadline) : Resumes pc pc' 0
  | push (unpushed : pc.unpushed = true) : Resumes pc .pushingShutdown 1
  | wait (deadline : Int) (pre : waitDeadline d e pc = some deadline) :
      Resumes pc (.waitingDesktop deadline) 0

theorem Resumes.of_eq {b : Ctx} {pc₀ : Pc}
    (hr : Resumes d e pc pc₀ (b.out.countP (·.pushesShutdown)))
    (h : (b, some pc₀) = (c', some pc')) :
    Resumes d e pc pc' (c'.out.countP (·.pushesShutdown)) := by
  obtain ⟨rfl, hpc⟩ := Prod.ext_iff.mp h
  obtain rfl := Option.some.inj hpc
  exact hr

theorem resumes_push (hc : c.out = []) (hu : pc.unpushed = true) :
    Resumes d e pc .pushingShutdown
      ((c.pushCriticalShutdown e).1.out.countP (·.pushesShutdown)) := by
  have hone : (c.pushCriticalShutdown e).1.out.countP (·.pushesShutdown) = 1 := by
    simp [pushCriticalShutdown, saveAndPush, saveCommand, emit, hc, makeCriticalShutdownCommand,
      Effect.pushesShutdown]
  rw [hone]
  exact .push hu

theorem resumes_shutdownAfterWake (hc : c.out = []) (hu : pc.unpushed = true)
    (h : c.shutdownAfterWake e = (c', some pc')) :
    Resumes d e pc pc' (c'.out.countP (·.pushesShutdown)) := by
  unfold shutdownAfterWake at h
  split_ifs at h
  · exact absurd h (by simp)
  · exact (resumes_push hc hu).of_eq h

theorem resumes_wakeIteration {nextRetry : Int} (hc : c.out = []) (hu : pc.unpushed = true)
    (hd : wakeDeadline d e pc = some deadline)
    (h : c.wakeIteration e deadline nextRetry = (c', some pc')) :
    Resumes d e pc pc' (c'.out.countP (·.pushesShutdown)) := by
  unfold wakeIteration at h
  split_ifs at h
  · exact absurd h (by simp)
  · refine Resumes.of_eq ?_ h
    rw [hc]
    exact .wake _ deadline hd rfl
  · exact resumes_shutdownAfterWake hc hu h

theorem resumes_wakeAfterFetch {nextRetry : Int} (hc : c.out = []) (hu : pc.unpushed = true)
    (hd : wakeDeadline d e pc = some deadline)
    (h : c.wakeAfterFetch d e deadline nextRetry = (c', some pc')) :
    Resumes d e pc pc' (c'.out.countP (·.pushesShutdown)) := by
  simp only [wakeAfterFetch, fetchStateFromDesktop_fst] at h
  split_ifs at h
  · exact resumes_shutdownAfterWake
      (c := { c with desktopState := fetchedState d e c.desktopState }) hc hu h
  · refine Resumes.of_eq ?_ h
    rw [emit, hc]
    exact .wake _ deadline hd rfl
  · refine Resumes.of_eq ?_ h
    rw [hc]
    exact .wake _ deadline hd rfl

theorem resumes_waitIteration (hc : c.out = []) (hd : waitDeadline d e pc = some deadline)
    (h : c.waitIteration d e deadline = (c', some pc')) :
    Resumes d e pc pc' (c'.out.countP (·.pushesShutdown)) := by
  unfold waitIteration at h
  split_ifs at h with h1 h2 h3
  · exact absurd h (by simp)
  · exact absurd h (by simp)
  · refine Resumes.of_eq ?_ h
    rw [hc]
    exact .wait deadline hd
  · exact absurd h (by simp)

theorem resumes_holdIteration (hc : c.out = []) (ht : pc.tendsDesktop = false)
    (h : c.holdIteration p e deadline = (c', some pc')) :
    Resumes d e pc pc' (c'.out.countP (·.pushesShutdown)) := by
  unfold holdIteration at h
  split_ifs at h with h1 h2 h3 h4 h5
  case neg =>
    refine Resumes.of_eq ?_ h
    rw [hc]
    exact .hold deadline ht
  all_goals exact absurd h (by simp)

theorem Resumes.tends {n : ℕ} (h : Resumes d e pc pc' n) (hpc : pc'.tendsDesktop = true) :
    pc.tendsDesktop = true := by
  cases h with
  | hold => exact absurd hpc (by simp [Pc.tendsDesktop, Pc.unpushed])
  | wol start => rw [start]; rfl
  | wake _ _ pre => cases pc <;> first | rfl | exact absurd pre (by simp [wakeDeadline, Pc.wakeUntil])
  | push unpushed => exact Bool.or_eq_true_iff.mpr (.inl unpushed)
  | wait _ pre => cases pc <;> first | rfl | exact absurd pre (by simp [waitDeadline])

theorem segment_resumes (hc : c.out = []) (h : segment d p e c pc = (c', some pc')) :
    Resumes d e pc pc' (c'.out.countP (·.pushesShutdown)) := by
  cases pc with
  | terminalAction => exact absurd h (by simp [segment])
  | observerPowerOff =>
    simp only [segment, observerPowerOffWhenDesktopSafe] at h
    split_ifs at h
    · exact absurd h (by simp)
    · exact resumes_holdIteration hc rfl h
  | observerHolding deadline => exact resumes_holdIteration hc rfl h
  | forceShutdownDesktop => exact (resumes_push hc rfl).of_eq h
  | pushingShutdown => exact resumes_waitIteration hc rfl h
  | waitingDesktop deadline => exact resumes_waitIteration hc rfl h
  | wakeThenShutdown =>
    refine Resumes.of_eq ?_ h
    show Resumes d e _ _ ((c.out ++ [Effect.sendWol]).countP (·.pushesShutdown))
    rw [hc]
    exact .wol rfl
  | sendingWol => exact resumes_wakeIteration hc rfl rfl h
  | fetchingState deadline nextRetry => exact resumes_wakeAfterFetch hc rfl rfl h
  | resendingWol deadline =>
    refine Resumes.of_eq ?_ h
    rw [hc]
    exact .wake _ deadline rfl rfl
  | wakeSleeping deadline nextRetry => exact resumes_wakeIteration hc rfl rfl h

end Ctx

/-- How often the worker `id` has pushed `critical_shutdown`. -/
def pushesBy (i : s.Ix) (id : ℕ) (tr : List (Step s)) : ℕ :=
  (tr.map fun t => if t.act.workerOf i = some id then pushes i t else 0).sum

/-- The worker `id` goes on after its push has returned. -/
def PushReturns (i : s.Ix) (id : ℕ) (e : Env) (t : Step s) : Prop :=
  t.act = .call i e (.worker id) ∧ ⟨id, .pushingShutdown⟩ ∈ (t.pre.ctx i).threads

/-- The worker `id` goes on after its first magic packet. -/
def WolReturns (i : s.Ix) (id : ℕ) (e : Env) (t : Step s) : Prop :=
  t.act = .call i e (.worker id) ∧ ⟨id, .sendingWol⟩ ∈ (t.pre.ctx i).threads

/-- The deadline is `desktop_shutdown_wait` seconds after the push of the worker returned. -/
def AfterPush (i : s.Ix) (id : ℕ) (tr : List (Step s)) (deadline : Int) : Prop :=
  ∃ t ∈ tr, ∃ e, PushReturns i id e t ∧
    deadline = e.clock .deadline + (s.dev i).timing.desktopShutdownWait

/-- The deadline is `wake_online_timeout` seconds after the first magic packet of the worker. -/
def AfterWol (i : s.Ix) (id : ℕ) (tr : List (Step s)) (deadline : Int) : Prop :=
  ∃ t ∈ tr, ∃ e, WolReturns i id e t ∧
    deadline = e.clock .deadline + (s.dev i).timing.wakeOnlineTimeout

theorem AfterPush.snoc {deadline : Int} (h : AfterPush i id tr deadline) :
    AfterPush i id (tr ++ [t]) deadline :=
  let ⟨t', ht', e, h⟩ := h
  ⟨t', List.mem_append_left _ ht', e, h⟩

theorem AfterWol.snoc {deadline : Int} (h : AfterWol i id tr deadline) :
    AfterWol i id (tr ++ [t]) deadline :=
  let ⟨t', ht', e, h⟩ := h
  ⟨t', List.mem_append_left _ ht', e, h⟩

theorem pushesBy_snoc : pushesBy i id (tr ++ [t]) =
    pushesBy i id tr + if t.act.workerOf i = some id then pushes i t else 0 := by
  simp [pushesBy]

/-- **What the worker at `pc` has done** in the steps `tr`. -/
structure Progress (i : s.Ix) (tr : List (Step s)) (id : ℕ) (pc : Pc) : Prop where
  pushed : pushesBy i id tr = if pc.tendsDesktop && !pc.unpushed then 1 else 0
  wait : ∀ deadline, pc = .waitingDesktop deadline → AfterPush i id tr deadline
  wake : ∀ deadline, pc.wakeUntil = some deadline → AfterWol i id tr deadline

theorem Progress.stays {pc : Pc} (h : Progress i tr id pc) (hact : t.act.workerOf i ≠ some id) :
    Progress i (tr ++ [t]) id pc := by
  refine ⟨?_, fun dl hdl => (h.wait dl hdl).snoc, fun dl hdl => (h.wake dl hdl).snoc⟩
  rw [pushesBy_snoc, if_neg hact, Nat.add_zero, h.pushed]

theorem Progress.afterPush {e : Env} {pc : Pc} {deadline : Int} (h : Progress i tr id pc)
    (hact : t.act = .call i e (.worker id)) (hmem : ⟨id, pc⟩ ∈ (t.pre.ctx i).threads)
    (hd : Ctx.waitDeadline (s.dev i) e pc = some deadline) : AfterPush i id (tr ++ [t]) deadline := by
  cases pc with
  | pushingShutdown => exact ⟨t, by simp, e, ⟨hact, hmem⟩, (Option.some.inj hd).symm⟩
  | waitingDesktop dl => exact (h.wait deadline (congrArg _ (Option.some.inj hd))).snoc
  | _ => exact absurd hd (by simp [Ctx.waitDeadline])

theorem Progress.afterWol {e : Env} {pc : Pc} {deadline : Int} (h : Progress i tr id pc)
    (hact : t.act = .call i e (.worker id)) (hmem : ⟨id, pc⟩ ∈ (t.pre.ctx i).threads)
    (hd : Ctx.wakeDeadline (s.dev i) e pc = some deadline) : AfterWol i id (tr ++ [t]) deadline := by
  by_cases hpc : pc = .sendingWol
  · subst hpc
    exact ⟨t, by simp, e, ⟨hact, hmem⟩, (Option.some.inj hd).symm⟩
  · have hwake : Ctx.wakeDeadline (s.dev i) e pc = pc.wakeUntil := by
      cases pc with
      | sendingWol => exact absurd rfl hpc
      | _ => rfl
    exact (h.wake deadline (hwake.symm.trans hd)).snoc

theorem Progress.moves {e : Env} {pc pc' : Pc} {c : Ctx} (h : Progress i tr id pc)
    (step : WorkerStep t i e ⟨id, pc⟩ c (some pc')) : Progress i (tr ++ [t]) id pc' := by
  have hres := Ctx.segment_resumes rfl step.seg
  have hpushes : pushes i t = c.out.countP (·.pushesShutdown) := by rw [pushes, step.post]; rfl
  have hsum : pushesBy i id (tr ++ [t]) = pushesBy i id tr + pushes i t := by
    rw [pushesBy_snoc, if_pos step.workerOf]
  rw [← hpushes] at hres
  rw [h.pushed] at hsum
  generalize pushes i t = n at hres hsum
  cases hres with
  | hold deadline tends =>
    rw [tends] at hsum
    exact ⟨hsum, by simp, by simp [Pc.wakeUntil]⟩
  | wol start =>
    obtain rfl := start
    exact ⟨hsum, by simp, by simp [Pc.wakeUntil]⟩
  | wake _ deadline pre post =>
    have hunpushed : pc.unpushed = true := by
      cases pc <;> simp [Ctx.wakeDeadline, Pc.wakeUntil, Pc.unpushed] at pre ⊢
    have hunpushed' : pc'.unpushed = true := by
      cases pc' <;> simp [Pc.wakeUntil, Pc.unpushed] at post ⊢
    refine ⟨?_, fun dl hdl => ?_, fun dl hdl => ?_⟩
    · rw [hsum, hunpushed, hunpushed']
      simp
    · subst hdl
      exact absurd post (by simp [Pc.wakeUntil])
    · obtain rfl := Option.some.inj (post.symm.trans hdl)
      exact h.afterWol step.act step.mem pre
  | push unpushed =>
    rw [unpushed] at hsum
    refine ⟨hsum.trans ?_, by simp, by simp [Pc.wakeUntil]⟩
    simp [Pc.tendsDesktop, Pc.unpushed]
  | wait deadline pre =>
    refine ⟨hsum.trans ?_, fun dl hdl => ?_, by simp [Pc.wakeUntil]⟩
    · cases pc <;> first | rfl | exact absurd pre (by simp [Ctx.waitDeadline])
    · obtain rfl := Pc.waitingDesktop.inj hdl
      exact h.afterPush step.act step.mem pre

theorem Progress.launched {pc : Pc} (hpc : pc.isLaunch = true)
    (h : ∀ t ∈ tr, t.act.workerOf i ≠ some id) : Progress i tr id pc := by
  have hzero : pushesBy i id tr = 0 := by
    refine List.sum_eq_zero fun n hn => ?_
    obtain ⟨t, ht, rfl⟩ := List.mem_map.mp hn
    exact if_neg (h t ht)
  rw [← Bool.not_eq_false] at hpc
  refine ⟨hzero.trans ?_, fun dl hdl => ?_, fun dl hdl => ?_⟩
  · cases pc <;> first | rfl | exact absurd rfl hpc
  · subst hdl
    exact absurd rfl hpc
  · cases pc <;> first | exact absurd rfl hpc | exact absurd hdl (by simp [Pc.wakeUntil])

/-! ## The invariant of a run -/

/-- **What is known of context `i` after the steps `tr`.** -/
structure Followed (i : s.Ix) (tr : List (Step s)) (w : World s) : Prop where
  sound : (w.ctx i).Sound (s.dev i)
  monitoring : MonitoringFresh i tr w
  progress : ∀ th ∈ (w.ctx i).threads, Progress i tr th.id th.pc
  outage : ∀ th ∈ (w.ctx i).threads, th.pc.tendsDesktop = true →
    ∃ past b after, tr = past ++ b :: after ∧ OutageOf i th.id b after ∧ FreshDown i after w
  workers : ∀ t ∈ tr, ∀ id, t.act.workerOf i = some id → id < (w.ctx i).spawned

theorem spawned_le (ht : (system s).Takes t) (i : s.Ix) :
    (t.pre.ctx i).spawned ≤ (t.post.ctx i).spawned := by
  cases ctxStep ht i with
  | handler e k act hk exec =>
    cases Ctx.move_handler hk exec with
    | keep _ _ spawned => exact spawned.ge
    | start _ _ _ spawned => exact spawned.ge
    | strike _ _ _ _ spawned => exact (Nat.le_succ _).trans spawned.ge
    | standDown _ _ _ spawned => exact spawned.ge
  | worker e th c pc step =>
    rw [step.post]
    exact step.spawned.ge
  | other j e k act hj post =>
    rw [post]
    exact le_rfl
  | restart e act post =>
    rw [post]
    exact (Ctx.reset_frame (c := (t.pre.ctx i).quiet) e).2.2.1.ge

theorem exists_thread_of_workerOf (ht : (system s).Takes t) (hw : t.act.workerOf i = some id) :
    ∃ th ∈ (t.pre.ctx i).threads, th.id = id := by
  cases ctxStep ht i with
  | handler e k act hk => exact absurd ((workerOf_handler act hk).symm.trans hw) (by simp)
  | other j e k act hj => exact absurd ((workerOf_other act hj).symm.trans hw) (by simp)
  | restart e act =>
    rw [act] at hw
    exact absurd hw (by simp [Action.workerOf])
  | worker e th c pc step =>
    exact ⟨th, step.mem, Option.some.inj (step.workerOf.symm.trans hw)⟩

theorem lt_spawned_of_workerOf (ht : (system s).Takes t) (hs : (t.pre.ctx i).Sound (s.dev i))
    (hw : t.act.workerOf i = some id) : id < (t.pre.ctx i).spawned := by
  obtain ⟨th, hth, rfl⟩ := exists_thread_of_workerOf ht hw
  exact hs.lt_spawned th hth

theorem outage_of_launched (ht : (system s).Takes t) (h : Followed i tr t.pre) {th : Thread}
    (hl : Ctx.Launched (s.dev i) (t.pre.ctx i) (t.post.ctx i) th) (hpc : th.pc.tendsDesktop = true) :
    ∃ past b after, tr ++ [t] = past ++ b :: after ∧ OutageOf i th.id b after ∧
      FreshDown i after t.post := by
  have hlaunch : Launches i th.id t := ⟨hl.id.symm, hl.spawned⟩
  rcases hl.tends hpc with ⟨htend, -⟩ | ⟨hrest, hdown⟩
  · obtain ⟨past, b, after, rfl, hb, hmon, hfresh⟩ := h.monitoring htend
    exact ⟨past, b, after ++ [t], by simp, ⟨hb, b :: after, t, [], by simp, hmon, hlaunch⟩,
      hfresh.snoc ht h.sound⟩
  · refine ⟨tr, t, [], rfl, ⟨⟨hrest, .inr hl.mode⟩, [], t, [], rfl, by simp, hlaunch⟩, fun hd => ?_⟩
    exact absurd (hd.symm.trans hdown) (by decide)

theorem Followed.not_workerOf (ht : (system s).Takes t) (h : Followed i tr t.pre) {th : Thread}
    (hl : Ctx.Launched (s.dev i) (t.pre.ctx i) (t.post.ctx i) th) :
    ∀ t' ∈ tr ++ [t], t'.act.workerOf i ≠ some th.id := by
  intro t' ht' hw
  have hlt : th.id < (t.pre.ctx i).spawned := by
    rcases List.mem_append.mp ht' with ht' | ht'
    · exact h.workers t' ht' _ hw
    · rw [List.mem_singleton.mp ht'] at hw
      exact lt_spawned_of_workerOf ht h.sound hw
  exact hlt.ne hl.id

theorem Followed.snoc (ht : (system s).Takes t) (h : Followed i tr t.pre) :
    Followed i (tr ++ [t]) t.post := by
  have hextend : ∀ {id : ℕ}, (∃ past b after, tr = past ++ b :: after ∧ OutageOf i id b after ∧
      FreshDown i after t.pre) → ∃ past b after, tr ++ [t] = past ++ b :: after ∧
        OutageOf i id b after ∧ FreshDown i after t.post := by
    rintro id ⟨past, b, after, rfl, hout, hfresh⟩
    exact ⟨past, b, after ++ [t], by simp, hout.snoc t, hfresh.snoc ht h.sound⟩
  constructor
  · exact sound_step ht h.sound
  · exact monitoringFresh_snoc ht h.sound h.monitoring
  · intro th hth
    cases threadStep ht hth with
    | stays mem act => exact (h.progress th mem).stays act
    | moves e pc c step => exact (h.progress _ step.mem).moves step
    | launched e k act launch => exact Progress.launched launch.pc (h.not_workerOf ht launch)
  · intro th hth hpc
    cases threadStep ht hth with
    | stays mem act => exact hextend (h.outage th mem hpc)
    | moves e pc c step =>
      have hpre := (Ctx.segment_resumes rfl step.seg).tends hpc
      exact hextend (h.outage ⟨th.id, pc⟩ step.mem hpre)
    | launched e k act launch => exact outage_of_launched ht h launch hpc
  · intro t' ht' id hw
    rcases List.mem_append.mp ht' with ht' | ht'
    · exact (h.workers t' ht' id hw).trans_le (spawned_le ht i)
    · rw [List.mem_singleton.mp ht'] at hw
      exact (lt_spawned_of_workerOf ht h.sound hw).trans_le (spawned_le ht i)

theorem followed_of_run {u : World s} (hu : (system s).init u) (h : Run (system s) u tr w) (i : s.Ix) :
    Followed i tr w := by
  induction h with
  | nil =>
    obtain ⟨hm, hth, -⟩ := idle_of_init hu i
    refine ⟨sound_of_init hu i, fun ht => ?_, by simp [hth], by simp [hth], by simp⟩
    exact absurd (hm.symm.trans ht.1) (by decide)
  | snoc _ ha ih => exact ih.snoc ha

/-! ## The window -/

namespace Ctx

variable {d : UPSDeviceConfig} {p : Peers} {e : Env} {c c' : Ctx} {pc : Pc} {deadline : Int}

/-- **The worker at `pc` calls `_terminal_action`** in its step, and returns. In another mode than
`shutting_down` the call does nothing; there only a worker whose time is up makes it. -/
def CallsTerminalAction (d : UPSDeviceConfig) (p : Peers) (e : Env) (c : Ctx) (pc : Pc) : Prop :=
  segment d p e c pc = (c.terminalAction d, none) ∧ (c.mode = .shuttingDown ∨
    ∃ deadline, waitDeadline d e pc = some deadline ∧ deadline ≤ e.clock .loop)

/-- Between `c` and `c'` something happens that `_terminal_action` is there for. -/
def ActsTerminally (c c' : Ctx) : Prop :=
  (∃ eff ∈ c'.out, eff.isTerminal = true) ∨
    (c.mode ≠ .desktopHandled ∧ c'.mode = .desktopHandled)

/-- The wait until `deadline` is over: the time is up, or the desktop is seen as down. -/
def WaitOver (e : Env) (c : Ctx) (deadline : Int) : Prop :=
  deadline ≤ e.clock .loop ∨ (c.mode = .shuttingDown ∧ c.reportsDesktopDown = true)

/-- **A pass through the wait loop** ends the wait, aborts it, or goes on with it. -/
theorem segment_waits (hd : waitDeadline d e pc = some deadline) :
    (WaitOver e c deadline ∧ segment d p e c pc = (c.terminalAction d, none)) ∨
      (e.clock .loop < deadline ∧ c.mode ≠ .shuttingDown ∧ segment d p e c pc = (c, none)) ∨
      segment d p e c pc = (c, some (.waitingDesktop deadline)) := by
  rw [segment_eq_waitIteration hd, waitIteration]
  split_ifs with h1 h2 h3
  · exact .inr (.inl ⟨h1, h2, rfl⟩)
  · exact .inl ⟨.inr ⟨not_not.mp h2, h3⟩, rfl⟩
  · exact .inr (.inr rfl)
  · exact .inl ⟨.inl (not_lt.mp h1), rfl⟩

/-- What a worker does before its push: nothing terminal, and it returns in another mode than
`shutting_down` only. -/
structure BeforePush (c : Ctx) (r : Ctx × Option Pc) : Prop where
  mode : r.1.mode = c.mode
  returns : r.2 = none → c.mode ≠ .shuttingDown
  out : ∀ eff ∈ r.1.out, eff ∈ c.out ∨ eff.isTerminal = false

theorem beforePush_pushCriticalShutdown : BeforePush c (c.pushCriticalShutdown e) := by
  refine ⟨rfl, fun h => absurd h (by simp [pushCriticalShutdown]), fun eff heff => ?_⟩
  simp only [pushCriticalShutdown, saveAndPush, emit, saveCommand, List.mem_append,
    List.mem_singleton] at heff
  rcases heff with (heff | rfl) | rfl
  · exact .inl heff
  · exact .inr rfl
  · exact .inr rfl

theorem beforePush_shutdownAfterWake : BeforePush c (c.shutdownAfterWake e) := by
  unfold shutdownAfterWake
  split_ifs with h
  · exact ⟨rfl, fun _ => h, fun _ => .inl⟩
  · exact beforePush_pushCriticalShutdown

theorem beforePush_wakeIteration {nextRetry : Int} :
    BeforePush c (c.wakeIteration e deadline nextRetry) := by
  unfold wakeIteration
  split_ifs with h1 h2
  · exact ⟨rfl, fun _ => h2, fun _ => .inl⟩
  · exact ⟨rfl, by simp, fun _ => .inl⟩
  · exact beforePush_shutdownAfterWake

theorem beforePush_wakeAfterFetch {nextRetry : Int} :
    BeforePush c (c.wakeAfterFetch d e deadline nextRetry) := by
  simp only [wakeAfterFetch, fetchStateFromDesktop_fst]
  split_ifs
  · have h := beforePush_shutdownAfterWake (e := e)
      (c := { c with desktopState := fetchedState d e c.desktopState })
    exact ⟨h.mode, h.returns, h.out⟩
  · refine ⟨rfl, by simp, fun eff heff => ?_⟩
    rcases List.mem_append.mp heff with heff | heff
    · exact .inl heff
    · exact .inr (List.mem_singleton.mp heff ▸ rfl)
  · exact ⟨rfl, by simp, fun _ => .inl⟩

theorem segment_beforePush (hu : pc.unpushed = true) : BeforePush c (segment d p e c pc) := by
  cases pc with
  | forceShutdownDesktop => exact beforePush_pushCriticalShutdown
  | wakeThenShutdown =>
    refine ⟨rfl, by simp [segment], fun eff heff => ?_⟩
    rcases List.mem_append.mp heff with heff | heff
    · exact .inl heff
    · exact .inr (List.mem_singleton.mp heff ▸ rfl)
  | sendingWol => exact beforePush_wakeIteration
  | fetchingState deadline nextRetry => exact beforePush_wakeAfterFetch
  | resendingWol deadline => exact ⟨rfl, by simp [segment], fun _ => .inl⟩
  | wakeSleeping deadline nextRetry => exact beforePush_wakeIteration
  | _ => exact absurd hu (by simp [Pc.unpushed])

/-- **Of the two workers, only one whose wait is over** calls `_terminal_action` or does what it is
there for. -/
theorem waitOver_of_terminal (ht : pc.tendsDesktop = true) (hc : c.out = [])
    (h : CallsTerminalAction d p e c pc ∨ ActsTerminally c (segment d p e c pc).1) :
    ∃ deadline, waitDeadline d e pc = some deadline ∧ WaitOver e c deadline := by
  have hkeep : ¬ActsTerminally c c := by
    rintro (⟨eff, heff, -⟩ | ⟨hne, he⟩)
    · rw [hc] at heff
      exact absurd heff List.not_mem_nil
    · exact hne he
  cases hd : waitDeadline d e pc with
  | some deadline =>
    refine ⟨deadline, rfl, ?_⟩
    rcases segment_waits (p := p) (c := c) hd with ⟨hover, -⟩ | ⟨hlt, hm, hseg⟩ | hseg
    · exact hover
    · rcases h with ⟨-, hmode | ⟨dl, hdl, hle⟩⟩ | h
      · exact absurd hmode hm
      · obtain rfl := Option.some.inj (hd.symm.trans hdl)
        exact absurd hle (not_le.mpr hlt)
      · rw [hseg] at h
        exact absurd h hkeep
    · rw [hseg] at h
      rcases h with h | h
      · exact absurd (hseg.symm.trans h.1) (by simp)
      · exact absurd h hkeep
  | none =>
    -- the worker has not pushed yet
    have hu : pc.unpushed = true := by
      cases pc with
      | pushingShutdown | waitingDesktop => cases hd
      | terminalAction | observerPowerOff | observerHolding => cases ht
      | _ => rfl
    have hb := segment_beforePush (d := d) (p := p) (e := e) (c := c) hu
    exfalso
    rcases h with ⟨hseg, hwhy⟩ | ⟨eff, heff, hterm⟩ | ⟨hne, he⟩
    · rcases hwhy with hm | ⟨dl, hdl, -⟩
      · exact hb.returns (by rw [hseg]) hm
      · exact absurd (hd.symm.trans hdl) (by simp)
    · rcases hb.out eff heff with hold | hfalse
      · rw [hc] at hold
        exact absurd hold List.not_mem_nil
      · exact absurd (hterm.symm.trans hfalse) (by decide)
    · exact hne (hb.mode.symm.trans he)

/-- The agent of the desktop answers `online`. -/
def OnlineReply (d : UPSDeviceConfig) (e : Env) : Prop :=
  d.desktop.isSome ∧ ∃ st ∈ e.agent, st.getStatus = some .online

/-- The wake worker at `pc` reads the mode in its step: in every pass of its loop, and before the
push. -/
def ReadsMode (d : UPSDeviceConfig) (e : Env) : Pc → Prop
  | .sendingWol => True
  | .wakeSleeping _ _ => True
  | .fetchingState _ _ => OnlineReply d e
  | _ => False

theorem onlineReply_iff : OnlineReply d e ↔
    ((c.fetchStateFromDesktop d e).2.getD {}).getStatus = some .online := by
  unfold OnlineReply fetchStateFromDesktop
  cases d.desktop with
  | none => simp [DesktopState.getStatus]
  | some desktop => cases e.agent <;> simp [DesktopState.getStatus]

theorem mode_fetch : (c.fetchStateFromDesktop d e).1.mode = c.mode := by
  rw [fetchStateFromDesktop_fst]

theorem shutdownAfterWake_abort (hm : c.mode ≠ .shuttingDown) :
    c.shutdownAfterWake e = (c, none) := if_pos hm

theorem wakeIteration_abort {nextRetry : Int} (hm : c.mode ≠ .shuttingDown) :
    c.wakeIteration e deadline nextRetry = (c, none) := by
  unfold wakeIteration
  rw [if_pos hm, shutdownAfterWake_abort hm, ite_self]

/-- **A wake worker that reads another mode** returns, and pushes nothing. -/
theorem segment_abort (hr : ReadsMode d e pc) (hm : c.mode ≠ .shuttingDown) :
    (segment d p e c pc).2 = none ∧ (segment d p e c pc).1.out = c.out := by
  cases pc with
  | sendingWol =>
    rw [segment, wakeIteration_abort hm]
    exact ⟨rfl, rfl⟩
  | wakeSleeping dl n =>
    rw [segment, wakeIteration_abort hm]
    exact ⟨rfl, rfl⟩
  | fetchingState dl n =>
    have hm' : (c.fetchStateFromDesktop d e).1.mode ≠ .shuttingDown := by rwa [mode_fetch]
    have hout : (c.fetchStateFromDesktop d e).1.out = c.out := by rw [fetchStateFromDesktop_fst]
    simp only [segment, wakeAfterFetch]
    rw [if_pos (onlineReply_iff.mp hr), shutdownAfterWake_abort hm']
    exact ⟨rfl, hout⟩
  | _ => exact hr.elim

/-- **A wake worker pushes** in `shutting_down` only, and once the desktop is online or its time is
up. -/
theorem segment_push (hpc : pc.wakes = true) (h : (segment d p e c pc).2 = some .pushingShutdown) :
    c.mode = .shuttingDown ∧ ((pc.isFetching = true ∧ OnlineReply d e) ∨
      ∃ deadline, wakeDeadline d e pc = some deadline ∧ deadline ≤ e.clock .loop) := by
  have hwake : ∀ dl n, (c.wakeIteration e dl n).2 = some .pushingShutdown →
      c.mode = .shuttingDown ∧ dl ≤ e.clock .loop := by
    intro dl n hpush
    by_cases hm : c.mode = .shuttingDown
    · refine ⟨hm, not_lt.mp fun hlt => ?_⟩
      rw [wakeIteration, if_pos hlt, if_neg (not_not.mpr hm)] at hpush
      simp at hpush
    · rw [wakeIteration_abort hm] at hpush
      simp at hpush
  cases pc with
  | sendingWol =>
    obtain ⟨hm, hle⟩ := hwake _ _ h
    exact ⟨hm, .inr ⟨_, rfl, hle⟩⟩
  | wakeSleeping dl n =>
    obtain ⟨hm, hle⟩ := hwake _ _ h
    exact ⟨hm, .inr ⟨_, rfl, hle⟩⟩
  | fetchingState dl n =>
    simp only [segment, wakeAfterFetch] at h
    split_ifs at h with h1 h2
    · refine ⟨by_contra fun hm => ?_, .inl ⟨rfl, onlineReply_iff.mpr h1⟩⟩
      rw [shutdownAfterWake_abort (by rwa [mode_fetch])] at h
      simp at h
    · simp at h
    · simp at h
  | wakeThenShutdown => exact absurd h (by simp [segment])
  | resendingWol dl => exact absurd h (by simp [segment])
  | _ => exact absurd hpc (by simp [Pc.wakes, Pc.unpushed])

end Ctx

/-- The worker `th` of context `i` takes the step. -/
def StepOf (i : s.Ix) (e : Env) (th : Thread) (t : Step s) : Prop :=
  t.act = .call i e (.worker th.id) ∧ th ∈ (t.pre.ctx i).threads

/-- **The desktop gets its window**, in every step of a worker of context `i`. -/
structure Window (x : Execution (system s)) (i : s.Ix) : Prop where
  /-- A worker that tends the desktop and calls `_terminal_action`, or does what that is there for, has
  pushed `critical_shutdown` once. Since then its time has passed, or the desktop is down and has said
  so since this outage began. -/
  terminal : ∀ tr t rest, x.steps = tr ++ t :: rest → ∀ e th, StepOf i e th t →
    th.pc.tendsDesktop = true →
    (Ctx.CallsTerminalAction (s.dev i) (t.pre.peersOf i) e (t.pre.ctx i).quiet th.pc ∨
      Ctx.ActsTerminally (t.pre.ctx i) (t.post.ctx i)) → pushesBy i th.id tr = 1 ∧
      ((∃ deadline, AfterPush i th.id (tr ++ [t]) deadline ∧ deadline ≤ e.clock .loop) ∨
        ((t.pre.ctx i).reportsDesktopDown = true ∧ ∃ past b after, tr = past ++ b :: after ∧
          OutageOf i th.id b after ∧ DownReceived i after))
  /-- A wake worker pushes once the desktop is online, or its time to wake has passed. -/
  wake : ∀ tr t rest, x.steps = tr ++ t :: rest → ∀ e th, StepOf i e th t → th.pc.wakes = true →
    0 < pushes i t → (t.pre.ctx i).mode = .shuttingDown ∧
      ((th.pc.isFetching = true ∧ Ctx.OnlineReply (s.dev i) e) ∨
        ∃ deadline, AfterWol i th.id (tr ++ [t]) deadline ∧ deadline ≤ e.clock .loop)
  /-- A wake worker that reads another mode than `shutting_down` never pushes. -/
  abort : ∀ t ∈ x.steps, ∀ e th, StepOf i e th t → th.pc.wakes = true →
    Ctx.ReadsMode (s.dev i) e th.pc → (t.pre.ctx i).mode ≠ .shuttingDown →
      pushesBy i th.id x.steps = 0

/-- A worker that has returned takes no step again. -/
def Gone (i : s.Ix) (id : ℕ) (w : World s) : Prop :=
  id < (w.ctx i).spawned ∧ ∀ th ∈ (w.ctx i).threads, th.id ≠ id

theorem gone_step (ht : (system s).Takes t) (h : Gone i id t.pre) : Gone i id t.post := by
  refine ⟨h.1.trans_le (spawned_le ht i), fun th hth hid => ?_⟩
  cases threadStep ht hth with
  | stays mem => exact h.2 th mem hid
  | moves e pc c step => exact h.2 ⟨th.id, pc⟩ step.mem hid
  | launched e k act launch =>
    have hlt := h.1
    have hid' := launch.id
    omega

theorem Gone.not_workerOf (ht : (system s).Takes t) (h : Gone i id t.pre) :
    t.act.workerOf i ≠ some id := by
  intro hw
  obtain ⟨th, hth, hid⟩ := exists_thread_of_workerOf ht hw
  exact h.2 th hth hid

theorem Gone.pushesBy_eq_zero {u : World s} (h : Run (system s) u tr w) (hu : Gone i id u) :
    pushesBy i id tr = 0 := by
  refine List.sum_eq_zero fun n hn => ?_
  obtain ⟨t, ht, rfl⟩ := List.mem_map.mp hn
  obtain ⟨tr₁, tr₂, -, h₁, ha, -⟩ := h.of_mem ht
  exact if_neg ((h₁.inv (fun _ => gone_step) hu).not_workerOf ha)

theorem WorkerStep.pushing {e : Env} {th : Thread} {c : Ctx} {pc : Option Pc}
    (step : WorkerStep t i e th c pc) (h : 0 < pushes i t) : pc = some .pushingShutdown := by
  have hpushes : pushes i t = c.out.countP (·.pushesShutdown) := by rw [pushes, step.post]; rfl
  rw [hpushes] at h
  cases step.outcome with
  | push => rfl
  | wait _ _ _ _ out =>
    rcases out with out | ⟨out, -⟩
    · rw [out] at h
      exact absurd h (lt_irrefl 0)
    · rw [out] at h
      exact absurd h (lt_irrefl 0)
  | abort _ _ _ _ out => rw [out] at h; exact absurd h (lt_irrefl 0)
  | shutdown _ _ _ _ _ _ out => rw [out] at h; exact absurd h (lt_irrefl 0)
  | powerOff _ _ _ _ _ out => rw [out] at h; exact absurd h (lt_irrefl 0)
  | handled _ _ _ _ _ _ out => rw [out] at h; exact absurd h (lt_irrefl 0)

theorem gone_of_abort (ht : (system s).Takes t) (h : Followed i tr t.pre) {e : Env} {th : Thread}
    (hstep : StepOf i e th t) (hpc : th.pc.wakes = true) (hr : Ctx.ReadsMode (s.dev i) e th.pc)
    (hm : (t.pre.ctx i).mode ≠ .shuttingDown) :
    pushesBy i th.id (tr ++ [t]) = 0 ∧ Gone i th.id t.post := by
  obtain ⟨hact, hmem⟩ := hstep
  obtain ⟨c, pc, step⟩ := workerStep_of_act ht h.sound hmem hact
  obtain ⟨hnone, hout⟩ := Ctx.segment_abort (d := s.dev i) (p := t.pre.peersOf i)
    (c := (t.pre.ctx i).quiet) hr hm
  rw [step.seg] at hnone hout
  obtain rfl : pc = none := hnone
  have hzero : pushes i t = 0 := by
    rw [pushes, step.post]
    show c.out.countP _ = 0
    rw [hout]
    rfl
  have hunpushed : th.pc.unpushed = true := (Bool.and_eq_true_iff.mp hpc).1
  refine ⟨?_, (h.sound.lt_spawned th hmem).trans_le (spawned_le ht i), fun th' hth' => ?_⟩
  · rw [pushesBy_snoc, if_pos step.workerOf, hzero, (h.progress th hmem).pushed, hunpushed]
    simp
  · rw [step.post] at hth'
    rcases Ctx.mem_resume hth' with ⟨-, hne⟩ | ⟨pc', hpc', -⟩
    · exact hne
    · exact absurd hpc' (by simp)

/-- **The desktop gets its full shutdown window** in every execution. -/
theorem window (x : Execution (system s)) (i : s.Ix) : Window x i := by
  constructor
  · rintro tr t rest hsteps e th ⟨hact, hmem⟩ hpc hterm
    obtain ⟨h₁, ht, -⟩ := (hsteps ▸ x.run).around
    have hfollow := followed_of_run x.init h₁ i
    have hprog := hfollow.progress th hmem
    obtain ⟨c, pc, step⟩ := workerStep_of_act ht hfollow.sound hmem hact
    have hover : ∃ deadline, Ctx.waitDeadline (s.dev i) e th.pc = some deadline ∧
        Ctx.WaitOver e (t.pre.ctx i).quiet deadline := by
      refine Ctx.waitOver_of_terminal (p := t.pre.peersOf i) hpc rfl (hterm.imp_right fun h => ?_)
      rw [step.post] at h
      rw [step.seg]
      exact h
    obtain ⟨deadline, hd, hover⟩ := hover
    have hpushed : th.pc.unpushed = false := by
      cases hth : th.pc <;> first | rfl | exact absurd (hth ▸ hd) (by simp [Ctx.waitDeadline])
    refine ⟨by rw [hprog.pushed, hpc, hpushed]; rfl, ?_⟩
    rcases hover with hle | ⟨-, hdown⟩
    · exact .inl ⟨deadline, hprog.afterPush hact hmem hd, hle⟩
    · -- the desktop is down, and has said so
      obtain ⟨past, b, after, htr, hout, hfresh⟩ := hfollow.outage th hmem hpc
      exact .inr ⟨hdown, past, b, after, htr, hout, hfresh hdown⟩
  · rintro tr t rest hsteps e th ⟨hact, hmem⟩ hpc hpush
    obtain ⟨h₁, ht, -⟩ := (hsteps ▸ x.run).around
    have hfollow := followed_of_run x.init h₁ i
    obtain ⟨c, pc, step⟩ := workerStep_of_act ht hfollow.sound hmem hact
    have hseg : (Ctx.segment (s.dev i) (t.pre.peersOf i) e (t.pre.ctx i).quiet th.pc).2 =
        some .pushingShutdown := by
      rw [step.seg]
      exact step.pushing hpush
    obtain ⟨hm, hwhy⟩ := Ctx.segment_push hpc hseg
    refine ⟨hm, hwhy.imp_right ?_⟩
    rintro ⟨deadline, hd, hle⟩
    exact ⟨deadline, (hfollow.progress th hmem).afterWol hact hmem hd, hle⟩
  · intro t ht e th hstep hpc hr hm
    obtain ⟨tr, rest, hsteps, h₁, ha, h₂⟩ := x.run.of_mem ht
    obtain ⟨hzero, hgone⟩ := gone_of_abort ha (followed_of_run x.init h₁ i) hstep hpc hr hm
    have hrest := hgone.pushesBy_eq_zero h₂
    rw [pushesBy] at hzero hrest ⊢
    rw [hsteps, List.append_cons, List.map_append, List.sum_append, hzero, hrest]

end UpsOrchestrator

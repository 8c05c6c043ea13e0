import UpsOrchestrator.Episodes
import UpsOrchestrator.ShutdownWindow

/-!
# Response time

How long an outage can go on before it is answered. No program controls its clock, so the bound is
for executions that are punctual up to a latency: no call takes longer, and nothing starts later
than this after a worker or the deadline timer could have gone on.

* `Pc.rest`, `arrival`: how long a worker sleeps, and since when; `OnTime`, `Punctual`.
* `Pc.finish`: the latest time at which a worker is done; **`finish_segment`**: none of its steps
  puts that off.
* **`workersFinish`**: no worker outlives it, in whatever mode.
* `UPSDeviceConfig.responseTime`, **`answeredInTime`**: no outage outlasts this without a terminal
  effect.
-/

set_option autoImplicit false

namespace UpsOrchestrator

open Lts

/-! ## How long a worker takes -/

/-- `time.sleep` in the three loops. -/
def Pc.rest : Pc → Int
  | .observerHolding _ => 5
  | .waitingDesktop _ => 5
  | .wakeSleeping _ _ => 5
  | _ => 0

section

variable (d : UPSDeviceConfig) (δ : Int)

/-- From the push of `critical_shutdown` to the end of the wait for the desktop. -/
def UPSDeviceConfig.pushTime : Int := max d.timing.desktopShutdownWait 0 + 5 + 5 * δ

/-- **The latest end of a worker** that came to its position at `since`. -/
def Pc.finish (since : Int) : Pc → Int
  | .terminalAction => since + 2 * δ
  | .observerPowerOff => since + max d.timing.observerPoweroffMaxWait 0 + 5 + 5 * δ
  | .observerHolding deadline => max since (deadline + δ) + 5 + 2 * δ
  | .forceShutdownDesktop => since + 2 * δ + d.pushTime δ
  | .pushingShutdown => since + d.pushTime δ
  | .waitingDesktop deadline => max since (deadline + δ) + 5 + 2 * δ
  | .wakeThenShutdown => since + max d.timing.wakeOnlineTimeout 0 + 5 + 11 * δ + d.pushTime δ
  | .sendingWol => since + max d.timing.wakeOnlineTimeout 0 + 5 + 9 * δ + d.pushTime δ
  | .fetchingState deadline _ => max (since + 6 * δ) (deadline + 7 * δ) + 5 + d.pushTime δ
  | .resendingWol deadline => max (since + 4 * δ) (deadline + 7 * δ) + 5 + d.pushTime δ
  | .wakeSleeping deadline _ => max (since + 2 * δ) (deadline + 7 * δ) + 5 + d.pushTime δ

/-- The longest that a worker takes, from its launch. -/
def UPSDeviceConfig.workTime : Int :=
  max (max d.timing.observerPoweroffMaxWait 0 + 5 + 5 * δ)
    (max d.timing.wakeOnlineTimeout 0 + 5 + 11 * δ + d.pushTime δ)

end

namespace Ctx

variable {d : UPSDeviceConfig} {p : Peers} {e : Env} {c : Ctx} {δ since : Int} {pc pc' : Pc}

theorem stop_le_finish (hδ : e.stop ≤ e.start + δ) (hs : e.start ≤ since + pc.rest + δ) :
    e.stop ≤ pc.finish d δ since := by
  have hpos := e.start_le_stop
  have hpush : 5 + 5 * δ ≤ d.pushTime δ := by
    unfold UPSDeviceConfig.pushTime
    omega
  cases pc <;> simp only [Pc.rest] at hs <;> simp only [Pc.finish] <;> omega

theorem finish_waitIteration (deadline : Int)
    (h : (c.waitIteration d e deadline).2 = some pc') :
    pc' = .waitingDesktop deadline ∧ e.clock .loop < deadline := by
  unfold waitIteration at h
  split_ifs at h with h1 h2 h3
  exact ⟨(Option.some.inj h).symm, h1⟩

theorem finish_holdIteration (deadline : Int)
    (h : (c.holdIteration p e deadline).2 = some pc') :
    pc' = .observerHolding deadline ∧ e.clock .loop < deadline := by
  unfold holdIteration at h
  split_ifs at h with h1 h2 h3 h4 h5
  exact ⟨(Option.some.inj h).symm, h1⟩

theorem finish_shutdownAfterWake (h : (c.shutdownAfterWake e).2 = some pc') :
    pc' = .pushingShutdown := by
  unfold shutdownAfterWake pushCriticalShutdown at h
  split_ifs at h
  exact (Option.some.inj h).symm

theorem finish_wakeIteration (deadline nextRetry : Int)
    (h : (c.wakeIteration e deadline nextRetry).2 = some pc') :
    pc' = .pushingShutdown ∨
      (pc' = .fetchingState deadline nextRetry ∧ e.clock .loop < deadline) := by
  unfold wakeIteration at h
  split_ifs at h with h1 h2
  · exact .inr ⟨(Option.some.inj h).symm, h1⟩
  · exact .inl (finish_shutdownAfterWake h)

theorem finish_wakeAfterFetch (deadline nextRetry : Int)
    (h : (c.wakeAfterFetch d e deadline nextRetry).2 = some pc') :
    pc' = .pushingShutdown ∨ pc' = .resendingWol deadline ∨
      pc' = .wakeSleeping deadline nextRetry := by
  simp only [wakeAfterFetch] at h
  split_ifs at h with h1 h2
  · exact .inl (finish_shutdownAfterWake h)
  · exact .inr (.inl (Option.some.inj h).symm)
  · exact .inr (.inr (Option.some.inj h).symm)

/-- **No step puts the end of a worker off**, if it starts and ends in time. -/
theorem finish_segment (hδ : e.stop ≤ e.start + δ) (hs : e.start ≤ since + pc.rest + δ)
    (h : (segment d p e c pc).2 = some pc') : pc'.finish d δ e.stop ≤ pc.finish d δ since := by
  have hpos := e.start_le_stop
  have hloop := (e.start_le .loop).trans (e.le_stop .loop)
  have hstart := e.start_le .loop
  have hdl := e.le_stop .deadline
  cases pc with
  | terminalAction => exact absurd h (by simp [segment])
  | observerPowerOff =>
    simp only [segment, observerPowerOffWhenDesktopSafe] at h
    split_ifs at h
    obtain ⟨rfl, hlt⟩ := finish_holdIteration _ h
    simp only [Pc.finish, Pc.rest] at *
    omega
  | observerHolding deadline =>
    obtain ⟨rfl, hlt⟩ := finish_holdIteration _ h
    simp only [Pc.finish, Pc.rest] at *
    omega
  | forceShutdownDesktop =>
    obtain rfl := Option.some.inj h
    simp only [Pc.finish, Pc.rest] at *
    omega
  | pushingShutdown =>
    obtain ⟨rfl, hlt⟩ := finish_waitIteration _ h
    simp only [Pc.finish, Pc.rest, UPSDeviceConfig.pushTime] at *
    omega
  | waitingDesktop deadline =>
    obtain ⟨rfl, hlt⟩ := finish_waitIteration _ h
    simp only [Pc.finish, Pc.rest] at *
    omega
  | wakeThenShutdown =>
    obtain rfl := Option.some.inj h
    simp only [Pc.finish, Pc.rest] at *
    omega
  | sendingWol =>
    rcases finish_wakeIteration _ _ h with rfl | ⟨rfl, hlt⟩
    · simp only [Pc.finish, Pc.rest] at *
      omega
    · simp only [Pc.finish, Pc.rest] at *
      omega
  | fetchingState deadline nextRetry =>
    rcases finish_wakeAfterFetch _ _ h with rfl | rfl | rfl
    · simp only [Pc.finish, Pc.rest] at *
      omega
    · simp only [Pc.finish, Pc.rest] at *
      omega
    · simp only [Pc.finish, Pc.rest] at *
      omega
  | resendingWol deadline =>
    obtain rfl := Option.some.inj h
    simp only [Pc.finish, Pc.rest] at *
    omega
  | wakeSleeping deadline nextRetry =>
    rcases finish_wakeIteration _ _ h with rfl | ⟨rfl, hlt⟩
    · simp only [Pc.finish, Pc.rest] at *
      omega
    · simp only [Pc.finish, Pc.rest] at *
      omega

theorem finish_le_workTime (hδ : 0 ≤ δ) (h : pc.isLaunch = true) :
    pc.finish d δ since ≤ since + d.workTime δ := by
  have hpush : 5 + 5 * δ ≤ d.pushTime δ := by
    unfold UPSDeviceConfig.pushTime
    omega
  unfold UPSDeviceConfig.workTime
  cases pc <;> simp only [Pc.isLaunch, Bool.false_eq_true] at h <;> simp only [Pc.finish] <;> omega

end Ctx

/-! ## Punctual executions -/

variable {s : Site} {i : s.Ix} {t : Step s} {tr : List (Step s)} {δ : Int}

/-- Since when each worker of context `i` has been where it is; the time goes on for those that are
still to be launched. -/
def arrival (i : s.Ix) (since : ℕ → Int) (t : Step s) : ℕ → Int := fun id =>
  if t.act.workerOf i = some id ∨ (t.pre.ctx i).spawned ≤ id then t.post.now else since id

/-- Since when the worker `id` of context `i` has been where it is after the steps `tr`. -/
def arrived (i : s.Ix) (tr : List (Step s)) (id : ℕ) : Int := hist (arrival i) (fun _ => 0) tr id

/-- The step `t` after the steps `tr` is short, and no later than `δ` after a worker of context `i`
or its timer could have gone on. -/
structure OnTime (δ : Int) (i : s.Ix) (tr : List (Step s)) (t : Step s) : Prop where
  short : t.act.env.stop ≤ t.act.env.start + δ
  workers : ∀ th ∈ (t.pre.ctx i).threads, t.act.env.start ≤ arrived i tr th.id + th.pc.rest + δ
  timer : (t.pre.ctx i).mode = .monitoring → ∀ timer ∈ (t.pre.ctx i).deadlineTimer,
    timer.fired = false → t.act.env.start ≤ timer.due + δ

/-- **The execution is punctual** for context `i`, up to the latency `δ`. -/
def Punctual (δ : Int) (i : s.Ix) (x : Execution (system s)) : Prop :=
  ∀ tr t tr', x.steps = tr ++ t :: tr' → OnTime δ i tr t

theorem arrived_snoc (id : ℕ) : arrived i (tr ++ [t]) id =
    if t.act.workerOf i = some id ∨ (t.pre.ctx i).spawned ≤ id then t.post.now
    else arrived i tr id := by
  unfold arrived
  rw [hist_snoc]
  rfl

theorem arrived_launched {id : ℕ} (h : (t.pre.ctx i).spawned ≤ id) :
    arrived i (tr ++ [t]) id = t.post.now := by
  rw [arrived_snoc, if_pos (.inr h)]

/-- The worker `n`, if it is still there, is done by `until`. -/
def DoneBy (δ : Int) (i : s.Ix) (n : ℕ) (limit : Int) (tr : List (Step s)) (w : World s) : Prop :=
  n < (w.ctx i).spawned ∧
    ∀ th ∈ (w.ctx i).threads, th.id = n → th.pc.finish (s.dev i) δ (arrived i tr n) ≤ limit

theorem doneBy_step {n : ℕ} {limit : Int} (ht : (system s).Takes t) (htime : OnTime δ i tr t)
    (h : DoneBy δ i n limit tr t.pre) : DoneBy δ i n limit (tr ++ [t]) t.post := by
  obtain ⟨hn, hdone⟩ := h
  refine ⟨hn.trans_le (spawned_le ht i), fun th hth hid => ?_⟩
  subst hid
  cases threadStep ht hth with
  | stays mem act =>
    rw [arrived_snoc, if_neg (not_or.mpr ⟨act, hn.not_ge⟩)]
    exact hdone th mem rfl
  | moves e pc c step =>
    rw [arrived_snoc, if_pos (.inl step.workerOf), (now_step ht).2, step.act]
    have hstart := htime.workers _ step.mem
    have hshort := htime.short
    rw [step.act] at hstart hshort
    have hseg : (Ctx.segment (s.dev i) (t.pre.peersOf i) e (t.pre.ctx i).quiet pc).2 = some th.pc :=
      congrArg Prod.snd step.seg
    exact (Ctx.finish_segment hshort hstart hseg).trans (hdone _ step.mem rfl)
  | launched e k act launch =>
    have hnew := launch.id
    omega

/-- A worker that is still there starts its next step before it must be done. -/
theorem DoneBy.start_le {limit : Int} {th : Thread} (h : DoneBy δ i th.id limit tr t.pre)
    (htime : OnTime δ i tr t) (hth : th ∈ (t.pre.ctx i).threads) : t.act.env.start ≤ limit := by
  have hstop := Ctx.stop_le_finish (d := s.dev i) htime.short (htime.workers th hth)
  have hdone := h.2 th hth rfl
  have hspan := t.act.env.start_le_stop
  omega

theorem doneBy_launch {limit : Int} {th : Thread} (hs : (t.post.ctx i).Sound (s.dev i))
    (hth : th ∈ (t.post.ctx i).threads) (hnew : (t.pre.ctx i).spawned ≤ th.id)
    (hle : th.pc.finish (s.dev i) δ t.post.now ≤ limit) :
    DoneBy δ i th.id limit (tr ++ [t]) t.post := by
  refine ⟨hs.lt_spawned th hth, fun th' hth' hid => ?_⟩
  obtain rfl := hs.eq_of_id hth' hth hid
  rwa [arrived_launched hnew]

/-- **No worker outlives its time**: whatever finds alive the worker that was launched by the step `l`
starts before that is up. -/
def WorkersFinish (δ : Int) (i : s.Ix) (x : Execution (system s)) : Prop :=
  ∀ before l between t after, x.steps = before ++ l :: (between ++ t :: after) →
    ∀ th ∈ (l.post.ctx i).threads, (l.pre.ctx i).spawned ≤ th.id →
      (∃ th' ∈ (t.pre.ctx i).threads, th'.id = th.id) →
      t.act.env.start ≤ th.pc.finish (s.dev i) δ l.post.now

/-- **In punctual executions no worker outlives its time.** -/
theorem workersFinish (x : Execution (system s)) (hx : Punctual δ i x) : WorkersFinish δ i x := by
  rintro before l between t after hsteps th hth hnew ⟨th', hlive, hid⟩
  have hrun := x.run
  rw [hsteps] at hrun
  obtain ⟨hr₀, hl, hr⟩ := hrun.around
  obtain ⟨hr₁, ht, -⟩ := hr.around
  have hs : (l.post.ctx i).Sound (s.dev i) :=
    Reachable.sound ⟨x.start, before ++ [l], x.init, hr₀.append (Run.single hl)⟩ i
  have hdone := hr₁.inv_steps (J := DoneBy δ i th.id (th.pc.finish (s.dev i) δ l.post.now))
    (C := OnTime δ i) (fun _ _ ht htime h => doneBy_step ht htime h) (before ++ [l])
    (doneBy_launch hs hth hnew le_rfl) fun tr₁ t₁ tr₂ h => hx _ _ (tr₂ ++ t :: after) <| by
      rw [hsteps, h]
      simp
  rw [← hid] at hdone
  refine hdone.start_le (hx _ t after ?_) hlive
  rw [hsteps]
  simp

/-! ## The answer to an outage -/

/-- The longest phase of monitoring. -/
def UPSDeviceConfig.phaseTime (d : UPSDeviceConfig) : Int :=
  max 0 (max d.timing.desktopOfflineWait
    (max d.timing.desktopSuspendWait d.timing.desktopOnlinePromptWait))

/-- **How long an outage takes at most**, from the call that notices it. -/
def UPSDeviceConfig.responseTime (d : UPSDeviceConfig) (δ : Int) : Int :=
  d.phaseTime + 2 * δ + d.workTime δ

/-- The context is in an outage that is still to be answered. -/
def Ctx.Responding (c : Ctx) : Prop := c.mode = .monitoring ∨ c.mode = .shuttingDown

instance (c : Ctx) : Decidable c.Responding := by unfold Ctx.Responding; infer_instance

theorem Ctx.startTimer_due_le {d : UPSDeviceConfig} {e : Env} (phase : Phase) :
    (startTimer d e phase).due ≤ e.stop + d.phaseTime := by
  have hdl := e.le_stop .deadline
  have hrem := e.le_stop .remaining
  have hwait : phaseWait d phase ≤ d.phaseTime := by
    cases phase <;> simp only [phaseWait, UPSDeviceConfig.phaseTime] <;> omega
  have hpos : 0 ≤ d.phaseTime := le_max_left _ _
  simp only [startTimer]
  omega

/-- In monitoring the timer is armed and due by `due`; in `shutting_down` some worker is done by
`limit`. -/
def Pending (δ : Int) (i : s.Ix) (due limit : Int) (tr : List (Step s)) (w : World s) : Prop :=
  ((w.ctx i).mode = .monitoring ∧
    ∃ timer, (w.ctx i).deadlineTimer = some timer ∧ timer.fired = false ∧ timer.due ≤ due) ∨
  ((w.ctx i).mode = .shuttingDown ∧ ∃ th ∈ (w.ctx i).threads, DoneBy δ i th.id limit tr w)

theorem Pending.start_le {due limit : Int} (h : Pending δ i due limit tr t.pre)
    (htime : OnTime δ i tr t) (hle : due + δ ≤ limit) : t.act.env.start ≤ limit := by
  rcases h with ⟨hm, timer, htimer, hf, hdue⟩ | ⟨-, th, hth, hdone⟩
  · have hstart := htime.timer hm timer htimer hf
    omega
  · exact hdone.start_le htime hth

theorem timer_of_monitoring (ht : (system s).Takes t) (hm : (t.pre.ctx i).mode = .monitoring)
    (hm' : (t.post.ctx i).mode = .monitoring) :
    (t.post.ctx i).deadlineTimer = (t.pre.ctx i).deadlineTimer := by
  cases ctxStep ht i with
  | handler e k act hk exec =>
    cases Ctx.move_handler hk exec with
    | keep _ _ _ _ timer => exact timer (.inl hm)
    | start mode => rcases mode with h | h <;> exact absurd (hm.symm.trans h) (by decide)
    | strike _ _ mode' => exact absurd (mode'.symm.trans hm') (by decide)
    | standDown _ mode' => exact absurd (mode'.symm.trans hm') (by decide)
  | worker e th c pc step =>
    rw [step.post]
    rcases step.outcome.orch_eq with ⟨-, htimer⟩ | ⟨hsd, -⟩
    · exact htimer
    · exact absurd (hm.symm.trans hsd) (by decide)
  | other j e k act hj post => rw [post]; rfl
  | restart e act post =>
    rw [post] at hm'
    exact absurd ((Ctx.reset_frame e).1.symm.trans hm') (by decide)

theorem shuttingDown_of_responding (ht : (system s).Takes t)
    (hm : (t.pre.ctx i).mode = .shuttingDown) (hm' : (t.post.ctx i).Responding) :
    (t.post.ctx i).mode = .shuttingDown := by
  refine hm'.resolve_left fun hmon => ?_
  cases ctxStep ht i with
  | handler e k act hk exec =>
    cases Ctx.move_handler hk exec with
    | keep mode => exact absurd ((mode.symm.trans hmon).symm.trans hm) (by decide)
    | start mode => rcases mode with h | h <;> exact absurd (hm.symm.trans h) (by decide)
    | strike _ mode => exact mode hm
    | standDown _ mode' => exact absurd (mode'.symm.trans hmon) (by decide)
  | worker e th c pc step =>
    rw [step.post] at hmon
    rcases step.outcome.orch_eq with ⟨ho, -⟩ | ⟨-, -, -, hm', -⟩
    · have hc : c.mode = .shuttingDown := (congrArg OrchState.mode ho).trans hm
      exact absurd (hc.symm.trans hmon) (by decide)
    · exact absurd (hm'.symm.trans hmon) (by decide)
  | other j e k act hj post =>
    rw [post] at hmon
    exact absurd (hm.symm.trans hmon) (by decide)
  | restart e act post =>
    rw [post] at hmon
    exact absurd ((Ctx.reset_frame e).1.symm.trans hmon) (by decide)

theorem isLaunch_of_enters (ht : (system s).Takes t) (hs : (t.pre.ctx i).Sound (s.dev i)) {pc : Pc}
    (hth : ⟨(t.pre.ctx i).spawned, pc⟩ ∈ (t.post.ctx i).threads) : pc.isLaunch = true := by
  cases threadStep ht hth with
  | stays mem => exact absurd (hs.lt_spawned _ mem) (lt_irrefl _)
  | moves e pc₀ c step => exact absurd (hs.lt_spawned _ step.mem) (lt_irrefl _)
  | launched e k act launch => exact launch.pc

theorem pending_of_enters {due limit : Int} (ht : (system s).Takes t)
    (hs : (t.pre.ctx i).Sound (s.dev i)) (he : Enters i t) (hδ : 0 ≤ δ)
    (hle : t.post.now + (s.dev i).workTime δ ≤ limit) :
    Pending δ i due limit (tr ++ [t]) t.post := by
  obtain ⟨⟨pc, hthreads⟩, -⟩ := launch_of_enters ht he
  have hth : ⟨(t.pre.ctx i).spawned, pc⟩ ∈ (t.post.ctx i).threads := by simp [hthreads]
  have hlaunch := isLaunch_of_enters ht hs hth
  exact .inr ⟨he.2, _, hth, doneBy_launch (sound_step ht hs) hth le_rfl
    ((Ctx.finish_le_workTime hδ hlaunch).trans hle)⟩

/-- The call that notices an outage arms the timer, or launches a worker at once. -/
theorem pending_of_begins (ht : (system s).Takes t) (hs : (t.pre.ctx i).Sound (s.dev i))
    (hδ : 0 ≤ δ) (hb : BeginsMonitoring i t) :
    Pending δ i (t.post.now + (s.dev i).phaseTime) (t.post.now + (s.dev i).responseTime δ)
      (tr ++ [t]) t.post := by
  obtain ⟨hm, hmon | hsd⟩ := hb
  · refine .inl ⟨hmon, ?_⟩
    obtain ⟨timer, htimer, hf⟩ := (sound_step ht hs).armed hmon
    refine ⟨timer, htimer, hf, ?_⟩
    cases ctxStep ht i with
    | handler e k act hk exec =>
      have hstop : t.post.now = e.stop := by
        rw [(now_step ht).2, act]
        rfl
      obtain ⟨ho, -, -⟩ := Ctx.noteReport_frame (c := (t.pre.ctx i).quiet) (e := e) (k := k)
      have hmode : ((t.pre.ctx i).quiet.noteReport e k).mode = (t.pre.ctx i).mode :=
        congrArg OrchState.mode ho
      rw [← hmode] at hm
      have hne : ((t.pre.ctx i).quiet.noteReport e k).mode ≠ .monitoring := by
        rcases hm with hm | hm <;> rw [hm] <;> decide
      cases Ctx.acted_handler hk exec with
      | keep orch => exact absurd ((congrArg OrchState.mode orch).symm.trans hmon) hne
      | start mode orch htm =>
        rw [hstop, ← Option.some.inj (htm.symm.trans htimer)]
        exact Ctx.startTimer_due_le _
      | strike r mode => exact absurd mode hne
      | startStrike r mode low report orch =>
        exact absurd ((congrArg OrchState.mode orch).symm.trans hmon) (by simp)
      | suspend call role mode => exact absurd mode hne
      | confirm status call down role mode => exact absurd mode hne
      | reset mode report alone orch =>
        exact absurd ((congrArg OrchState.mode orch).symm.trans hmon) (by decide)
    | worker e th c pc step =>
      rw [step.post] at hmon
      rcases step.outcome.orch_eq with ⟨hor, -⟩ | ⟨-, -, -, hhandled, -⟩
      · have hc : (t.pre.ctx i).mode = .monitoring := (congrArg OrchState.mode hor).symm.trans hmon
        rcases hm with hm | hm <;> exact absurd (hm.symm.trans hc) (by decide)
      · exact absurd (hhandled.symm.trans hmon) (by decide)
    | other j e k act hj post =>
      rw [post] at hmon
      rcases hm with hm | hm <;> exact absurd (hm.symm.trans hmon) (by decide)
    | restart e act post =>
      rw [post] at hmon
      exact absurd ((Ctx.reset_frame e).1.symm.trans hmon) (by decide)
  · have hne : (t.pre.ctx i).mode ≠ .shuttingDown := by
      rcases hm with hm | hm <;> rw [hm] <;> decide
    refine pending_of_enters ht hs ⟨hne, hsd⟩ hδ ?_
    have hpos : 0 ≤ (s.dev i).phaseTime := le_max_left _ _
    unfold UPSDeviceConfig.responseTime
    omega

/-- **A step of an outage** leaves it pending, or has a terminal effect. -/
theorem pending_step {due limit : Int} (ht : (system s).Takes t)
    (hs : (t.pre.ctx i).Sound (s.dev i)) (htime : OnTime δ i tr t)
    (hlimit : due + 2 * δ + (s.dev i).workTime δ ≤ limit) (hr : (t.post.ctx i).Responding)
    (h : Pending δ i due limit tr t.pre) :
    Pending δ i due limit (tr ++ [t]) t.post ∨ TerminalEffect i t := by
  have hshort := htime.short
  have hspan := t.act.env.start_le_stop
  rcases h with ⟨hm, timer, htimer, hf, hdue⟩ | ⟨hm, th, hth, hdone⟩
  · rcases hr with hmon | hsd
    · exact .inl (.inl ⟨hmon, timer, (timer_of_monitoring ht hm hmon).trans htimer, hf, hdue⟩)
    · have hne : (t.pre.ctx i).mode ≠ .shuttingDown := by
        rw [hm]
        decide
      have hstart := htime.timer hm timer htimer hf
      have hstop := (now_step ht).2
      exact .inl (pending_of_enters ht hs ⟨hne, hsd⟩ (by omega) (by omega))
  · have hsd := shuttingDown_of_responding ht hm hr
    rcases worker_stays ht hm hsd hth with ⟨th', hth', hid⟩ | heff
    · exact .inl (.inr ⟨hsd, th', hth', hid ▸ doneBy_step ht htime hdone⟩)
    · exact .inr heff

/-- **Every outage is answered in time**: one that a context is still responding to when more than its
response time has gone by has had a terminal effect. -/
def AnsweredInTime (δ : Int) (i : s.Ix) (x : Execution (system s)) : Prop :=
  ∀ before b outage t after, x.steps = before ++ b :: (outage ++ t :: after) →
    BeginsMonitoring i b → (∀ t' ∈ outage, (t'.post.ctx i).Responding) →
    b.post.now + (s.dev i).responseTime δ < t.act.env.start →
    ∃ t' ∈ b :: outage, TerminalEffect i t'

theorem terminalEffect_of_late {x : Execution (system s)} (hx : Punctual δ i x)
    {before outage after : List (Step s)} {b : Step s}
    (hsteps : x.steps = before ++ b :: (outage ++ t :: after)) (hb : BeginsMonitoring i b)
    (hout : ∀ t' ∈ outage, (t'.post.ctx i).Responding)
    (hlate : b.post.now + (s.dev i).responseTime δ < t.act.env.start) :
    ∃ t' ∈ b :: outage, TerminalEffect i t' := by
  have hrun := x.run
  rw [hsteps] at hrun
  obtain ⟨hr₀, hb₀, hr⟩ := hrun.around
  obtain ⟨hr₁, ht, -⟩ := hr.around
  have hsound : (b.pre.ctx i).Sound (s.dev i) := Reachable.sound ⟨x.start, before, x.init, hr₀⟩ i
  have htime : ∀ tr₁ t₁ tr₂, b :: (outage ++ t :: after) = tr₁ ++ t₁ :: tr₂ →
      OnTime δ i (before ++ tr₁) t₁ := fun tr₁ t₁ tr₂ h => hx _ _ tr₂ (by rw [hsteps, h]; simp)
  have hδ : 0 ≤ δ := by
    have hshort := (htime [] b _ rfl).short
    have hspan := b.act.env.start_le_stop
    omega
  -- until the first terminal effect the outage is pending
  let due := b.post.now + (s.dev i).phaseTime
  let limit := b.post.now + (s.dev i).responseTime δ
  have hinv := hr₁.inv_steps
    (J := fun tr w => (w.ctx i).Sound (s.dev i) ∧ ∃ ep, tr = before ++ b :: ep ∧
      (Pending δ i due limit tr w ∨ ∃ t' ∈ b :: ep, TerminalEffect i t'))
    (C := fun tr t => OnTime δ i tr t ∧ (t.post.ctx i).Responding)
    (fun tr t ht hC h => by
      obtain ⟨hs, ep, rfl, hp⟩ := h
      refine ⟨sound_step ht hs, ep ++ [t], by simp, ?_⟩
      rcases hp with hp | ⟨t', ht', heff⟩
      · rcases pending_step ht hs hC.1 (by simp only [due, limit, UPSDeviceConfig.responseTime]; omega)
          hC.2 hp with hp | heff
        · exact .inl hp
        · exact .inr ⟨t, by simp, heff⟩
      · exact .inr ⟨t', by simpa using Or.imp_right Or.inl (List.mem_cons.mp ht'), heff⟩)
    (before ++ [b]) ⟨sound_step hb₀ hsound, [], rfl, .inl (pending_of_begins hb₀ hsound hδ hb)⟩
    (fun tr₁ t₁ tr₂ h => ⟨by
      have := htime (b :: tr₁) t₁ (tr₂ ++ t :: after) (by rw [h]; simp)
      rwa [List.append_assoc], hout t₁ (by simp [h])⟩)
  obtain ⟨-, ep, hep, hp⟩ := hinv
  obtain rfl : outage = ep := by simpa using hep
  refine hp.resolve_left fun hp => ?_
  have hlast := htime (b :: outage) t after rfl
  have hstart := hp.start_le (t := t) (by rwa [List.append_assoc]) ?_
  · exact absurd hlate (not_lt.mpr hstart)
  · have hwork : 0 ≤ (s.dev i).workTime δ := le_trans (by omega) (le_max_left _ _)
    simp only [due, limit, UPSDeviceConfig.responseTime]
    omega

/-- **Punctual executions answer every outage in time.** -/
theorem answeredInTime (x : Execution (system s)) (hx : Punctual δ i x) : AnsweredInTime δ i x := by
  intro before b outage t after hsteps hb hout hlate
  exact terminalEffect_of_late hx hsteps hb hout hlate

/-! ## A prompt that nobody answers -/

/-- `OnTime`, computed. -/
def onTime (δ : Int) (i : s.Ix) (tr : List (Step s)) (t : Step s) : Bool :=
  t.act.env.stop ≤ t.act.env.start + δ &&
    (t.pre.ctx i).threads.all (fun th => t.act.env.start ≤ arrived i tr th.id + th.pc.rest + δ) &&
    ((t.pre.ctx i).mode ≠ .monitoring || (t.pre.ctx i).deadlineTimer.all fun timer =>
      timer.fired || t.act.env.start ≤ timer.due + δ)

theorem onTime_of_eq_true (h : onTime δ i tr t = true) : OnTime δ i tr t := by
  simp only [onTime, Bool.and_eq_true, Bool.or_eq_true, decide_eq_true_eq, List.all_eq_true] at h
  obtain ⟨⟨hshort, hworkers⟩, htimer⟩ := h
  refine ⟨hshort, hworkers, fun hm timer hmem hf => ?_⟩
  have hall := htimer.resolve_left (not_not.mpr hm)
  rw [Option.mem_def.mp hmem, Option.all_some, hf, Bool.false_or] at hall
  exact of_decide_eq_true hall

theorem punctual_of_take {x : Execution (system s)}
    (h : ((List.range x.steps.length).all fun k =>
      (x.steps[k]?).all fun t => onTime δ i (x.steps.take k) t) = true) : Punctual δ i x := by
  intro tr t tr' hsteps
  rw [List.all_eq_true] at h
  have hk := h tr.length (by simp [hsteps])
  simp only [hsteps, List.getElem?_append_right le_rfl, Nat.sub_self, List.getElem?_cons_zero,
    List.take_left, Option.all_some] at hk
  exact onTime_of_eq_true hk

/-- The outage begins at 0, its prompt is over at 180, and the server goes down at 300. -/
def unansweredPrompt : List (Action deskSite) :=
  [.call mainUps (.at 0 online) (.upsStatus "OB"), .call mainUps (.at 180) .timer,
    .call mainUps (.at 180) (.worker 0), .call mainUps (.at 180) (.worker 0),
    .call mainUps (.at 300) (.worker 0), .call mainUps (.at 5000) (.upsStatus "OB")]

theorem workersFinish_unansweredPrompt : ∃ x : Execution (system deskSite),
    WorkersFinish 200 mainUps x ∧ ∃ t ∈ x.steps, (t.pre.ctx mainUps).threads ≠ [] := by
  obtain ⟨x, hx, hlive⟩ := exists_execution (S := system deskSite) unansweredPrompt
    (P := fun tr => ((List.range tr.length).all fun k =>
      (tr[k]?).all fun t => onTime 200 mainUps (tr.take k) t) = true ∧
      ∃ t ∈ tr, (t.pre.ctx mainUps).threads ≠ [])
    ⟨.at 0, fun _ => {}, rfl⟩ (by decide)
  exact ⟨x, workersFinish x (punctual_of_take hx), hlive⟩

theorem answeredInTime_unansweredPrompt : ∃ x : Execution (system deskSite),
    AnsweredInTime 200 mainUps x ∧ (∃ b ∈ x.steps, BeginsMonitoring mainUps b) ∧
      ∃ t ∈ x.steps, (t.post.ctx mainUps).Responding ∧
        (deskSite.dev mainUps).responseTime 200 < t.act.env.start := by
  obtain ⟨x, hx, hb, hlate⟩ := exists_execution (S := system deskSite) unansweredPrompt
    (P := fun tr => ((List.range tr.length).all fun k =>
      (tr[k]?).all fun t => onTime 200 mainUps (tr.take k) t) = true ∧
      (∃ b ∈ tr, ((b.pre.ctx mainUps).mode = .idle ∨ (b.pre.ctx mainUps).mode = .desktopHandled) ∧
        ((b.post.ctx mainUps).mode = .monitoring ∨ (b.post.ctx mainUps).mode = .shuttingDown)) ∧
      ∃ t ∈ tr, (t.post.ctx mainUps).Responding ∧
        (deskSite.dev mainUps).responseTime 200 < t.act.env.start)
    ⟨.at 0, fun _ => {}, rfl⟩ (by decide)
  exact ⟨x, answeredInTime x (punctual_of_take hx), hb, hlate⟩

end UpsOrchestrator

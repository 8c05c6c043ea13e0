import UpsOrchestrator.ShutdownWindow

/-!
# Wake-on-LAN retries

One run of a worker by itself: at every step it is given any context, any view of the peers, any
answers and a clock that does not go back.

* `workerSystem`: the runs of a worker; **`workerRun_of_site`**: every worker of a site makes one.
* `WolStep`: what a step of the wake worker does about magic packets; `wolStep_segment`.
* `WolRetryLaw`: when magic packets are sent; **`wolRetryLaw`**: in every run of the wake worker.
-/

set_option autoImplicit false

namespace UpsOrchestrator

open Lts

/-! ## A worker by itself -/

/-- The end of the last step of a worker, where it goes on, and what that step did. -/
structure WorkerState where
  now : Int
  pc : Option Pc
  out : List Effect

/-- What a worker finds in a step. -/
structure WorkerAnswers where
  ctx : Ctx
  peers : Peers
  env : Env

/-- One step of a worker that has not returned. -/
def WorkerState.step (d : UPSDeviceConfig) (w : WorkerState) (a : WorkerAnswers) : Option WorkerState :=
  match w.pc with
  | none => none
  | some pc =>
    if w.now ≤ a.env.start then
      let r := Ctx.segment d a.peers a.env a.ctx.quiet pc
      some { now := a.env.stop, pc := r.2, out := r.1.out }
    else none

/-- **The runs of a worker** that is launched at `pc`. -/
def workerSystem (d : UPSDeviceConfig) (pc : Pc) : System WorkerState WorkerAnswers where
  init w := w.pc = some pc
  step := WorkerState.step d

abbrev WorkerTransition : Type := Transition WorkerState WorkerAnswers

variable {d : UPSDeviceConfig} {pc₀ : Pc} {t : WorkerTransition} {tr : List WorkerTransition}
  {w : WorkerState}

theorem worker_takes (h : (workerSystem d pc₀).Takes t) : ∃ pc, t.pre.pc = some pc ∧
    t.pre.now ≤ t.act.env.start ∧ t.post.now = t.act.env.stop ∧
    t.post.pc = (Ctx.segment d t.act.peers t.act.env t.act.ctx.quiet pc).2 ∧
    t.post.out = (Ctx.segment d t.act.peers t.act.env t.act.ctx.quiet pc).1.out := by
  obtain ⟨u, a, v⟩ := t
  change u.step d a = some v at h
  unfold WorkerState.step at h
  cases hpc : u.pc with
  | none => simp [hpc] at h
  | some pc =>
    simp only [hpc, Option.ite_none_right_eq_some, Option.some.injEq] at h
    obtain ⟨hle, rfl⟩ := h
    exact ⟨pc, rfl, hle, rfl, rfl, rfl⟩

/-! ## Magic packets -/

theorem Pc.wakes_of_wakeUntil {pc : Pc} {deadline : Int} (h : pc.wakeUntil = some deadline) :
    pc.wakes = true := by
  cases pc <;> first | rfl | exact absurd h (by simp [Pc.wakeUntil])

namespace Ctx

variable {p : Peers} {e : Env} {c : Ctx} {pc : Pc}

variable (d e) in
/-- The deadline and the next retry that a pass through the wake loop starts with. -/
def nextPass : Pc → Option (Int × Int)
  | .sendingWol => some (e.clock .deadline + d.timing.wakeOnlineTimeout,
      e.clock .retryBase + d.timing.wolRetryInterval)
  | .wakeSleeping deadline nextRetry => some (deadline, nextRetry)
  | _ => none

variable (d e c) in
/-- **A step of a worker, as far as magic packets go**: from where, to where, and how many. -/
inductive WolStep : Pc → Option Pc → ℕ → Prop
  | first : WolStep .wakeThenShutdown (some .sendingWol) 1
  | enter (pc : Pc) (deadline nextRetry : Int) (pass : nextPass d e pc = some (deadline, nextRetry))
      (loop : e.clock .loop < deadline) (mode : c.mode = .shuttingDown) :
      WolStep pc (some (.fetchingState deadline nextRetry)) 0
  | resend (deadline nextRetry : Int) (interval : 0 < d.timing.wolRetryInterval)
      (due : nextRetry ≤ e.clock .retryCheck) (offline : ¬OnlineReply d e) :
      WolStep (.fetchingState deadline nextRetry) (some (.resendingWol deadline)) 1
  | sleep (deadline nextRetry : Int) (offline : ¬OnlineReply d e) :
      WolStep (.fetchingState deadline nextRetry) (some (.wakeSleeping deadline nextRetry)) 0
  | resent (deadline : Int) : WolStep (.resendingWol deadline)
      (some (.wakeSleeping deadline (e.clock .retryBase + d.timing.wolRetryInterval))) 0
  | leave (pc : Pc) (pc' : Option Pc) (start : pc ≠ .wakeThenShutdown)
      (gone : ∀ pc₁, pc' = some pc₁ → pc₁.wakes = false) :
      WolStep pc pc' 0

/-- How many magic packets are among the effects. -/
def wols (out : List Effect) : ℕ := out.countP (· = .sendWol)

theorem wolStep_shutdownAfterWake (hs : pc ≠ .wakeThenShutdown) (hc : c.out = []) :
    ∀ b : Ctx, b.out = c.out →
    WolStep d e c pc (b.shutdownAfterWake e).2 (wols (b.shutdownAfterWake e).1.out) := by
  intro b hb
  unfold shutdownAfterWake
  split_ifs
  · rw [hb, hc]
    exact .leave pc none hs (by simp)
  · have hzero : wols (b.pushCriticalShutdown e).1.out = 0 := by
      simp [pushCriticalShutdown, saveAndPush, saveCommand, emit, hb, hc, wols]
    rw [hzero]
    refine .leave pc _ hs fun pc₁ h => ?_
    obtain rfl := Option.some.inj h
    rfl

theorem wolStep_wakeIteration {deadline nextRetry : Int} (hs : pc ≠ .wakeThenShutdown)
    (hc : c.out = []) (hp : nextPass d e pc = some (deadline, nextRetry)) :
    WolStep d e c pc (c.wakeIteration e deadline nextRetry).2
      (wols (c.wakeIteration e deadline nextRetry).1.out) := by
  unfold wakeIteration
  split_ifs with h1 h2
  · rw [hc]
    exact .leave pc none hs (by simp)
  · rw [hc]
    exact .enter pc deadline nextRetry hp h1 (not_not.mp h2)
  · exact wolStep_shutdownAfterWake hs hc c rfl

theorem wolStep_wakeAfterFetch {deadline nextRetry : Int} (hc : c.out = []) :
    WolStep d e c (.fetchingState deadline nextRetry) (c.wakeAfterFetch d e deadline nextRetry).2
      (wols (c.wakeAfterFetch d e deadline nextRetry).1.out) := by
  have hout : (c.fetchStateFromDesktop d e).1.out = c.out := by rw [fetchStateFromDesktop_fst]
  have honline := onlineReply_iff (d := d) (e := e) (c := c)
  simp only [wakeAfterFetch]
  split_ifs with h1 h2
  · exact wolStep_shutdownAfterWake (by simp) hc _ hout
  · have hone : wols ((c.fetchStateFromDesktop d e).1.emit .sendWol).out = 1 := by
      simp [emit, hout, hc, wols]
    rw [hone]
    exact .resend deadline nextRetry h2.1 h2.2 (mt honline.mp h1)
  · rw [hout, hc]
    exact .sleep deadline nextRetry (mt honline.mp h1)

theorem wolStep_leave {r : Ctx × Option Pc} (hs : pc ≠ .wakeThenShutdown) (hout : wols r.1.out = 0)
    (hpc : ∀ pc₁, r.2 = some pc₁ → pc₁.wakes = false) : WolStep d e c pc r.2 (wols r.1.out) := by
  rw [hout]
  exact .leave pc r.2 hs hpc

theorem wolStep_terminalAction (hs : pc ≠ .wakeThenShutdown) (hc : c.out = []) :
    WolStep d e c pc none (wols (c.terminalAction d).out) := by
  refine wolStep_leave (r := (c.terminalAction d, none)) hs ?_ (by simp)
  unfold terminalAction
  split_ifs <;> simp [leaveMonitoring, emit, hc, wols]

theorem wolStep_waitIteration (deadline : Int) (hs : pc ≠ .wakeThenShutdown) (hc : c.out = []) :
    WolStep d e c pc (c.waitIteration d e deadline).2
      (wols (c.waitIteration d e deadline).1.out) := by
  unfold waitIteration
  split_ifs
  · exact wolStep_leave hs (by rw [hc]; rfl) (by simp)
  · exact wolStep_terminalAction hs hc
  · exact wolStep_leave hs (by rw [hc]; rfl) (by simp [Pc.wakes, Pc.unpushed])
  · exact wolStep_terminalAction hs hc

theorem wolStep_holdIteration (deadline : Int) (hs : pc ≠ .wakeThenShutdown) (hc : c.out = []) :
    WolStep d e c pc (c.holdIteration p e deadline).2
      (wols (c.holdIteration p e deadline).1.out) := by
  refine wolStep_leave hs ?_ ?_
  · unfold holdIteration
    split_ifs <;> simp [emit, hc, wols]
  · unfold holdIteration
    split_ifs <;> simp [Pc.wakes, Pc.unpushed]

theorem wolStep_segment (pc : Pc) (hc : c.out = []) :
    WolStep d e c pc (segment d p e c pc).2 (wols (segment d p e c pc).1.out) := by
  cases pc with
  | terminalAction => exact wolStep_terminalAction (by simp) hc
  | observerPowerOff =>
    simp only [segment, observerPowerOffWhenDesktopSafe]
    split_ifs
    · exact wolStep_leave (by simp) (by simp [emit, hc, wols]) (by simp)
    · exact wolStep_holdIteration _ (by simp) hc
  | observerHolding deadline => exact wolStep_holdIteration _ (by simp) hc
  | forceShutdownDesktop =>
    refine wolStep_leave (by simp) ?_ (by simp [segment, pushCriticalShutdown, Pc.wakes, Pc.unpushed])
    simp [segment, pushCriticalShutdown, saveAndPush, saveCommand, emit, hc, wols]
  | pushingShutdown => exact wolStep_waitIteration _ (by simp) hc
  | waitingDesktop deadline => exact wolStep_waitIteration _ (by simp) hc
  | wakeThenShutdown =>
    have hone : wols (segment d p e c .wakeThenShutdown).1.out = 1 := by
      simp [segment, emit, hc, wols]
    rw [hone]
    exact .first
  | sendingWol => exact wolStep_wakeIteration (by simp) hc rfl
  | fetchingState deadline nextRetry => exact wolStep_wakeAfterFetch hc
  | resendingWol deadline =>
    have hzero : wols (segment d p e c (.resendingWol deadline)).1.out = 0 := by
      simp [segment, hc, wols]
    rw [hzero]
    exact .resent deadline
  | wakeSleeping deadline nextRetry => exact wolStep_wakeIteration (by simp) hc rfl

variable {pc' : Option Pc} {n : ℕ} {deadline nextRetry : Int}

/-- A pass starts after the first magic packet, or after a sleep. -/
theorem nextPass_cases (h : nextPass d e pc = some (deadline, nextRetry)) :
    (pc = .sendingWol ∧ deadline = e.clock .deadline + d.timing.wakeOnlineTimeout ∧
      nextRetry = e.clock .retryBase + d.timing.wolRetryInterval) ∨
      pc = .wakeSleeping deadline nextRetry := by
  cases pc with
  | sendingWol =>
    obtain ⟨h1, h2⟩ := Prod.ext_iff.mp (Option.some.inj h)
    exact .inl ⟨rfl, h1.symm, h2.symm⟩
  | wakeSleeping dl nr =>
    obtain ⟨rfl, rfl⟩ := Prod.ext_iff.mp (Option.some.inj h)
    exact .inr rfl
  | _ => exact absurd h (by simp [nextPass])

theorem WolStep.once (h : WolStep d e c pc pc' n) (hi : d.timing.wolRetryInterval ≤ 0) :
    n = if pc = .wakeThenShutdown then 1 else 0 := by
  cases h with
  | first => rfl
  | enter _ _ _ pass => exact (if_neg fun h => by simp [h, nextPass] at pass).symm
  | resend _ _ interval => omega
  | sleep => rfl
  | resent => rfl
  | leave _ _ start => exact (if_neg start).symm

theorem WolStep.ne_start (h : WolStep d e c pc pc' n) : pc' ≠ some .wakeThenShutdown := by
  cases h with
  | leave _ _ _ gone => exact fun h => absurd (gone _ h) (by decide)
  | _ => simp

theorem WolStep.of_not_wakes (h : WolStep d e c pc pc' n) (hpc : pc.wakes = false) :
    n = 0 ∧ ∀ pc₁, pc' = some pc₁ → pc₁.wakes = false := by
  cases h with
  | leave _ _ _ gone => exact ⟨rfl, gone⟩
  | enter _ _ _ pass =>
    rcases nextPass_cases pass with ⟨rfl, -⟩ | rfl
    · exact absurd hpc (by decide)
    · exact absurd hpc (by simp [Pc.wakes, Pc.unpushed])
  | _ => exact absurd hpc (by simp [Pc.wakes, Pc.unpushed])

theorem WolStep.of_seen (h : WolStep d e c pc pc' n)
    (hseen : (pc.isFetching = true ∧ OnlineReply d e) ∨
      (ReadsMode d e pc ∧ c.mode ≠ .shuttingDown)) :
    n = 0 ∧ ∀ pc₁, pc' = some pc₁ → pc₁.wakes = false := by
  cases h with
  | leave _ _ _ gone => exact ⟨rfl, gone⟩
  | enter _ _ _ pass _ mode =>
    rcases hseen with ⟨hf, -⟩ | ⟨-, hm⟩
    · rcases nextPass_cases pass with ⟨rfl, -⟩ | rfl
      · exact absurd hf (by decide)
      · exact absurd hf (by simp [Pc.isFetching])
    · exact absurd mode hm
  | resend _ _ _ _ offline => exact absurd (hseen.elim And.right And.left) offline
  | sleep _ _ offline => exact absurd (hseen.elim And.right And.left) offline
  | first => exact hseen.elim (fun h => absurd h.1 (by decide)) fun h => h.1.elim
  | resent => exact hseen.elim (fun h => absurd h.1 (by simp [Pc.isFetching])) fun h => h.1.elim

end Ctx

/-! ## The law of a run -/

/-- The step ends in an attempt to wake the desktop. -/
def Attempts (t : WorkerTransition) : Prop := 0 < Ctx.wols t.post.out

/-- In the step the worker sees the desktop online, or another mode than `shutting_down`. -/
def SeesEnough (d : UPSDeviceConfig) (t : WorkerTransition) : Prop :=
  ∃ pc, t.pre.pc = some pc ∧
    ((pc.isFetching = true ∧ Ctx.OnlineReply d t.act.env) ∨
      (Ctx.ReadsMode d t.act.env pc ∧ t.act.ctx.mode ≠ .shuttingDown))

/-- The deadline is `wake_online_timeout` after the first magic packet was sent. -/
def WakeWindow (d : UPSDeviceConfig) (tr : List WorkerTransition) (deadline : Int) : Prop :=
  ∃ t ∈ tr, t.pre.pc = some .sendingWol ∧
    deadline = t.act.env.clock .deadline + d.timing.wakeOnlineTimeout

/-- **When magic packets are sent** in a run of the wake worker. -/
structure WolRetryLaw (d : UPSDeviceConfig) (tr : List WorkerTransition) : Prop where
  /-- Without a retry interval there is one attempt. -/
  once : d.timing.wolRetryInterval ≤ 0 → tr ≠ [] → (tr.map fun t => Ctx.wols t.post.out).sum = 1
  /-- An attempt begins at the end of a step; the next one is at least the interval later. -/
  apart : ∀ tr₁ t tr₂ t' tr₃, tr = tr₁ ++ t :: (tr₂ ++ t' :: tr₃) → Attempts t → Attempts t' →
    0 < d.timing.wolRetryInterval ∧
      t.act.env.stop + d.timing.wolRetryInterval ≤ t'.act.env.clock .retryCheck
  /-- An attempt other than the first is made in a pass through the loop that was entered before the
  wake window ended. -/
  inWindow : ∀ tr₁ t tr₂, tr = tr₁ ++ t :: tr₂ → tr₁ ≠ [] → Attempts t →
    ∃ tr₀ it deadline, tr₁ = tr₀ ++ [it] ∧ WakeWindow d tr₁ deadline ∧
      it.act.env.clock .loop < deadline
  /-- Nothing is sent once the worker has seen enough. -/
  stops : ∀ tr₁ t tr₂, tr = tr₁ ++ t :: tr₂ → SeesEnough d t → ∀ t' ∈ t :: tr₂, ¬Attempts t'

/-- **What is known after a run** of the wake worker. -/
structure WakeRun (d : UPSDeviceConfig) (tr : List WorkerTransition) (w : WorkerState) : Prop where
  now : ∀ t ∈ tr, t.act.env.stop ≤ w.now
  fresh : w.pc = some .wakeThenShutdown ↔ tr = []
  once : d.timing.wolRetryInterval ≤ 0 → tr ≠ [] → (tr.map fun t => Ctx.wols t.post.out).sum = 1
  next : ∀ deadline nextRetry, (w.pc = some (.fetchingState deadline nextRetry) ∨
      w.pc = some (.wakeSleeping deadline nextRetry)) →
    ∀ t ∈ tr, Attempts t → t.act.env.stop + d.timing.wolRetryInterval ≤ nextRetry
  window : ∀ pc deadline, w.pc = some pc → pc.wakeUntil = some deadline → WakeWindow d tr deadline
  entered : ∀ deadline nextRetry, w.pc = some (.fetchingState deadline nextRetry) →
    ∃ tr₀ it, tr = tr₀ ++ [it] ∧ it.act.env.clock .loop < deadline

theorem WakeWindow.snoc {deadline : Int} (h : WakeWindow d tr deadline) :
    WakeWindow d (tr ++ [t]) deadline :=
  let ⟨t', ht', h⟩ := h
  ⟨t', List.mem_append_left _ ht', h⟩

theorem wolStep_of_takes (h : (workerSystem d pc₀).Takes t) : ∃ pc, t.pre.pc = some pc ∧
    Ctx.WolStep d t.act.env t.act.ctx.quiet pc t.post.pc (Ctx.wols t.post.out) := by
  obtain ⟨pc, hpc, -, -, hpost, hout⟩ := worker_takes h
  refine ⟨pc, hpc, ?_⟩
  rw [hpost, hout]
  exact Ctx.wolStep_segment pc rfl

theorem WakeRun.next_snoc {pc : Pc} {pc' : Option Pc} {n : ℕ} {deadline nextRetry : Int}
    (h : WakeRun d tr w) (hpc : w.pc = some pc) (hle : w.now ≤ t.act.env.start)
    (hstep : Ctx.WolStep d t.act.env t.act.ctx.quiet pc pc' n)
    (hpost : pc' = some (.fetchingState deadline nextRetry) ∨
      pc' = some (.wakeSleeping deadline nextRetry)) :
    n = 0 ∧ ∀ t' ∈ tr, Attempts t' → t'.act.env.stop + d.timing.wolRetryInterval ≤ nextRetry := by
  -- what was sent before was sent before the retry interval starts
  have hbase : ∀ t' ∈ tr, t'.act.env.stop ≤ t.act.env.clock .retryBase := fun t' ht' =>
    ((h.now t' ht').trans hle).trans (t.act.env.start_le _)
  cases hstep with
  | first => simp at hpost
  | resend => simp at hpost
  | leave _ _ _ gone =>
    rcases hpost with hpost | hpost
    · exact absurd (gone _ hpost) (by simp [Pc.wakes, Pc.unpushed])
    · exact absurd (gone _ hpost) (by simp [Pc.wakes, Pc.unpushed])
  | sleep dl nr =>
    obtain ⟨-, rfl⟩ : dl = deadline ∧ nr = nextRetry := by simpa using hpost
    exact ⟨rfl, h.next _ _ (.inl hpc)⟩
  | resent dl =>
    obtain ⟨-, rfl⟩ : dl = deadline ∧
      t.act.env.clock .retryBase + d.timing.wolRetryInterval = nextRetry := by simpa using hpost
    refine ⟨rfl, fun t' ht' _ => ?_⟩
    have hprev := hbase t' ht'
    omega
  | enter _ dl nr pass =>
    obtain ⟨-, rfl⟩ : dl = deadline ∧ nr = nextRetry := by simpa using hpost
    refine ⟨rfl, fun t' ht' ha => ?_⟩
    rcases Ctx.nextPass_cases pass with ⟨-, -, hnr⟩ | rfl
    · have hprev := hbase t' ht'
      omega
    · exact h.next _ _ (.inr hpc) t' ht' ha

theorem WakeRun.window_snoc {pc pc₁ : Pc} {pc' : Option Pc} {n : ℕ} {deadline : Int}
    (h : WakeRun d tr t.pre) (hpc : t.pre.pc = some pc)
    (hstep : Ctx.WolStep d t.act.env t.act.ctx.quiet pc pc' n) (hpost : pc' = some pc₁)
    (hu : pc₁.wakeUntil = some deadline) : WakeWindow d (tr ++ [t]) deadline := by
  cases hstep with
  | first =>
    obtain rfl := Option.some.inj hpost
    exact absurd hu (by simp [Pc.wakeUntil])
  | leave _ _ _ gone =>
    exact absurd ((gone _ hpost).symm.trans (Pc.wakes_of_wakeUntil hu)) (by decide)
  | resend dl nr =>
    obtain rfl := Option.some.inj hpost
    exact (h.window _ _ hpc hu).snoc
  | sleep dl nr =>
    obtain rfl := Option.some.inj hpost
    exact (h.window _ _ hpc hu).snoc
  | resent dl =>
    obtain rfl := Option.some.inj hpost
    exact (h.window _ _ hpc hu).snoc
  | enter _ dl nr pass =>
    obtain rfl := Option.some.inj hpost
    obtain rfl : dl = deadline := Option.some.inj hu
    rcases Ctx.nextPass_cases pass with ⟨rfl, hdl, -⟩ | rfl
    · exact ⟨t, by simp, hpc, hdl⟩
    · exact (h.window _ _ hpc rfl).snoc

theorem WakeRun.snoc (ht : (workerSystem d pc₀).Takes t) (h : WakeRun d tr t.pre) :
    WakeRun d (tr ++ [t]) t.post := by
  obtain ⟨pc, hpc, hle, hnow, -, -⟩ := worker_takes ht
  obtain ⟨pc', hpc', hstep⟩ := wolStep_of_takes ht
  obtain rfl := Option.some.inj (hpc.symm.trans hpc')
  have hstop : t.act.env.start ≤ t.act.env.stop := t.act.env.start_le_stop
  have hne : tr ++ [t] ≠ [] := by simp
  refine ⟨fun t' ht' => ?_, ?_, fun hi _ => ?_, fun dl nr hpost t' ht' ha => ?_,
    fun pc₁ dl hpost hu => h.window_snoc hpc hstep hpost hu, fun dl nr hpost => ?_⟩
  · rcases List.mem_append.mp ht' with ht' | ht'
    · have hprev := h.now t' ht'
      omega
    · rw [List.mem_singleton.mp ht', hnow]
  · exact ⟨fun hp => absurd hp hstep.ne_start, fun hp => absurd hp hne⟩
  · rw [List.map_append, List.sum_append, List.map_singleton, List.sum_singleton, hstep.once hi]
    by_cases hstart : pc = .wakeThenShutdown
    · rw [h.fresh.mp (hpc.trans (congrArg some hstart)), if_pos hstart]
      rfl
    · have htr : tr ≠ [] := fun htr => hstart (Option.some.inj (hpc.symm.trans (h.fresh.mpr htr)))
      rw [h.once hi htr, if_neg hstart]
  · obtain ⟨hzero, hprev⟩ := h.next_snoc hpc hle hstep hpost
    rcases List.mem_append.mp ht' with ht' | ht'
    · exact hprev t' ht' ha
    · rw [List.mem_singleton.mp ht', Attempts, hzero] at ha
      exact absurd ha (lt_irrefl 0)
  · rw [hpost] at hstep
    generalize Ctx.wols t.post.out = n at hstep
    cases hstep with
    | enter _ _ _ _ loop => exact ⟨tr, t, rfl, loop⟩
    | leave _ _ _ gone => exact absurd (gone _ rfl) (by simp [Pc.wakes, Pc.unpushed])

theorem wakeRun_of_run {u : WorkerState} (hu : u.pc = some .wakeThenShutdown)
    (h : Run (workerSystem d .wakeThenShutdown) u tr w) : WakeRun d tr w := by
  induction h with
  | nil =>
    refine ⟨by simp, by simp [hu], fun _ h => absurd rfl h, by simp, fun pc dl hpc hd => ?_,
      fun dl nr hpc => ?_⟩
    · obtain rfl := Option.some.inj (hu.symm.trans hpc)
      exact absurd hd (by simp [Pc.wakeUntil])
    · exact absurd (hu.symm.trans hpc) (by simp)
  | snoc _ ha ih => exact ih.snoc ha

theorem WakeRun.attempt (ht : (workerSystem d pc₀).Takes t) (h : WakeRun d tr t.pre)
    (ha : Attempts t) : tr = [] ∨ ∃ deadline nextRetry, 0 < d.timing.wolRetryInterval ∧
      t.pre.pc = some (.fetchingState deadline nextRetry) ∧
      nextRetry ≤ t.act.env.clock .retryCheck := by
  obtain ⟨pc, hpc, hstep⟩ := wolStep_of_takes ht
  rw [Attempts] at ha
  generalize t.post.pc = pc' at hstep
  generalize Ctx.wols t.post.out = n at hstep ha
  cases hstep with
  | first => exact .inl (h.fresh.mp hpc)
  | resend dl nr interval due => exact .inr ⟨dl, nr, interval, hpc, due⟩
  | _ => exact absurd ha (lt_irrefl 0)

/-- **Magic packets are sent** as the retry law says, in every run of the wake worker. -/
theorem wolRetryLaw (x : Execution (workerSystem d .wakeThenShutdown)) : WolRetryLaw d x.steps := by
  have hrun : ∀ tr₁ t tr₂, x.steps = tr₁ ++ t :: tr₂ → WakeRun d tr₁ t.pre ∧
      (workerSystem d .wakeThenShutdown).Takes t ∧
      Run (workerSystem d .wakeThenShutdown) t.post tr₂ x.last := by
    intro tr₁ t tr₂ hsteps
    obtain ⟨h₁, ht, h₂⟩ := (hsteps ▸ x.run).around
    exact ⟨wakeRun_of_run x.init h₁, ht, h₂⟩
  refine ⟨(wakeRun_of_run x.init x.run).once, ?_, ?_, ?_⟩
  · intro tr₁ t tr₂ t' tr₃ hsteps ha ha'
    obtain ⟨hinv, ht', -⟩ := hrun (tr₁ ++ t :: tr₂) t' tr₃ (by simp [hsteps])
    rcases hinv.attempt ht' ha' with hnil | ⟨dl, nr, hi, hpc, hdue⟩
    · simp at hnil
    · have hnext := hinv.next dl nr (.inl hpc) t (by simp) ha
      exact ⟨hi, hnext.trans hdue⟩
  · intro tr₁ t tr₂ hsteps hne ha
    obtain ⟨hinv, ht, -⟩ := hrun tr₁ t tr₂ hsteps
    rcases hinv.attempt ht ha with hnil | ⟨dl, nr, -, hpc, -⟩
    · exact absurd hnil hne
    · obtain ⟨tr₀, it, htr, hloop⟩ := hinv.entered dl nr hpc
      exact ⟨tr₀, it, dl, htr, hinv.window _ dl hpc rfl, hloop⟩
  · intro tr₁ t tr₂ hsteps ⟨pc, hpc, hseen⟩ t' ht'
    obtain ⟨-, ht, h₂⟩ := hrun tr₁ t tr₂ hsteps
    obtain ⟨pc', hpc', hstep⟩ := wolStep_of_takes ht
    obtain rfl := Option.some.inj (hpc.symm.trans hpc')
    obtain ⟨hzero, hgone⟩ := hstep.of_seen hseen
    rcases List.mem_cons.mp ht' with rfl | ht'
    · rw [Attempts, hzero]
      exact lt_irrefl 0
    · -- it does not come back to the wake loop
      obtain ⟨tr₃, tr₄, -, h₃, ha, -⟩ := h₂.of_mem ht'
      have hleft := h₃.inv (I := fun w => ∀ pc, w.pc = some pc → pc.wakes = false)
        (fun t'' ht'' hpre => by
          obtain ⟨pc, hpc, hstep⟩ := wolStep_of_takes ht''
          exact (hstep.of_not_wakes (hpre pc hpc)).2) hgone
      obtain ⟨pc, hpc, hstep⟩ := wolStep_of_takes ha
      rw [Attempts, (hstep.of_not_wakes (hleft pc hpc)).1]
      exact lt_irrefl 0

/-! ## The workers of a site -/

variable {s : Site} {i : s.Ix} {id : ℕ}

/-- What the worker `id` finds in the step, if the step is its own. -/
def answersOf (i : s.Ix) (id : ℕ) (t : Step s) : Option WorkerAnswers :=
  if t.act.workerOf i = some id then some ⟨t.pre.ctx i, t.pre.peersOf i, t.act.env⟩ else none

/-- The worker `id`, now at `pc`, has run by itself on what it found in the steps `tr`. -/
def RanAlone (i : s.Ix) (tr : List (Step s)) (now : Int) (id : ℕ) (pc : Option Pc)
    (out : List Effect → Prop) : Prop :=
  ∃ pc₀, pc₀.isLaunch = true ∧ ∃ y : Execution (workerSystem (s.dev i) pc₀),
    y.steps.map (·.act) = tr.filterMap (answersOf i id) ∧ y.last.pc = pc ∧ y.last.now ≤ now ∧
      out y.last.out

theorem RanAlone.moves {tr : List (Step s)} {t : Step s} {e : Env} {pc : Pc} {c : Ctx}
    {pc' : Option Pc} {out : List Effect → Prop}
    (h : RanAlone i tr t.pre.now id (some pc) out) (ht : (system s).Takes t)
    (step : WorkerStep t i e ⟨id, pc⟩ c pc') :
    RanAlone i (tr ++ [t]) t.post.now id pc' (· = (t.post.ctx i).out) := by
  obtain ⟨pc₀, hl, y, hacts, hpc, hnow, -⟩ := h
  obtain ⟨hle, hpost⟩ := now_step ht
  have henv : t.act.env = e := by rw [step.act]; rfl
  rw [henv] at hle hpost
  have hstep : (workerSystem (s.dev i) pc₀).step y.last ⟨t.pre.ctx i, t.pre.peersOf i, e⟩ =
      some ⟨e.stop, pc', c.out⟩ := by
    show WorkerState.step _ _ _ = _
    rw [WorkerState.step, hpc]
    simp only [if_pos (hnow.trans hle), step.seg]
  refine ⟨pc₀, hl, ⟨y.start, _, _, y.init, .snoc y.run hstep⟩, ?_, rfl, hpost.ge, ?_⟩
  · rw [List.map_append, hacts, List.filterMap_append]
    simp [answersOf, step.workerOf, henv]
  · rw [step.post]
    rfl

theorem ranAlone_of_run {u w : World s} {tr : List (Step s)} (hu : (system s).init u)
    (h : Run (system s) u tr w) : ∀ th ∈ (w.ctx i).threads,
      RanAlone i tr w.now th.id (some th.pc) fun _ => True := by
  induction h with
  | nil =>
    intro th hth
    rw [(idle_of_init hu i).2.1] at hth
    exact absurd hth List.not_mem_nil
  | @snoc v w tr a hr ha ih =>
    intro th hth
    have ht : (system s).Takes ⟨v, a, w⟩ := ha
    obtain ⟨hle, hpost⟩ := now_step ht
    have hstop := a.env.start_le_stop
    cases threadStep ht hth with
    | stays mem act =>
      obtain ⟨pc₀, hl, y, hacts, hpc, hnow, -⟩ := ih th mem
      refine ⟨pc₀, hl, y, ?_, hpc, hnow.trans (hle.trans (hstop.trans hpost.ge)), trivial⟩
      rw [hacts, List.filterMap_append]
      simp [answersOf, act]
    | moves e pc c step =>
      obtain ⟨pc₀, hl, y, hacts, hpc, hnow, -⟩ := (ih _ step.mem).moves ht step
      exact ⟨pc₀, hl, y, hacts, hpc, hnow, trivial⟩
    | launched e k act launch =>
      have hno := (followed_of_run hu hr i).not_workerOf ht launch
      refine ⟨th.pc, launch.pc, ⟨⟨w.now, some th.pc, []⟩, [], _, rfl, .nil _⟩, ?_, rfl, le_rfl,
        trivial⟩
      exact (List.filterMap_eq_nil_iff.mpr fun t' ht' => if_neg (hno t' ht')).symm

/-- **Every worker of a site** makes a run by itself, on what it finds in its steps. -/
theorem workerRun_of_site (x : Execution (system s)) {tr rest : List (Step s)} {t : Step s}
    (hsteps : x.steps = tr ++ t :: rest) {e : Env} {th : Thread} (hstep : StepOf i e th t) :
    ∃ pc, RanAlone i (tr ++ [t]) t.post.now th.id pc (· = (t.post.ctx i).out) := by
  obtain ⟨h₁, ht, -⟩ := (hsteps ▸ x.run).around
  obtain ⟨hact, hmem⟩ := hstep
  obtain ⟨c, pc, step⟩ := workerStep_of_act ht (Reachable.sound ⟨_, _, x.init, h₁⟩ i) hmem hact
  exact ⟨pc, (ranAlone_of_run x.init h₁ th hmem).moves ht step⟩

end UpsOrchestrator

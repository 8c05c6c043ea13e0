import UpsOrchestrator.Record

/-!
# The stored deadline and the timer

The deadline of a phase is stored in the record and polled by `_check_phase_deadline`; the timer is
armed once, when monitoring starts. A report `suspended` during the prompt moves the first and not
the second.

* `PhasesNotCutShort`: monitoring ends on the deadline only once the stored deadline has passed.
* `OutlivesTimer`: a report gives the phase a deadline later than the timer's.
* **`phasesNotCutShort`**: no phase is cut short in an execution without such a report;
  `cutShort_of_outlivesTimer`: after one, the timer cuts the phase short.
-/

set_option autoImplicit false

namespace UpsOrchestrator

open Lts

/-- The calls that may end monitoring early: low battery, `desktop_suspend_due`, and the desktop
going away. -/
def Call.endsEarly : Call → Bool
  | .upsStatus status => hasFlag "LB" status
  | .event .lowbatt => true
  | .event .desktopSuspendDue => true
  | .updateState (some .offline) => true
  | .updateState (some .shuttingDown) => true
  | _ => false

variable {s : Site} {t : Step s} {i : s.Ix} {w : World s}

/-- The deadline stored before the step has passed when the step ends monitoring. -/
def DeadlinePassed (i : s.Ix) (t : Step s) : Prop :=
  ∃ deadline, (t.pre.ctx i).orch.phaseDeadline = some deadline ∧
    deadline ≤ t.act.env.clock .phaseEnd

/-- **No phase is cut short.** Where monitoring ends in `shutting_down`, either the reason is not the
deadline, or the stored deadline has passed; before that only the early calls end it. -/
structure NotCutShort (i : s.Ix) (t : Step s) : Prop where
  deadline : ∀ phase, .phaseAction phase .phaseDeadline ∈ (t.post.ctx i).out → DeadlinePassed i t
  early : ¬DeadlinePassed i t → ∃ e k, t.act = .call i e k ∧ k.endsEarly = true

def PhasesNotCutShort (x : Execution (system s)) : Prop :=
  ∀ t ∈ x.steps, ∀ i, (t.pre.ctx i).mode = .monitoring → (t.post.ctx i).mode = .shuttingDown →
    NotCutShort i t

/-- During the prompt of primary `i` the desktop reports `suspended`, and the deadline of the new
phase is after the timer's and after the end of the call. -/
def OutlivesTimer (i : s.Ix) (t : Step s) : Prop :=
  ∃ e timer, t.act = .call i e (.updateState (some .suspended)) ∧ (s.dev i).isObserver = false ∧
    (t.pre.ctx i).mode = .monitoring ∧ (t.pre.ctx i).orch.phase = some .userPrompt ∧
    (t.pre.ctx i).deadlineTimer = some timer ∧
    max timer.due e.stop < e.clock .deadline + (s.dev i).timing.desktopSuspendWait

/-- In monitoring the timer does not run out before the stored deadline, or that has passed. -/
def TimerFits (i : s.Ix) (w : World s) : Prop :=
  (w.ctx i).mode = .monitoring → ∀ timer deadline, (w.ctx i).deadlineTimer = some timer →
    (w.ctx i).orch.phaseDeadline = some deadline → deadline ≤ max timer.due w.now

theorem startTimer_due (d : UPSDeviceConfig) (e : Env) (phase : Phase) :
    e.clock .deadline + Ctx.phaseWait d phase ≤ (Ctx.startTimer d e phase).due := by
  simp only [Ctx.startTimer]
  omega

theorem TimerFits.of_eq {w' : World s} (h : TimerFits i w) (hnow : w.now ≤ w'.now)
    (ho : (w'.ctx i).orch = (w.ctx i).orch)
    (ht : (w.ctx i).mode = .monitoring → (w'.ctx i).deadlineTimer = (w.ctx i).deadlineTimer) :
    TimerFits i w' := by
  intro hm timer deadline htimer hdl
  have hm' : (w.ctx i).mode = .monitoring := (congrArg OrchState.mode ho).symm.trans hm
  have hle := h hm' timer deadline ((ht hm').symm.trans htimer) (ho ▸ hdl)
  omega

theorem TimerFits.of_mode (h : (w.ctx i).mode = .shuttingDown ∨ (w.ctx i).mode = .idle ∨
    (w.ctx i).mode = .desktopHandled) : TimerFits i w := by
  intro hm
  rcases h with h | h | h <;> exact absurd (h.symm.trans hm) (by decide)

theorem timerFits_handler {e : Env} {k : Call} (hact : t.act = .call i e k)
    (hk : ∀ id, k ≠ .worker id)
    (hexec : k.exec (s.dev i) (t.pre.peersOf i) e (t.pre.ctx i).quiet = some (t.post.ctx i))
    (hnow : t.pre.now ≤ t.post.now) (hstop : t.post.now = e.stop) (hx : ¬OutlivesTimer i t)
    (h : TimerFits i t.pre) : TimerFits i t.post := by
  obtain ⟨ho, htimer, -⟩ := Ctx.noteReport_frame (c := (t.pre.ctx i).quiet) (e := e) (k := k)
  cases Ctx.acted_handler hk hexec with
  | keep orch log timer =>
    refine h.of_eq hnow (orch.trans ho) fun hm => ?_
    exact (timer (.inl ((congrArg OrchState.mode ho).trans hm))).trans htimer
  | start mode orch timer =>
    intro _ tm deadline htm hdl
    have hdue := startTimer_due (s.dev i) e
      (Ctx.startPhase (s.dev i) e ((t.pre.ctx i).quiet.noteReport e k))
    rw [Option.some.inj (timer.symm.trans htm)] at hdue
    rw [orch] at hdl
    have hd := Option.some.inj hdl
    omega
  | suspend call role mode phase orch log timer =>
    intro _ tm deadline htm hdl
    have hpre := timer.symm.trans htm
    rw [ho] at phase
    rw [htimer] at hpre
    rw [orch] at hdl
    have hd := Option.some.inj hdl
    by_contra hlt
    rw [not_le, hstop, ← hd] at hlt
    have hmode : (t.pre.ctx i).mode = .monitoring := (congrArg OrchState.mode ho).symm.trans mode
    exact hx ⟨e, tm, by rw [hact, call], role, hmode, phase, hpre, hlt⟩
  | strike r mode why orch => exact .of_mode (.inl (congrArg OrchState.mode orch))
  | startStrike r mode low report orch => exact .of_mode (.inl (congrArg OrchState.mode orch))
  | confirm status call down role mode orch =>
    exact .of_mode (.inl (congrArg OrchState.mode orch))
  | reset mode report alone orch => exact .of_mode (.inr (.inl (congrArg OrchState.mode orch)))

theorem timerFits_step (ht : (system s).Takes t) (hx : ¬OutlivesTimer i t)
    (h : TimerFits i t.pre) : TimerFits i t.post := by
  obtain ⟨hstart, hstop⟩ := now_step ht
  have hspan := t.act.env.start_le_stop
  have hnow : t.pre.now ≤ t.post.now := by omega
  cases ctxStep ht i with
  | handler e k act hk exec =>
    rw [act] at hstop
    exact timerFits_handler act hk exec hnow hstop hx h
  | worker e th c pc step =>
    rcases step.outcome.orch_eq with ⟨ho, htimer⟩ | ⟨-, -, -, hm, -⟩
    · refine h.of_eq hnow ?_ fun _ => ?_
      · rw [step.post]
        exact ho
      · rw [step.post]
        exact htimer
    · refine .of_mode (.inr (.inr ?_))
      rw [step.post]
      exact hm
  | other j e k act hj post => exact h.of_eq hnow (by rw [post]; rfl) fun _ => by rw [post]; rfl
  | restart e act post =>
    refine .of_mode (.inr (.inl ?_))
    rw [post]
    exact (Ctx.reset_frame e).1

theorem timerFits_of_init (h : (system s).init w) (i : s.Ix) : TimerFits i w :=
  .of_mode (.inr (.inl (idle_of_init h i).1))

theorem deadline_of_strikes {e : Env} {k : Call} (h : TimerFits i t.pre)
    (hw : (t.pre.ctx i).WellFormed (s.dev i)) (hm : (t.pre.ctx i).mode = .monitoring)
    (hnow : t.pre.now ≤ e.start)
    (hs : Ctx.Strikes e k ((t.pre.ctx i).quiet.noteReport e k) .phaseDeadline) :
    ∃ deadline, (t.pre.ctx i).orch.phaseDeadline = some deadline ∧ deadline ≤ e.clock .phaseEnd := by
  obtain ⟨deadline, hdl⟩ := Option.isSome_iff_exists.mp (hw.running (.inl hm)).2.1
  obtain ⟨ho, htimer, -⟩ := Ctx.noteReport_frame (c := (t.pre.ctx i).quiet) (e := e) (k := k)
  refine ⟨deadline, hdl, ?_⟩
  rcases hs with ⟨-, tm, htm, -, hdue⟩ | hcheck
  · -- the timer does not run out before the deadline
    have hfit := h hm tm deadline (htimer.symm.trans htm) hdl
    have hend := e.start_le .phaseEnd
    omega
  · rw [ho] at hcheck
    change (t.pre.ctx i).orch.phaseDeadline.getD 0 ≤ _ at hcheck
    rw [hdl] at hcheck
    exact hcheck.trans (e.mono .check .phaseEnd (by decide))

theorem notCutShort (ht : (system s).Takes t) (hw : (t.pre.ctx i).WellFormed (s.dev i))
    (h : TimerFits i t.pre) (hm : (t.pre.ctx i).mode = .monitoring)
    (hm' : (t.post.ctx i).mode = .shuttingDown) : NotCutShort i t := by
  obtain ⟨hnow, -⟩ := now_step ht
  cases ctxStep ht i with
  | worker e th c pc step =>
    rw [step.post] at hm'
    rcases step.outcome.orch_eq with ⟨ho, -⟩ | ⟨hsd, -⟩
    · have hc : c.mode = .monitoring := (congrArg OrchState.mode ho).trans hm
      exact absurd (hc.symm.trans hm') (by decide)
    · exact absurd (hm.symm.trans hsd) (by decide)
  | other j e k act hj post =>
    rw [post] at hm'
    exact absurd (hm.symm.trans hm') (by decide)
  | restart e act post =>
    rw [post] at hm'
    exact absurd ((Ctx.reset_frame e).1.symm.trans hm') (by decide)
  | handler e k act hk exec =>
    obtain ⟨ho, -, -⟩ := Ctx.noteReport_frame (c := (t.pre.ctx i).quiet) (e := e) (k := k)
    have hmode : ((t.pre.ctx i).quiet.noteReport e k).mode = .monitoring :=
      (congrArg OrchState.mode ho).trans hm
    have henv : t.act.env = e := by rw [act]; rfl
    rw [henv] at hnow
    cases Ctx.acted_handler hk exec with
    | keep orch =>
      exact absurd (((congrArg OrchState.mode orch).trans hmode).symm.trans hm') (by decide)
    | start mode orch =>
      exact absurd ((congrArg OrchState.mode orch).symm.trans hm') (by simp [Ctx.monitoringRecord])
    | startStrike r mode => rcases mode with h | h <;> exact absurd (hmode.symm.trans h) (by decide)
    | suspend call role mode phase orch =>
      exact absurd (((congrArg OrchState.mode orch).trans hmode).symm.trans hm') (by decide)
    | reset mode report alone orch =>
      exact absurd ((congrArg OrchState.mode orch).symm.trans hm') (by decide)
    | confirm status call down role mode orch log out =>
      refine ⟨fun phase hout => ?_, fun _ => ⟨e, k, act, ?_⟩⟩
      · rw [out, Ctx.out_noteReport] at hout
        exact absurd hout List.not_mem_nil
      · rw [call]
        rcases down with rfl | rfl <;> rfl
    | strike r mode why orch log out =>
      have hpassed : r = .phaseDeadline → DeadlinePassed i t := by
        rintro rfl
        rw [DeadlinePassed, henv]
        exact deadline_of_strikes h hw hm hnow why
      refine ⟨fun phase hout => hpassed ?_, fun hnot => ⟨e, k, act, ?_⟩⟩
      · rw [out, Ctx.out_noteReport] at hout
        exact (Effect.phaseAction.inj (List.mem_singleton.mp hout)).2.symm
      · cases r with
        | phaseDeadline => exact absurd (hpassed rfl) hnot
        | lowBattery =>
          obtain ⟨status, rfl, hl⟩ := why
          exact hl
        | lowBatteryEvent =>
          obtain rfl := why
          rfl
        | suspendDueEvent =>
          obtain rfl := why
          rfl

/-- **No phase is cut short** in an execution in which no report `suspended` gives the phase a
deadline after the timer's. -/
theorem phasesNotCutShort (x : Execution (system s)) (hx : ∀ t ∈ x.steps, ∀ i, ¬OutlivesTimer i t) :
    PhasesNotCutShort x := by
  intro t ht i hm hm'
  obtain ⟨tr₁, tr₂, hsteps, h₁, ha, -⟩ := x.run.of_mem ht
  have hfit : TimerFits i t.pre :=
    h₁.invWhen (C := fun t => ¬OutlivesTimer i t) (fun _ ht hx h => timerFits_step ht hx h)
      (timerFits_of_init x.init i) fun t' ht' => hx t' (hsteps ▸ List.mem_append_left _ ht') i
  exact notCutShort ha (wellFormed ⟨x.start, tr₁, t.pre, x.init, h₁⟩ i) hfit hm hm'

theorem fireTimer_due {d : UPSDeviceConfig} {e : Env} {c : Ctx} {timer : Timer}
    (ht : c.deadlineTimer = some timer) (hf : timer.fired = false) (hd : timer.due ≤ e.start)
    (hm : c.mode = .monitoring) : ∃ c', c.fireTimer d e = some c' ∧ c'.mode = .shuttingDown ∧
      ∃ phase, .phaseAction phase .phaseDeadline ∈ c'.out := by
  simp only [Ctx.fireTimer, ht]
  refine ⟨_, if_pos ⟨hf, hd⟩, ?_⟩
  rw [Ctx.executePhaseAction_eq _ (by exact hm)]
  exact ⟨rfl, _, List.mem_append_right _ (List.mem_singleton_self _)⟩

theorem updateState_suspended {d : UPSDeviceConfig} {e : Env} {c : Ctx} (hr : d.isObserver = false)
    (hm : c.mode = .monitoring) (hp : c.orch.phase = some .userPrompt) :
    c.updateState d e (some .suspended) = { c with
      desktopState := { status := some (some .suspended) }
      orch := { c.orch with
        phase := some .suspendWait
        phaseDeadline := some (e.clock .deadline + d.timing.desktopSuspendWait) } } := by
  have hm' : (c.saveDesktopState { status := some (some .suspended) }).mode = .monitoring := hm
  unfold Ctx.updateState Ctx.notifyDesktopStateChange
  rw [if_neg (by simp [hr]), if_neg (not_not.mpr hm'), if_neg (by simp), if_pos ⟨rfl, hp⟩]
  rfl

/-- **After such a report the timer cuts the phase short**: it fires once it is due, which is before
the deadline on file. -/
theorem cutShort_of_outlivesTimer (ht : (system s).Takes t) (hs : (t.pre.ctx i).Sound (s.dev i))
    (hx : OutlivesTimer i t) : ∃ t' : Step s, (system s).Takes t' ∧ t'.pre = t.post ∧
      (t'.pre.ctx i).mode = .monitoring ∧ (t'.post.ctx i).mode = .shuttingDown ∧
        ¬NotCutShort i t' := by
  obtain ⟨e, timer, hact, hrole, hm, hphase, htimer, hlt⟩ := hx
  obtain ⟨tm, htm, hfired⟩ := hs.armed hm
  obtain rfl := Option.some.inj (htimer.symm.trans htm)
  have hpost : t.post.ctx i = { (t.pre.ctx i).quiet with
      desktopState := { status := some (some .suspended) }
      orch := { (t.pre.ctx i).orch with
        phase := some .suspendWait
        phaseDeadline := some (e.clock .deadline + (s.dev i).timing.desktopSuspendWait) } } := by
    exact (Option.some.inj (exec_of_act ht hact)).symm.trans (updateState_suspended hrole hm hphase)
  have hnow : t.post.now = e.stop := by
    rw [(now_step ht).2, hact]
    rfl
  obtain ⟨c', hfire, hm', phase, hout⟩ := fireTimer_due (d := s.dev i)
    (e := .at (max timer.due e.stop)) (c := (t.post.ctx i).quiet) (by rw [hpost]; exact htimer)
    hfired (le_max_left _ _) (by rw [hpost]; exact hm)
  let w' : World s := ⟨max timer.due e.stop, Function.update t.post.quiet i c'⟩
  have htakes : (system s).Takes ⟨t.post, .call i (.at (max timer.due e.stop)) .timer, w'⟩ := by
    change World.step _ _ = _
    rw [World.step, if_pos (by rw [hnow]; exact le_max_right _ _)]
    exact congrArg (Option.map _) hfire
  have hself : w'.ctx i = c' := Function.update_self ..
  refine ⟨_, htakes, rfl, by rw [hpost]; exact hm, by rw [hself]; exact hm', fun hnot => ?_⟩
  obtain ⟨deadline, hdl, hle⟩ := hnot.deadline phase (by rw [hself]; exact hout)
  rw [hpost] at hdl
  have hd := Option.some.inj hdl
  change deadline ≤ max timer.due e.stop at hle
  omega

/-! ## A report during the prompt -/

/-- A desktop that answers the prompt by going to sleep: the prompt's timer stays at 180, the
deadline of `suspend_wait` is 460. -/
def suspendedDuringPrompt : List (Action deskSite) :=
  [.call mainUps (.at 0 online) (.upsStatus "OB"),
    .call mainUps (.at 100) (.updateState (some .suspended)), .call mainUps (.at 180) .timer]

theorem not_phasesNotCutShort : deskSite.Loaded ∧
    ∃ x : Execution (system deskSite), ¬PhasesNotCutShort x := by
  refine ⟨deskSite_loaded, ?_⟩
  obtain ⟨x, t, ht, hm, hm', hout, hdl, hend⟩ := exists_execution (S := system deskSite)
    suspendedDuringPrompt (P := fun tr => ∃ t ∈ tr, (t.pre.ctx mainUps).mode = .monitoring ∧
      (t.post.ctx mainUps).mode = .shuttingDown ∧
      .phaseAction .suspendWait .phaseDeadline ∈ (t.post.ctx mainUps).out ∧
      (t.pre.ctx mainUps).orch.phaseDeadline = some 460 ∧ t.act.env.clock .phaseEnd = 180)
    ⟨.at 0, fun _ => {}, rfl⟩ (by decide)
  refine ⟨x, fun h => ?_⟩
  obtain ⟨deadline, hdl', hle⟩ := (h t ht mainUps hm hm').deadline _ hout
  obtain rfl := Option.some.inj (hdl.symm.trans hdl')
  rw [hend] at hle
  exact absurd hle (by decide)

/-- A primary that waits less for a suspended desktop than for an answer to the prompt. -/
def napSite : Site where
  devices := [{ id := "main", nutName := "main@localhost"
                timing := { desktopSuspendWait := 60 }
                desktop := some { agentUrl := "http://desktop:8080" } }]
  ids_nodup := by decide

/-- The deadline of `suspend_wait` is 70, and the next poll finds it passed. -/
def napDuringPrompt : List (Action napSite) :=
  [.call ⟨0, by decide⟩ (.at 0 online) (.upsStatus "OB"),
    .call ⟨0, by decide⟩ (.at 10) (.updateState (some .suspended)),
    .call ⟨0, by decide⟩ (.at 75) (.upsStatus "OB")]

theorem phasesNotCutShort_napDuringPrompt : ∃ x : Execution (system napSite),
    PhasesNotCutShort x ∧ ∃ t ∈ x.steps,
      .phaseAction .suspendWait .phaseDeadline ∈ (t.post.ctx ⟨0, by decide⟩).out := by
  obtain ⟨x, hx, hout⟩ := exists_execution (S := system napSite) napDuringPrompt
    (P := fun tr => (∀ t ∈ tr, ∀ i, (t.pre.ctx i).orch.phase = some .userPrompt →
        ∀ timer ∈ (t.pre.ctx i).deadlineTimer,
          t.act.env.clock .deadline + (napSite.dev i).timing.desktopSuspendWait ≤ timer.due) ∧
      ∃ t ∈ tr, .phaseAction .suspendWait .phaseDeadline ∈ (t.post.ctx ⟨0, by decide⟩).out)
    ⟨.at 0, fun _ => {}, rfl⟩ (by decide)
  refine ⟨x, phasesNotCutShort x fun t ht i hout => ?_, hout⟩
  obtain ⟨e, timer, hact, -, -, hphase, htimer, hlt⟩ := hout
  have hle := hx t ht i hphase timer htimer
  rw [hact, Action.env] at hle
  exact absurd ((le_max_left _ _).trans_lt hlt) (not_lt.mpr hle)

end UpsOrchestrator

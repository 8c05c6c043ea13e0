import UpsOrchestrator.Steps

/-!
# The record of a context

The orchestrator record is written piecemeal by five methods; the own-power flag, the deadline timer
and the outage log lie beside it.

* `Ctx.Acted`: what a call does to the record, the timer and the log once it has noted the own
  power; **`Ctx.acted_handler`**: every call other than a worker step.
* `Ctx.WellFormed`: the representation invariant; **`wellFormed`**: it holds in every execution.
-/

set_option autoImplicit false

namespace UpsOrchestrator

open Lts

namespace Ctx

variable {d : UPSDeviceConfig} {p : Peers} {e : Env} {c c' : Ctx} {k : Call}

/-! ## What a handler does to the record -/

/-- The timer armed for a phase that starts. -/
def startTimer (d : UPSDeviceConfig) (e : Env) (phase : Phase) : Timer where
  due := e.clock .remaining + max (e.clock .deadline + phaseWait d phase - e.clock .remaining) 0

/-- **What a call does to the record**, the timer and the log of the context `b`, which has noted
the own power. -/
inductive Acted (d : UPSDeviceConfig) (p : Peers) (e : Env) (k : Call) (b c' : Ctx) : Prop
  | keep (orch : c'.orch = b.orch) (log : c'.outageLog = b.outageLog)
      (timer : b.mode = .monitoring ∨ b.deadlineTimer = none → c'.deadlineTimer = b.deadlineTimer)
      (out : k.ownReport = some true → b.mode = .monitoring ∨ b.mode = .shuttingDown)
      (desktop : k ≠ .fetch → (∀ status, k ≠ .updateState status) →
        c'.desktopState = b.desktopState)
  | start (mode : b.mode = .idle ∨ b.mode = .desktopHandled)
      (orch : c'.orch = monitoringRecord d e (startPhase d e b) b.orch)
      (timer : c'.deadlineTimer = some (startTimer d e (startPhase d e b)))
      (log : c'.outageLog = (b.logOwnOutage e).outageLog)
      (desktop : c'.desktopState = (b.fetchAtStart d e).desktopState)
  | strike (r : Reason) (mode : b.mode = .monitoring) (why : Strikes e k b r)
      (orch : c'.orch = { b.orch with mode := .shuttingDown })
      (log : c'.outageLog = b.outageLog.recordEnd .shutdownInitiated (e.clock .phaseEnd))
      (out : c'.out = b.out ++ [.phaseAction (b.orch.phase.getD .offlineWait) r])
      (desktop : c'.desktopState = b.desktopState)
  | startStrike (r : Reason) (mode : b.mode = .idle ∨ b.mode = .desktopHandled)
      (low : r.isLowBattery = true) (report : k.ownReport = some true)
      (orch : c'.orch = { monitoringRecord d e (startPhase d e b) b.orch with mode := .shuttingDown })
      (log : c'.outageLog =
        (b.logOwnOutage e).outageLog.recordEnd .shutdownInitiated (e.clock .phaseEnd))
      (desktop : c'.desktopState = (b.fetchAtStart d e).desktopState)
  | confirm (status : Option DesktopStatus) (call : k = .updateState status)
      (down : status = some .offline ∨ status = some .shuttingDown) (role : d.isObserver = false)
      (mode : b.mode = .monitoring) (orch : c'.orch = { b.orch with mode := .shuttingDown })
      (log : c'.outageLog = b.outageLog.recordEnd .shutdownInitiated (e.clock .phaseEnd))
      (out : c'.out = b.out)
  | suspend (call : k = .updateState (some .suspended)) (role : d.isObserver = false)
      (mode : b.mode = .monitoring) (phase : b.orch.phase = some .userPrompt)
      (orch : c'.orch = { b.orch with
        phase := some .suspendWait
        phaseDeadline := some (e.clock .deadline + d.timing.desktopSuspendWait) })
      (log : c'.outageLog = b.outageLog) (timer : c'.deadlineTimer = b.deadlineTimer)
  | reset (mode : b.mode ≠ .idle) (report : k.ownReport = some false)
      (alone : p.desktopUpsOnBattery = false)
      (orch : c'.orch = { mode := .idle, lastEvent := some "ONLINE" })
      (timer : c'.deadlineTimer = none)
      (log : c'.outageLog = b.outageLog.recordEnd .powerRestored (e.clock .resetEnd))
      (desktop : c'.desktopState = b.desktopState)

variable {b : Ctx}

theorem Acted.refl (h : k.ownReport = some true → b.mode = .monitoring ∨ b.mode = .shuttingDown) :
    Acted d p e k b b := .keep rfl rfl (fun _ => rfl) h fun _ _ => rfl

theorem startBatteryMonitoring_record :
    (b.startBatteryMonitoring d e).orch = monitoringRecord d e (startPhase d e b) b.orch ∧
      (b.startBatteryMonitoring d e).deadlineTimer = some (startTimer d e (startPhase d e b)) ∧
      (b.startBatteryMonitoring d e).outageLog = (b.logOwnOutage e).outageLog ∧
      (b.startBatteryMonitoring d e).desktopState = (b.fetchAtStart d e).desktopState := by
  obtain ⟨log, h1⟩ := logOwnOutage_eq (c := b) (e := e)
  have h2 : ∀ c : Ctx, c.fetchAtStart d e = { c with
      desktopState := if d.isObserver then c.desktopState else fetchedState d e c.desktopState } := by
    intro c
    unfold fetchAtStart
    split_ifs
    · rfl
    · exact fetchStateFromDesktop_fst
  simp only [startBatteryMonitoring, h1, h2, notifyDesktop]
  split_ifs <;> exact ⟨rfl, rfl, rfl, rfl⟩

theorem acted_expire {t : Timer} (hk : k = .timer) (ht : b.deadlineTimer = some t)
    (hf : t.fired = false) (hd : t.due ≤ e.start) : Acted d p e k b
      ({ b with deadlineTimer := some { t with fired := true } }.executePhaseAction d e
        .phaseDeadline) := by
  by_cases hm : b.mode = .monitoring
  · rw [executePhaseAction_eq _ (by exact hm)]
    exact .strike .phaseDeadline hm (.inl ⟨hk, t, ht, hf, hd⟩) rfl rfl rfl rfl
  · rw [executePhaseAction_of_ne _ (by exact hm)]
    refine .keep rfl rfl (fun h => ?_) (by simp [hk, Call.ownReport]) fun _ _ => rfl
    exact (h.elim hm (by simp [ht])).elim

theorem acted_startStrike (r : Reason) (hm : b.mode = .idle ∨ b.mode = .desktopHandled)
    (hl : r.isLowBattery = true) (hk : k.ownReport = some true) :
    Acted d p e k b ((b.startBatteryMonitoring d e).executePhaseAction d e r) := by
  obtain ⟨h1, -, h2, h3⟩ := startBatteryMonitoring_record (b := b) (d := d) (e := e)
  have hmon : (b.startBatteryMonitoring d e).mode = .monitoring := congrArg OrchState.mode h1
  rw [executePhaseAction_eq r hmon]
  exact .startStrike r hm hl hk (by rw [h1]) (by rw [h2]) h3

theorem acted_resetToIdle (reason : String) (hm : b.mode ≠ .idle)
    (hr : k.ownReport = some false) (ha : p.desktopUpsOnBattery = false) :
    Acted d p e k b (b.resetToIdle e reason) := by
  obtain ⟨cmd, out, -, he⟩ := cancelPending_eq (e := e)
    (c := (b.recordEnd .powerRestored (e.clock .resetEnd)).leaveMonitoring .idle (some "ONLINE"))
    reason
  rw [resetToIdle, he]
  exact .reset hm hr ha rfl rfl rfl rfl

/-- **Every call other than a worker step** notes the own power and acts. -/
theorem acted_handler (hk : ∀ id, k ≠ .worker id) (h : k.exec d p e c = some c') :
    Acted d p e k (c.noteReport e k) c' := by
  cases performs_handler hk h with
  | nothing out => exact .refl out
  | fetch call =>
    rw [fetchStateFromDesktop_fst]
    exact .keep rfl rfl (fun _ => rfl) (by simp [call, Call.ownReport]) fun h => absurd call h
  | start mode =>
    obtain ⟨h1, h2, h3, h4⟩ :=
      startBatteryMonitoring_record (b := c.noteReport e k) (d := d) (e := e)
    exact .start mode h1 h2 h3 h4
  | strike r mode why =>
    rw [executePhaseAction_eq r mode]
    exact .strike r mode why rfl rfl rfl rfl
  | expire t call timer armed due => exact acted_expire call timer armed due
  | startStrike r mode low report => exact acted_startStrike r mode low report
  | reset reason mode report alone => exact acted_resetToIdle reason mode report alone
  | ignore status call =>
    exact .keep rfl rfl (fun _ => rfl) (by simp [call, Call.ownReport]) fun _ h =>
      absurd call (h status)
  | confirm status call down role mode => exact .confirm status call down role mode rfl rfl rfl
  | suspend call role mode phase => exact .suspend call role mode phase rfl rfl rfl
  | createCommand name ev expires call =>
    exact .keep rfl rfl (fun _ => rfl) (by simp [call, Call.ownReport]) fun _ _ => rfl
  | ack id status call =>
    have hn : k.ownReport = some true → (c.noteReport e k).mode = .monitoring ∨
        (c.noteReport e k).mode = .shuttingDown := by simp [call, Call.ownReport]
    rcases ack_cases (c := c.noteReport e k) id status with ⟨cmd, -, -, he⟩ | ⟨-, he⟩
    · rw [he]
      exact .keep rfl rfl (fun _ => rfl) hn fun _ _ => rfl
    · rw [he]
      exact .refl hn

/-! ## The representation invariant -/

/-- **The record of a context is well formed**, and the own-power flag and the timer fit it. -/
structure WellFormed (d : UPSDeviceConfig) (c : Ctx) : Prop where
  handled : c.mode = .desktopHandled → d.isObserver = false
  resting : c.mode = .idle ∨ c.mode = .desktopHandled → c.Resting ∧ c.upsOnBattery = false
  running : c.mode = .monitoring ∨ c.mode = .shuttingDown →
    c.orch.phase.isSome ∧ c.orch.phaseDeadline.isSome ∧ c.orch.onbattSince.isSome
  observer : d.isObserver = true → c.mode ≠ .idle → c.orch.phase = some .offlineWait
  desktop : c.orch.phase = some .userPrompt ∨ c.orch.phase = some .suspendWait →
    d.isObserver = false ∧ d.desktop.isSome

variable (d) in
/-- The phases of the device. Only a primary with a desktop waits for it. -/
def HasPhase (phase : Phase) : Prop :=
  phase = .offlineWait ∨ (d.isObserver = false ∧ d.desktop.isSome)

theorem hasPhase_startPhase : HasPhase d (startPhase d e b) := by
  unfold startPhase
  split_ifs with h1
  · exact .inl rfl
  · unfold phaseAtStart
    split_ifs with h2
    · exact .inl rfl
    all_goals
      rw [not_or, Option.isNone_iff_eq_none] at h2
      exact .inr ⟨by simpa using h1, Option.isSome_iff_ne_none.mpr h2.1⟩

theorem WellFormed.of_running {phase : Phase} (hm : c.mode = .monitoring ∨ c.mode = .shuttingDown)
    (hp : c.orch.phase = some phase) (hd : c.orch.phaseDeadline.isSome)
    (hs : c.orch.onbattSince.isSome) (hf : HasPhase d phase) : c.WellFormed d where
  handled h := by rcases hm with hm | hm <;> simp [hm] at h
  resting h := by rcases hm with hm | hm <;> simp [hm] at h
  running _ := ⟨by rw [hp]; rfl, hd, hs⟩
  observer ho _ := by
    rw [hp, hf.resolve_right fun h => absurd (h.1.symm.trans ho) (by decide)]
  desktop h := by
    rw [hp] at h
    refine hf.resolve_left ?_
    rintro rfl
    simp at h

theorem WellFormed.phase (h : c.WellFormed d) (hm : c.mode = .monitoring ∨ c.mode = .shuttingDown) :
    ∃ phase, c.orch.phase = some phase ∧ HasPhase d phase := by
  obtain ⟨phase, hp⟩ := Option.isSome_iff_exists.mp (h.running hm).1
  refine ⟨phase, hp, ?_⟩
  cases phase with
  | offlineWait => exact .inl rfl
  | userPrompt => exact .inr (h.desktop (.inl hp))
  | suspendWait => exact .inr (h.desktop (.inr hp))

theorem WellFormed.of_resting (hm : c.mode = .idle ∨ (c.mode = .desktopHandled ∧ d.isObserver = false))
    (hr : c.Resting) (hp : c.upsOnBattery = false) : c.WellFormed d where
  handled h := by
    rcases hm with hm | hm
    · simp [hm] at h
    · exact hm.2
  resting _ := ⟨hr, hp⟩
  running h := by rcases hm with hm | hm <;> simp [hm] at h
  observer ho hne := by
    rcases hm with hm | hm
    · exact absurd hm hne
    · exact absurd (hm.2.symm.trans ho) (by decide)
  desktop h := by simp [hr.1] at h

theorem WellFormed.of_eq (h : c.WellFormed d) (ho : c'.orch = c.orch)
    (ht : c'.deadlineTimer = c.deadlineTimer) (hp : c'.upsOnBattery = c.upsOnBattery) :
    c'.WellFormed d := by
  have hm : c'.mode = c.mode := congrArg OrchState.mode ho
  constructor
  · rw [hm]
    exact h.handled
  · rw [hm, Resting, ho, ht, hp]
    exact h.resting
  · rw [hm, ho]
    exact h.running
  · rw [hm, ho]
    exact h.observer
  · rw [ho]
    exact h.desktop

theorem WellFormed.on_battery (h : c.WellFormed d) (hp : c.upsOnBattery = true) :
    c.mode = .monitoring ∨ c.mode = .shuttingDown := by
  by_contra hm
  exact absurd (hp.symm.trans (h.resting (Mode.at_rest hm)).2) (by decide)

/-- **Handlers keep the record well formed.** -/
theorem WellFormed.handler (h : c.WellFormed d) (hk : ∀ id, k ≠ .worker id)
    (he : k.exec d p e c = some c') : c'.WellFormed d := by
  obtain ⟨ho, ht, hp⟩ := noteReport_frame (c := c) (e := e) (k := k)
  have hpower := (handlerFrame hk he).power
  have hmode : (c.noteReport e k).mode = c.mode := congrArg OrchState.mode ho
  cases acted_handler hk he with
  | keep orch _ timer out =>
    have hm' : c'.mode = c.mode := congrArg OrchState.mode (orch.trans ho)
    by_cases hrun : c.mode = .monitoring ∨ c.mode = .shuttingDown
    · obtain ⟨phase, hph, hf⟩ := h.phase hrun
      obtain ⟨-, h2, h3⟩ := h.running hrun
      have horch : c'.orch = c.orch := orch.trans ho
      exact .of_running (hm' ▸ hrun) (by rw [horch]; exact hph) (by rw [horch]; exact h2)
        (by rw [horch]; exact h3) hf
    · obtain ⟨hr, hflag⟩ := h.resting (Mode.at_rest hrun)
      -- nothing is reported but mains
      have hp' : c'.upsOnBattery = c.upsOnBattery := by
        rw [hpower, hflag]
        cases hrep : k.ownReport with
        | none => rfl
        | some b =>
          cases b with
          | false => rfl
          | true =>
            rw [hmode] at out
            exact absurd (out hrep) hrun
      exact h.of_eq (orch.trans ho) ((timer (.inr (ht.trans hr.2.2.2))).trans ht) hp'
  | start mode orch =>
    have hph : c'.orch.phase = some (startPhase d e (c.noteReport e k)) := by rw [orch]; rfl
    exact .of_running (.inl (congrArg OrchState.mode orch)) hph (by rw [orch]; rfl)
      (by rw [orch]; rfl) hasPhase_startPhase
  | startStrike r mode low report orch =>
    have hph : c'.orch.phase = some (startPhase d e (c.noteReport e k)) := by rw [orch]; rfl
    exact .of_running (.inr (congrArg OrchState.mode orch)) hph (by rw [orch]; rfl)
      (by rw [orch]; rfl) hasPhase_startPhase
  | strike r mode why orch =>
    rw [ho] at orch
    obtain ⟨phase, hph, hf⟩ := h.phase (.inl (hmode ▸ mode))
    obtain ⟨-, h2, h3⟩ := h.running (.inl (hmode ▸ mode))
    exact .of_running (.inr (congrArg OrchState.mode orch)) (by rw [orch]; exact hph)
      (by rw [orch]; exact h2) (by rw [orch]; exact h3) hf
  | confirm status call down role mode orch =>
    rw [ho] at orch
    obtain ⟨phase, hph, hf⟩ := h.phase (.inl (hmode ▸ mode))
    obtain ⟨-, h2, h3⟩ := h.running (.inl (hmode ▸ mode))
    exact .of_running (.inr (congrArg OrchState.mode orch)) (by rw [orch]; exact hph)
      (by rw [orch]; exact h2) (by rw [orch]; exact h3) hf
  | suspend call role mode phase orch =>
    rw [ho] at orch phase
    obtain ⟨-, -, h3⟩ := h.running (.inl (hmode ▸ mode))
    have hmon : c'.mode = .monitoring := (congrArg OrchState.mode orch).trans (hmode.symm.trans mode)
    exact .of_running (.inl hmon) (by rw [orch]) (by rw [orch]; rfl) (by rw [orch]; exact h3)
      (.inr (h.desktop (.inl phase)))
  | reset mode report _ orch timer =>
    rw [report] at hpower
    exact .of_resting (.inl (congrArg OrchState.mode orch))
      ⟨by rw [orch], by rw [orch], by rw [orch], timer⟩ hpower

end Ctx

variable {s : Site} {t : Step s} {i : s.Ix}

theorem wellFormed_step (ht : (system s).Takes t) (h : (t.pre.ctx i).WellFormed (s.dev i)) :
    (t.post.ctx i).WellFormed (s.dev i) := by
  have hquiet : (t.pre.ctx i).quiet.WellFormed (s.dev i) := h.of_eq rfl rfl rfl
  cases ctxStep ht i with
  | handler e k act hk exec => exact hquiet.handler hk exec
  | other j e k act hj post =>
    rw [post]
    exact hquiet
  | restart e act post =>
    obtain ⟨hm, -, -, hp, hr⟩ := Ctx.reset_frame (c := (t.pre.ctx i).quiet) e
    rw [post]
    exact .of_resting (.inl hm) hr hp
  | worker e th c pc step =>
    rw [step.post]
    rcases step.outcome.orch_eq with ⟨ho, htimer⟩ | ⟨-, role, power, hm, hr, -⟩
    · exact hquiet.of_eq ho htimer step.power
    · exact .of_resting (.inr ⟨hm, role⟩) hr (step.power.trans power)

/-- **The record of every context is well formed** in every execution. -/
theorem wellFormed (x : Execution (system s)) (i : s.Ix) : (x.last.ctx i).WellFormed (s.dev i) := by
  refine x.reachable.inv (I := fun w => (w.ctx i).WellFormed (s.dev i)) (fun w hw => ?_)
    fun t ht h => wellFormed_step ht h
  obtain ⟨e, disk, rfl⟩ := hw
  obtain ⟨hm, -, -, hp, hr⟩ := Ctx.reset_frame (c := { (disk i).quiet with spawned := 0 }) e
  exact .of_resting (.inl hm) hr hp

theorem wellFormed_pre (x : Execution (system s)) {t : Step s} (ht : t ∈ x.steps) (i : s.Ix) :
    (t.pre.ctx i).WellFormed (s.dev i) := by
  obtain ⟨tr₁, tr₂, -, h₁, -, -⟩ := x.run.of_mem ht
  exact wellFormed ⟨x.start, tr₁, t.pre, x.init, h₁⟩ i

end UpsOrchestrator

import UpsOrchestrator.ReportsSerial

/-!
# Reports out of order

* `Overlap.exists_interleaving`: the report in the middle of the power call, or the power call in the
  middle of the report.
* **`Overlap.serialisable_iff`**: a report is serialisable with a power call exactly when they do not
  clash.
-/

set_option autoImplicit false

namespace UpsOrchestrator

open Lts

/-- The operation takes `_action_lock`. -/
def Op.takesAction : Op → Bool
  | .acquire .action => true
  | _ => false

/-- The operation writes the record. -/
def Op.savesRecord : Op → Bool
  | .saveOrchestratorState _ => true
  | _ => false

namespace Handler

variable {d : UPSDeviceConfig}

theorem takes_nothing {α : Type} {p : Handler α} (hp : p.Avoids Op.steers) :
    p.Avoids Op.takesAction :=
  hp.mono fun op ho => by
    cases op with
    | acquire => exact absurd ho (by simp [Op.steers])
    | _ => rfl

theorem takesAction_startBatteryMonitoring :
    (startBatteryMonitoring d).Avoids Op.takesAction := by
  refine (takes_nothing avoids_prepareMonitoring).bind fun r => ⟨rfl, fun _ => ?_⟩
  exact takes_nothing ((avoids_finishMonitoring _ _).mono fun _ => Op.steers_of_not_coordinates)

end Handler

namespace Overlap

variable {x : Overlap} {p p' q q' : Handler Unit} {u v u₁ u₂ u₃ u₄ : Shared}
  {stop stop₁ stop₂ : Op → Bool}

theorem report_alone (h : p.upTo Op.exec (x.answers .report) stop u = some (p', v)) :
    ∃ tr, Run (pool Op.exec x.start) ⟨u, both p q⟩ tr ⟨v, both p' q⟩ ∧
      ∀ t ∈ tr, t.act = (.report, x.answers .report) := by
  have hi : both p q .report = p := rfl
  have hrun : ∃ tr, Run (pool Op.exec x.start) ⟨u, both p q⟩ tr
      ⟨v, Function.update (both p q) .report p'⟩ ∧ ∀ t ∈ tr, t.act = (.report, x.answers .report) :=
    labelled_of_upTo hi h
  rwa [update_both_report] at hrun

theorem power_alone (h : q.upTo Op.exec (x.answers .power) stop u = some (q', v)) :
    ∃ tr, Run (pool Op.exec x.start) ⟨u, both p q⟩ tr ⟨v, both p q'⟩ ∧
      ∀ t ∈ tr, t.act = (.power, x.answers .power) := by
  have hi : both p q .power = q := rfl
  have hrun : ∃ tr, Run (pool Op.exec x.start) ⟨u, both p q⟩ tr
      ⟨v, Function.update (both p q) .power q'⟩ ∧ ∀ t ∈ tr, t.act = (.power, x.answers .power) :=
    labelled_of_upTo hi h
  rwa [update_both_power] at hrun

/-- **One call in the middle of the other**: the power call up to a point, the report up to a point, the
rest of the power call and the rest of the report. -/
theorem exists_interleaving
    (h₁ : (x.program .power).upTo Op.exec (x.answers .power) stop₁ ⟨x.ctx, false, false⟩ =
      some (q, u₁))
    (h₂ : (x.program .report).upTo Op.exec (x.answers .report) stop₂ u₁ = some (p, u₂))
    (h₃ : q.solo Op.exec (x.answers .power) u₂ = some ((), u₃))
    (h₄ : p.solo Op.exec (x.answers .report) u₃ = some ((), u₄)) :
    ∃ tr w, x.Interleaves tr w ∧ (∀ i, w.threads i = .ret ()) ∧ w.shared = u₄ := by
  obtain ⟨tr₁, hr₁, ha₁⟩ := power_alone (p := x.program .report) h₁
  obtain ⟨tr₂, hr₂, ha₂⟩ := report_alone (q := q) h₂
  obtain ⟨tr₃, hr₃, ha₃⟩ := power_alone (p := p) (Prog.upTo_of_avoids q.avoids_nothing h₃)
  obtain ⟨tr₄, hr₄, ha₄⟩ := report_alone (q := .ret ()) (Prog.upTo_of_avoids p.avoids_nothing h₄)
  have hrun := ((hr₁.append hr₂).append hr₃).append hr₄
  rw [← start_eq] at hrun
  refine ⟨_, _, ⟨hrun, fun t ht => ?_⟩, fun i => ?_, rfl⟩
  · simp only [List.mem_append] at ht
    rcases ht with ((ht | ht) | ht) | ht
    · rw [ha₁ t ht]
    · rw [ha₂ t ht]
    · rw [ha₃ t ht]
    · rw [ha₄ t ht]
  · cases i <;> rfl

theorem exists_interleaving_report
    (h₁ : (x.program .report).upTo Op.exec (x.answers .report) stop ⟨x.ctx, false, false⟩ =
      some (p, ⟨x.ctx, false, false⟩))
    (h₂ : p.solo Op.exec (x.answers .report) ⟨x.power x.ctx, false, false⟩ = some ((), v)) :
    ∃ tr w, x.Interleaves tr w ∧ (∀ i, w.threads i = .ret ()) ∧ w.shared = v :=
  exists_interleaving (Prog.upTo_all _ _) h₁ (PowerCall.solo_program x.dev _ _ x.ctx x.call) h₂

/-! ## With a clash -/

theorem report_upTo {c : Ctx} {a s : Bool} (ho : x.dev.isObserver = false)
    (hs : stop .getOrchestratorState = false) :
    (x.program .report).upTo Op.exec (x.answers .report) stop ⟨c, a, s⟩ =
      (Handler.reactToReport x.dev x.status c.orch).upTo Op.exec (x.answers .report) stop
        ⟨c, a, s⟩ := by
  have hprog : x.program .report = .op .getOrchestratorState
      (Handler.reactToReport x.dev x.status) := if_neg (by simp [ho])
  rw [hprog, Prog.upTo, if_neg (by simp [hs])]
  rfl

theorem reactToReport_of_down {r : OrchState} (hm : r.mode = .monitoring) (hd : x.Down) :
    Handler.reactToReport x.dev x.status r = Handler.desktopGoingAway := by
  rw [Handler.reactToReport, if_neg (not_not.mpr hm), if_pos (show _ ∨ _ from hd)]

theorem reactToReport_of_suspended {r : OrchState} (hm : r.mode = .monitoring)
    (hs : x.status = some .suspended) (hp : r.phase = some .userPrompt) :
    Handler.reactToReport x.dev x.status r = Handler.desktopSuspended x.dev r := by
  rw [Handler.reactToReport, if_neg (not_not.mpr hm),
    if_neg (show ¬(_ ∨ _) from not_down_of_suspended hs), if_pos ⟨hs, hp⟩]

theorem upTo_desktopSuspended {r : OrchState} :
    (Handler.desktopSuspended x.dev r).upTo Op.exec (x.answers .report) Op.savesRecord u =
      some (Handler.saveOrchestratorState (x.suspended r), u) := rfl

theorem InOrder.mode {c : Ctx} (h : x.InOrder c.orch) :
    c.mode = (x.power (x.report x.ctx)).mode ∨ c.mode = (x.report (x.power x.ctx)).mode :=
  h.imp (congrArg Prod.fst) (congrArg Prod.fst)

theorem report_of_mode (h : x.ctx.mode ≠ .monitoring) : x.report x.ctx = x.ctx :=
  report_of_not_triggers fun htr => h htr.2.1

theorem report_power_of_mode (h : (x.power x.ctx).mode ≠ .monitoring) :
    x.report (x.power x.ctx) = x.power x.ctx :=
  report_of_not_triggers fun htr => h htr.2.1

theorem not_serialisable_of_standDown (ho : x.dev.isObserver = false) (hd : x.Down)
    (hm : x.ctx.mode = .monitoring) (hk : x.call.kind.standsDown (x.answers .power).2 = true) :
    ¬x.Serialisable := by
  intro h
  have hfirst : (x.power x.ctx).mode = .idle := by
    have hne : x.ctx.mode ≠ .idle := by rw [hm]; decide
    rw [Ctx.mode, orch_power, PowerKind.effect_of_standsDown hne hk]
    rfl
  have hlast : (x.power (x.report x.ctx)).mode = .idle := by
    have hreport : (x.report x.ctx).orch = x.ctx.orch.struck :=
      orch_report ⟨ho, hm, .inl hd⟩ (.inl ⟨hd, rfl⟩)
    rw [Ctx.mode, orch_power, hreport, PowerKind.effect_of_standsDown (by simp [OrchState.struck]) hk]
    rfl
  have hup : (x.program .report).upTo Op.exec (x.answers .report) Op.takesAction
      ⟨x.ctx, false, false⟩ = some (Handler.desktopGoingAway, ⟨x.ctx, false, false⟩) := by
    rw [report_upTo ho rfl, reactToReport_of_down hm hd]
    exact Prog.upTo_perform_bind rfl
  obtain ⟨tr, w, hr, hw, hv⟩ := exists_interleaving_report hup
    (Handler.solo_desktopGoingAway (by rw [hfirst]; decide))
  have horder := (h.outcome tr w hr hw).mode
  have hmode : w.shared.ctx.mode = .shuttingDown := by rw [hv]; rfl
  rw [report_power_of_mode (by rw [hfirst]; decide), hfirst, hlast, or_self, hmode] at horder
  exact absurd horder (by decide)

theorem not_serialisable_of_leaves (ho : x.dev.isObserver = false)
    (hs : x.status = some .suspended) (hm : x.ctx.mode = .monitoring)
    (hp : x.ctx.orch.phase = some .userPrompt)
    (hk : x.call.kind.Leaves (x.answers .power).1 (x.answers .power).2 x.ctx.orch)
    (hk' : x.call.kind.Leaves (x.answers .power).1 (x.answers .power).2
      (x.suspended x.ctx.orch)) : ¬x.Serialisable := by
  intro h
  have hleft : ∀ {r : OrchState} {fresh : OrchState}, r.mode = .monitoring →
      x.call.kind.Leaves (x.answers .power).1 (x.answers .power).2 r →
      (x.call.kind.effect (x.answers .power).1 (x.answers .power).2 fresh r).mode ≠ .monitoring := by
    intro r fresh hr hl
    have he : x.call.kind.effect (x.answers .power).1 (x.answers .power).2 fresh r = .stoodDown ∨
        x.call.kind.effect (x.answers .power).1 (x.answers .power).2 fresh r = r.struck :=
      PowerKind.effect_of_leaves hr hl
    rcases he with he | he <;>
    · rw [he]
      simp [OrchState.stoodDown, OrchState.struck]
  have hfirst : (x.power x.ctx).mode ≠ .monitoring := by
    rw [Ctx.mode, orch_power]
    exact hleft hm hk
  have hlast : (x.power (x.report x.ctx)).mode ≠ .monitoring := by
    have hreport : (x.report x.ctx).orch = x.suspended x.ctx.orch :=
      orch_report ⟨ho, hm, .inr ⟨hs, hp⟩⟩ (.inr ⟨hs, hp, rfl⟩)
    rw [Ctx.mode, orch_power, hreport]
    exact hleft hm hk'
  have hup : (x.program .report).upTo Op.exec (x.answers .report) Op.savesRecord
      ⟨x.ctx, false, false⟩ =
        some (Handler.saveOrchestratorState (x.suspended x.ctx.orch), ⟨x.ctx, false, false⟩) := by
    rw [report_upTo ho rfl, reactToReport_of_suspended hm hs hp]
    exact upTo_desktopSuspended
  obtain ⟨tr, w, hr, hw, hv⟩ := exists_interleaving_report hup rfl
  have horder := (h.outcome tr w hr hw).mode
  have hmode : w.shared.ctx.mode = .monitoring := by rw [hv]; exact hm
  rw [report_power_of_mode hfirst, hmode] at horder
  exact horder.elim (fun he => hlast he.symm) fun he => hfirst he.symm

/-! ### The report in the middle of the power call -/

theorem power_upTo {reason : Reason} {c : Ctx}
    (h : (x.call.kind.body x.dev).upTo Op.exec (x.answers .power) Op.takesAction
      ⟨x.call.noted (x.answers .power).1 x.ctx, false, false⟩ =
        some (Handler.executePhaseAction x.dev reason, ⟨c, false, false⟩)) :
    (x.program .power).upTo Op.exec (x.answers .power) Op.takesAction ⟨x.ctx, false, false⟩ =
      some (Handler.executePhaseAction x.dev reason, ⟨c, false, false⟩) := by
  have hprog : x.program .power = x.call.noteProgram.bind fun _ => x.call.kind.body x.dev :=
    PowerCall.program_eq x.call
  rw [hprog, Prog.upTo_bind (Handler.takes_nothing (avoids_noteProgram _))
    (solo_noteProgram x.call (e := (x.answers .power).1) (b := (x.answers .power).2)), h]

theorem upTo_of_checks {k : PowerKind} {c : Ctx} (hm : c.mode = .monitoring)
    (hc : k.checks (x.answers .power).2 = true) (hd : c.orch.due (x.answers .power).1) :
    (k.body x.dev).upTo Op.exec (x.answers .power) Op.takesAction ⟨c, false, false⟩ =
      some (Handler.executePhaseAction x.dev .phaseDeadline, ⟨c, false, false⟩) := by
  have hcheck : (Handler.checkPhaseDeadline x.dev).upTo Op.exec (x.answers .power) Op.takesAction
      ⟨c, false, false⟩ =
        some (Handler.executePhaseAction x.dev .phaseDeadline, ⟨c, false, false⟩) := by
    rw [Handler.checkPhaseDeadline]
    refine (Prog.upTo_bind (Prog.avoids_perform.mpr rfl) rfl).trans ?_
    refine (Prog.upTo_bind (Prog.avoids_perform.mpr rfl) rfl).trans ?_
    rw [if_neg (not_lt.mpr hd)]
    exact Prog.upTo_perform_bind rfl
  cases k with
  | battery checks =>
    have hrest : ¬(c.mode = .idle ∨ c.mode = .desktopHandled) := by rw [hm]; decide
    refine (Prog.upTo_bind (Prog.avoids_perform.mpr rfl) rfl).trans ?_
    rw [if_neg hrest, if_pos ⟨hc, hm⟩]
    exact hcheck
  | mains reason =>
    have hidle : ¬c.mode = .idle := by rw [hm]; decide
    refine (Prog.upTo_bind (Prog.avoids_perform.mpr rfl) rfl).trans ?_
    refine (Prog.upTo_bind (Prog.avoids_perform.mpr rfl) rfl).trans ?_
    rw [if_pos (show (x.answers .power).2 = true from hc), if_neg hidle, if_pos hm]
    exact hcheck
  | _ => exact absurd hc (by simp [PowerKind.checks])

theorem not_serialisable_of_late (ho : x.dev.isObserver = false)
    (hs : x.status = some .suspended) (hm : x.ctx.mode = .monitoring)
    (hp : x.ctx.orch.phase = some .userPrompt)
    (hc : x.call.kind.checks (x.answers .power).2 = true) (hd : x.ctx.orch.due (x.answers .power).1)
    (hk : ¬x.call.kind.Leaves (x.answers .power).1 (x.answers .power).2 (x.suspended x.ctx.orch)) :
    ¬x.Serialisable := by
  intro h
  obtain ⟨horch, -⟩ := noted_frame (x := x)
  have hnotem := upTo_of_checks (x := x) (k := x.call.kind)
    (c := x.call.noted (x.answers .power).1 x.ctx) ((congrArg OrchState.mode horch).trans hm) hc
    (by rw [horch]; exact hd)
  generalize hnoted : x.call.noted (x.answers .power).1 x.ctx = c at horch hnotem
  have ht : x.Triggers c.orch := by rw [horch]; exact ⟨ho, hm, .inr ⟨hs, hp⟩⟩
  have hreported : (x.report c).orch = x.suspended x.ctx.orch := by
    rw [← horch]
    exact orch_report ht (.inr ⟨hs, by rw [horch]; exact hp, rfl⟩)
  have hmon : (x.report c).mode = .monitoring := by
    rw [Ctx.mode, hreported]
    exact hm
  have hall := Prog.upTo_of_avoids (Prog.avoids_nothing (x.program .report))
    (Handler.solo_notifyDesktopStateChange (d := x.dev) (e := (x.answers .report).1)
      (o := (x.answers .report).2) (c := c) (s := false) x.status)
  obtain ⟨tr, w, hr, hw, hv⟩ := exists_interleaving (power_upTo (by rw [hnoted]; exact hnotem)) hall
    (Handler.solo_executePhaseAction _) rfl
  -- the suspend is struck in the interleaving only
  have hview : w.shared.ctx.orch = (x.suspended x.ctx.orch).struck := by
    rw [hv, ← hreported]
    exact (PowerKind.orch_executePhaseAction _).trans (if_pos hmon)
  rcases h.outcome tr w hr hw with he | he
  · have hfirst : (x.power (x.report x.ctx)).orch = x.suspended x.ctx.orch := by
      have hreport : (x.report x.ctx).orch = x.suspended x.ctx.orch :=
        orch_report ⟨ho, hm, .inr ⟨hs, hp⟩⟩ (.inr ⟨hs, hp, rfl⟩)
      have hm' : (x.suspended x.ctx.orch).mode = .monitoring := hm
      rw [orch_power, hreport, PowerKind.effect_of_not_leaves hm' hk]
    rw [hview, hfirst] at he
    exact absurd ((congrArg Prod.fst he).trans hm) (by simp [OrchState.view, OrchState.struck])
  · have hlast : (x.power x.ctx).orch = x.ctx.orch.struck := by
      rw [orch_power, PowerKind.effect_of_due hm hc hd]
    have hmode : (x.power x.ctx).mode = .shuttingDown := congrArg OrchState.mode hlast
    rw [report_power_of_mode (by rw [hmode]; decide), hview, hlast] at he
    have hphase : some Phase.suspendWait = x.ctx.orch.phase := congrArg (fun v => v.2.1) he
    exact absurd (hphase.trans hp) (by decide)

theorem not_serialisable_of_low (ho : x.dev.isObserver = false) (hs : x.status = some .suspended)
    (hm : x.ctx.mode = .idle ∨ x.ctx.mode = .desktopHandled) (hl : x.call.kind.isLow = true)
    (hp : Ctx.startPhase x.dev (x.answers .power).1 x.ctx = .userPrompt) : ¬x.Serialisable := by
  intro h
  obtain ⟨horch, hfresh⟩ := noted_frame (x := x)
  have hne : ¬x.ctx.mode = .shuttingDown ∧ ¬x.ctx.mode = .monitoring := by
    rcases hm with hm | hm <;> rw [hm] <;> decide
  obtain ⟨reason, hk⟩ : ∃ reason, x.call.kind = .low reason := by
    cases hk : x.call.kind with
    | low reason => exact ⟨reason, rfl⟩
    | _ => rw [hk] at hl; exact absurd hl (by simp [PowerKind.isLow])
  -- either order ends in `shutting_down`
  have hpower : (x.power x.ctx).mode = .shuttingDown := by
    rw [Ctx.mode, orch_power, hk, PowerKind.effect, if_neg hne.1, if_neg hne.2]
    rfl
  obtain ⟨c, hc⟩ : ∃ c, c = (x.call.noted (x.answers .power).1 x.ctx).startBatteryMonitoring x.dev
    (x.answers .power).1 := ⟨_, rfl⟩
  have hstarted : c.orch = x.fresh x.ctx := by
    rw [hc, Ctx.startBatteryMonitoring_record.1, ← hfresh]
    rfl
  have hup : (x.program .power).upTo Op.exec (x.answers .power) Op.takesAction
      ⟨x.ctx, false, false⟩ = some (Handler.executePhaseAction x.dev reason, ⟨c, false, false⟩) := by
    refine power_upTo ?_
    generalize x.call.noted (x.answers .power).1 x.ctx = c₀ at horch hc
    have hmode : c₀.mode = x.ctx.mode := congrArg OrchState.mode horch
    have hsd : ¬c₀.mode = .shuttingDown := by rw [hmode]; exact hne.1
    have hmon : ¬c₀.mode = .monitoring := by rw [hmode]; exact hne.2
    rw [hk, hc]
    refine (Prog.upTo_bind (Prog.avoids_perform.mpr rfl) rfl).trans ?_
    rw [Handler.lowBatteryAction, if_neg hsd, if_pos hmon]
    exact (Prog.upTo_bind Handler.takesAction_startBatteryMonitoring
      Handler.solo_startBatteryMonitoring).trans (Prog.upTo_perform_bind rfl)
  have hmon : c.mode = .monitoring := by rw [Ctx.mode, hstarted]; rfl
  have hphase : c.orch.phase = some .userPrompt := by
    rw [hstarted]
    exact congrArg some hp
  have hreport : (x.program .report).upTo Op.exec (x.answers .report) Op.savesRecord
      ⟨c, false, false⟩ =
        some (Handler.saveOrchestratorState (x.suspended c.orch), ⟨c, false, false⟩) := by
    rw [report_upTo ho rfl, reactToReport_of_suspended hmon hs hphase]
    exact upTo_desktopSuspended
  obtain ⟨tr, w, hr, hw, hv⟩ := exists_interleaving hup hreport
    (Handler.solo_executePhaseAction _) rfl
  have horder := (h.outcome tr w hr hw).mode
  have hmode : w.shared.ctx.mode = .monitoring := by rw [hv]; exact hmon
  rw [report_of_mode hne.2, report_power_of_mode (by rw [hpower]; decide), hpower, or_self, hmode]
    at horder
  exact absurd horder (by decide)

/-- **A clash** is not serialisable. -/
theorem not_serialisable (hx : x.Clash) : ¬x.Serialisable := by
  cases hx with
  | standDown ho hd hm hk => exact not_serialisable_of_standDown ho hd hm hk
  | low ho hs hm hl hp => exact not_serialisable_of_low ho hs hm hl hp
  | leave ho hs hm hp hk =>
    by_cases hk' : x.call.kind.Leaves (x.answers .power).1 (x.answers .power).2
      (x.suspended x.ctx.orch)
    · exact not_serialisable_of_leaves ho hs hm hp hk hk'
    · -- only a deadline makes a difference between the two records
      obtain ⟨h1, h2⟩ := not_or.mp hk'
      obtain ⟨h2, -⟩ := not_or.mp h2
      rcases hk with hk | hk | ⟨hc, hd⟩
      · exact absurd hk h1
      · exact absurd hk h2
      · exact not_serialisable_of_late ho hs hm hp hc hd hk'

/-- **When a report is serialisable with a power call.** -/
theorem serialisable_iff (x : Overlap) : x.Serialisable ↔ ¬x.Clash :=
  ⟨fun h hx => not_serialisable hx h, serialisable⟩

/-! ## A report over a reset -/

/-- The primary is in monitoring when the desktop reports that it shuts down and the power comes
back. -/
theorem not_serialisable_online : deskSite.Loaded ∧ ∃ x : Execution (system deskSite),
    ¬Serialisable
      { dev := deskSite.dev mainUps
        ctx := x.last.ctx mainUps
        status := some .shuttingDown
        call := .event .online
        answers := fun _ => (.at 5, false) } := by
  refine ⟨deskSite_loaded, ?_⟩
  obtain ⟨x, tr, t, hx, -, -, hm⟩ := exists_execution_last (S := system deskSite)
    (P := fun _ t => (t.post.ctx mainUps).mode = .monitoring) []
    (.call mainUps (.at 0) (.event .onbatt)) ⟨.at 0, fun _ => {}, rfl⟩ (by decide)
  have hlast : t.post = x.last := (hx ▸ x.run).of_snoc.2.2
  rw [hlast] at hm
  have ho : (deskSite.dev mainUps).isObserver = false := by decide
  exact ⟨x, not_serialisable (.standDown ho (.inr rfl) hm rfl)⟩

end Overlap

end UpsOrchestrator

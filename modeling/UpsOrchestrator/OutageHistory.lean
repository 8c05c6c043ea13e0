import UpsOrchestrator.Lib.Intervals
import UpsOrchestrator.Record
import UpsOrchestrator.Deadlines

/-!
# The outage history

The outage log is written where the own-power flag flips, where monitoring starts, where the
shutdown is initiated and where an outage is called off.

* `Ctx.LogStep`: what a call does to the log; **`logStep`**: every step but a restart.
* **`keepsHistory`**: without a restart the history is the list of the intervals on battery.
* `wentOnBatteryLate`: the UPS went on battery after the shutdown was initiated.
  **`shutdownsAccounted_iff`**: every self-shutdown is accounted for after the reboot exactly when
  none of them comes after that.
-/

set_option autoImplicit false

namespace UpsOrchestrator

open Lts

namespace Ctx

variable {d : UPSDeviceConfig} {p : Peers} {e : Env} {c c' b : Ctx} {k : Call}

/-! ## What a call does to the log -/

/-- **What a call does to the outage log**, next to the own-power flag and the mode. -/
inductive LogStep (e : Env) (c c' : Ctx) : Prop
  | keep (power : c'.upsOnBattery = c.upsOnBattery) (log : c'.outageLog = c.outageLog)
      (mode : c'.mode = .shuttingDown → c.mode = .shuttingDown)
  | mark (power : c'.upsOnBattery = c.upsOnBattery) (mode : c.mode = .monitoring)
      (mode' : c'.mode = .shuttingDown)
      (log : c'.outageLog = c.outageLog.recordEnd .shutdownInitiated (e.clock .phaseEnd))
  | clear (power : c.upsOnBattery = false) (power' : c'.upsOnBattery = false)
      (log : c'.outageLog = c.outageLog.recordEnd .powerRestored (e.clock .resetEnd))
  | start (r : Reading) (reading : r = .note ∨ r = .onbatt) (power : c.upsOnBattery = false)
      (power' : c'.upsOnBattery = true) (mode : c'.mode = .shuttingDown → c.mode = .shuttingDown)
      (log : c'.outageLog = c.outageLog.recordStart (e.clock r))
  | startMark (r : Reading) (reading : r = .note ∨ r = .onbatt) (power : c.upsOnBattery = false)
      (power' : c'.upsOnBattery = true) (mode : c.mode ≠ .shuttingDown)
      (mode' : c'.mode = .shuttingDown)
      (log : c'.outageLog =
        (c.outageLog.recordStart (e.clock r)).recordEnd .shutdownInitiated (e.clock .phaseEnd))
  | stop (power : c.upsOnBattery = true) (power' : c'.upsOnBattery = false)
      (log : c'.outageLog = c.outageLog.recordEnd .powerRestored (e.clock .note))

theorem noteReport_same (h : k.ownReport.getD c.upsOnBattery = c.upsOnBattery) :
    c.noteReport e k = c := by
  unfold noteReport
  cases hr : k.ownReport with
  | none => rfl
  | some on =>
    rw [hr] at h
    exact if_pos h

theorem noteReport_up (hr : k.ownReport = some true) (hp : c.upsOnBattery = false) :
    (c.noteReport e k).outageLog = if c.mode = .monitoring ∨ c.mode = .shuttingDown then
      c.outageLog.recordStart (e.clock .note) else c.outageLog := by
  simp only [noteReport, hr, noteOwnPower, hp]
  rw [if_neg (by simp), if_neg (by simp)]
  split_ifs <;> rfl

theorem noteReport_down (hr : k.ownReport = some false) (hp : c.upsOnBattery = true) :
    (c.noteReport e k).outageLog = c.outageLog.recordEnd .powerRestored (e.clock .note) := by
  simp only [noteReport, hr, noteOwnPower, hp]
  rw [if_neg (by simp)]
  rfl

theorem logOwnOutage_log : (b.logOwnOutage e).outageLog =
    if b.upsOnBattery then b.outageLog.recordStart (e.clock .onbatt) else b.outageLog := by
  unfold logOwnOutage
  split_ifs <;> rfl

theorem mode_of_start {phase : Phase} (h : c'.orch = monitoringRecord d e phase b.orch) :
    c'.mode = .shuttingDown → c.mode = .shuttingDown := by
  intro hm
  exact absurd ((congrArg OrchState.mode h).symm.trans hm) (by simp [monitoringRecord])

theorem logStep_same (h : c.WellFormed d) (hr : k.ownReport.getD c.upsOnBattery = c.upsOnBattery)
    (hp : c'.upsOnBattery = c.upsOnBattery) (ha : Acted d p e k c c') : LogStep e c c' := by
  cases ha with
  | keep orch log =>
    exact .keep hp log fun hm => (congrArg OrchState.mode orch).symm.trans hm
  | start mode orch timer log =>
    rw [logOwnOutage_log, (h.resting mode).2] at log
    exact .keep hp log (mode_of_start orch)
  | strike r mode why orch log => exact .mark hp mode (congrArg OrchState.mode orch) log
  | startStrike r mode low report =>
    rw [report, (h.resting mode).2] at hr
    exact absurd hr (by decide)
  | confirm status call down role mode orch log =>
    exact .mark hp mode (congrArg OrchState.mode orch) log
  | suspend call role mode phase orch log =>
    exact .keep hp log fun hm => (congrArg OrchState.mode orch).symm.trans hm
  | reset mode report alone orch timer log =>
    rw [report] at hr
    exact .clear hr.symm (hp.trans hr.symm) log

theorem not_report_of_updateState {status : Option DesktopStatus} {onBattery : Bool}
    (hk : k = .updateState status) : k.ownReport ≠ some onBattery := by
  rw [hk]
  simp [Call.ownReport]

/-- The UPS goes on battery: the outage is logged at the flip in an outage of the desktop's UPS, and
at the start of monitoring otherwise. -/
theorem logStep_up (hr : k.ownReport = some true) (hp : c.upsOnBattery = false)
    (hp' : c'.upsOnBattery = true) (ha : Acted d p e k (c.noteReport e k) c') : LogStep e c c' := by
  obtain ⟨ho, -, hflag⟩ := noteReport_frame (c := c) (e := e) (k := k)
  have hm : (c.noteReport e k).mode = c.mode := congrArg OrchState.mode ho
  have hlog := noteReport_up (e := e) hr hp
  rw [hr] at hflag
  by_cases hrun : c.mode = .monitoring ∨ c.mode = .shuttingDown
  · rw [if_pos hrun] at hlog
    have hrest : ¬((c.noteReport e k).mode = .idle ∨ (c.noteReport e k).mode = .desktopHandled) := by
      rw [hm]
      rcases hrun with h | h <;> rw [h] <;> decide
    cases ha with
    | keep orch log =>
      refine .start .note (.inl rfl) hp hp' (fun h => ?_) (log.trans hlog)
      exact hm.symm.trans ((congrArg OrchState.mode orch).symm.trans h)
    | start mode => exact absurd mode hrest
    | strike r mode why orch log =>
      refine .startMark .note (.inl rfl) hp hp' ?_ (congrArg OrchState.mode orch) (hlog ▸ log)
      rw [← hm, mode]
      decide
    | startStrike r mode => exact absurd mode hrest
    | confirm status call => exact (not_report_of_updateState call hr).elim
    | suspend call => exact (not_report_of_updateState call hr).elim
    | reset mode report => exact absurd (report.symm.trans hr) (by decide)
  · rw [if_neg hrun] at hlog
    have hown : ((c.noteReport e k).logOwnOutage e).outageLog =
        c.outageLog.recordStart (e.clock .onbatt) := by
      rw [logOwnOutage_log, hflag, hlog]
      rfl
    cases ha with
    | keep orch log timer out => exact absurd (hm ▸ out hr) hrun
    | start mode orch timer log =>
      exact .start .onbatt (.inr rfl) hp hp' (mode_of_start orch) (log.trans hown)
    | strike r mode => exact absurd (.inl (hm ▸ mode)) hrun
    | startStrike r mode low report orch log =>
      exact .startMark .onbatt (.inr rfl) hp hp' (fun h => hrun (.inr h))
        (congrArg OrchState.mode orch) (hown ▸ log)
    | confirm status call => exact (not_report_of_updateState call hr).elim
    | suspend call => exact (not_report_of_updateState call hr).elim
    | reset mode report => exact absurd (report.symm.trans hr) (by decide)

/-- The UPS is back on mains: what the call does afterwards finds no open entry. -/
theorem logStep_down (h : c.WellFormed d) (hr : k.ownReport = some false)
    (hp : c.upsOnBattery = true) (hp' : c'.upsOnBattery = false)
    (ha : Acted d p e k (c.noteReport e k) c') : LogStep e c c' := by
  obtain ⟨ho, -, -⟩ := noteReport_frame (c := c) (e := e) (k := k)
  have hm : (c.noteReport e k).mode = c.mode := congrArg OrchState.mode ho
  have hlog := noteReport_down (e := e) hr hp
  have hnone : (c.noteReport e k).outageLog.state = none := by
    rw [hlog]
    exact OutageLog.state_recordEnd (by decide)
  have hrest : ¬((c.noteReport e k).mode = .idle ∨ (c.noteReport e k).mode = .desktopHandled) := by
    rw [hm]
    rcases h.on_battery hp with h | h <;> rw [h] <;> decide
  cases ha with
  | keep orch log => exact .stop hp hp' (log.trans hlog)
  | start mode => exact absurd mode hrest
  | strike r mode why orch log =>
    rw [OutageLog.recordEnd_of_none hnone] at log
    exact .stop hp hp' (log.trans hlog)
  | startStrike r mode => exact absurd mode hrest
  | confirm status call => exact (not_report_of_updateState call hr).elim
  | suspend call => exact (not_report_of_updateState call hr).elim
  | reset mode report alone orch timer log =>
    rw [OutageLog.recordEnd_of_none hnone] at log
    exact .stop hp hp' (log.trans hlog)

theorem logStep_handler (h : c.WellFormed d) (hk : ∀ id, k ≠ .worker id)
    (he : k.exec d p e c = some c') : LogStep e c c' := by
  have hp := (handlerFrame hk he).power
  have ha := acted_handler hk he
  by_cases hsame : k.ownReport.getD c.upsOnBattery = c.upsOnBattery
  · rw [noteReport_same hsame] at ha
    exact logStep_same h hsame (hp.trans hsame) ha
  · cases hr : k.ownReport with
    | none => exact absurd (by rw [hr]; rfl) hsame
    | some on =>
      rw [hr] at hp hsame
      cases on with
      | true => exact logStep_up hr (by simpa using Ne.symm hsame) hp ha
      | false => exact logStep_down h hr (by simpa using Ne.symm hsame) hp ha

end Ctx

variable {s : Site} {t : Step s} {i : s.Ix} {w : World s} {tr : List (Step s)}

theorem logStep (ht : (system s).Takes t) (h : (t.pre.ctx i).WellFormed (s.dev i))
    (hr : ∀ e, t.act ≠ .restart e) :
    Ctx.LogStep t.act.env (t.pre.ctx i) (t.post.ctx i) := by
  have hquiet : (t.pre.ctx i).quiet.WellFormed (s.dev i) := h.of_eq rfl rfl rfl
  cases ctxStep ht i with
  | handler e k act hk exec =>
    rw [show t.act.env = e by rw [act]; rfl]
    cases Ctx.logStep_handler hquiet hk exec with
    | keep power log mode => exact .keep power log mode
    | mark power mode mode' log => exact .mark power mode mode' log
    | clear power power' log => exact .clear power power' log
    | start r reading power power' mode log => exact .start r reading power power' mode log
    | startMark r reading power power' mode mode' log =>
      exact .startMark r reading power power' mode mode' log
    | stop power power' log => exact .stop power power' log
  | worker e th c pc step =>
    obtain ⟨-, -, -, hlog⟩ := Ctx.segment_frame (d := s.dev i) (p := t.pre.peersOf i) (e := e)
      (c := (t.pre.ctx i).quiet) th.pc
    rw [step.seg] at hlog
    rw [step.post]
    refine .keep step.power hlog fun hm => ?_
    rcases step.outcome.orch_eq with ⟨ho, -⟩ | ⟨hsd, -⟩
    · exact (congrArg OrchState.mode ho).symm.trans hm
    · exact hsd
  | other j e k act hj post =>
    rw [post]
    exact .keep rfl rfl id
  | restart e act => exact absurd act (hr e)

/-! ## The history is the list of the intervals on battery -/

/-- `_ups_on_battery` of context `i` -/
def onBattery (i : s.Ix) (w : World s) : Bool := (w.ctx i).upsOnBattery

/-- The start of the open entry of context `i`, if there is one. -/
def openSince (i : s.Ix) (w : World s) : Option Int :=
  (w.ctx i).outageLog.state.map (·.outageStart)

/-- The history of context `i`, oldest first. -/
def completed (i : s.Ix) (w : World s) : List CompletedRecord := (w.ctx i).outageLog.history

/-- An entry starts when the flag goes up. -/
def StartsAt (t : Step s) (start : Int) : Prop :=
  ∃ r, (r = .note ∨ r = .onbatt) ∧ start = t.act.env.clock r

/-- A record ends when the flag goes down, with the power restored. -/
def EndsAt (start : Int) (t : Step s) (r : CompletedRecord) : Prop :=
  r = { outageStart := start, outageEnd := t.act.env.clock .note
        durationSeconds := t.act.env.clock .note - start, outcome := .powerRestored }

/-- **The outage history of context `i`** after an execution. -/
structure KeepsHistory (x : Execution (system s)) (i : s.Ix) : Prop where
  /-- the records and the open entry are the intervals on battery, in order and one to one -/
  intervals : Logs (onBattery i) (openSince i) (completed i) StartsAt EndsAt (completed i x.start)
    (intervals (onBattery i) x.steps) x.last
  /-- a desktop-only flow on mains adds no record -/
  mains : (∀ t ∈ x.steps, onBattery i t.post = false) →
    (x.last.ctx i).outageLog = (x.start.ctx i).outageLog

theorem logsFlip (ht : (system s).Takes t) (h : (t.pre.ctx i).WellFormed (s.dev i))
    (hr : ∀ e, t.act ≠ .restart e) (hopen : (openSince i t.pre).isSome = onBattery i t.pre) :
    LogsFlip (onBattery i) (openSince i) (completed i) StartsAt EndsAt t := by
  rw [openSince, Option.isSome_map, onBattery] at hopen
  have hnone : (t.pre.ctx i).upsOnBattery = false → (t.pre.ctx i).outageLog.state = none := by
    intro hp
    rw [hp] at hopen
    simpa using hopen
  cases logStep ht h hr with
  | keep power log => exact .stay power (by simp only [openSince, log]) (by simp only [completed, log])
  | mark power mode mode' log =>
    refine .stay power ?_ ?_
    all_goals
      cases hs : (t.pre.ctx i).outageLog.state with
      | none =>
        rw [OutageLog.recordEnd_of_none hs] at log
        simp only [openSince, completed, log]
      | some entry =>
        rw [OutageLog.recordEnd_mark hs] at log
        simp only [openSince, completed, log, hs, Option.map_some]
  | clear power power' log =>
    rw [OutageLog.recordEnd_of_none (hnone power)] at log
    exact .stay (power'.trans power.symm) (by simp only [openSince, log]) (by simp only [completed, log])
  | start r reading power power' mode log =>
    rw [OutageLog.recordStart_of_none (hnone power)] at log
    exact .up _ power power' (by simp only [openSince, log, Option.map_some])
      (by simp only [completed, log]) ⟨r, reading, rfl⟩
  | startMark r reading power power' mode mode' log =>
    rw [OutageLog.recordEnd_mark OutageLog.state_recordStart,
      OutageLog.recordStart_of_none (hnone power)] at log
    exact .up _ power power' (by simp only [openSince, log, Option.map_some])
      (by simp only [completed, log]) ⟨r, reading, rfl⟩
  | stop power power' log =>
    rw [power] at hopen
    obtain ⟨entry, hs⟩ := Option.isSome_iff_exists.mp hopen
    rw [OutageLog.recordEnd_of_some hs (by decide)] at log
    exact .down entry.outageStart _ power power' (by simp only [openSince, hs, Option.map_some])
      (by simp only [openSince, log, Option.map_none])
      (by simp only [completed, log, OutageLog.appendCompleted]) rfl

theorem intervals_onBattery_eq (h : ∀ t ∈ tr, onBattery i t.pre = onBattery i t.post) :
    intervals (onBattery i) tr = {} := by
  induction tr using List.reverseRecOn with
  | nil => rfl
  | append_singleton tr t ih =>
    rw [intervals, hist_snoc, Intervals.next_of_eq (h t (by simp)).symm]
    exact ih fun t ht => h t (List.mem_append_left _ ht)

/-- **The outage history is exactly the list of intervals on battery**, for a context that starts
without an open entry and in every execution without a restart. -/
theorem keepsHistory (x : Execution (system s)) (i : s.Ix)
    (hopen : (x.start.ctx i).outageLog.state = none) (hr : ∀ t ∈ x.steps, ∀ e, t.act ≠ .restart e) :
    KeepsHistory x i := by
  have hlogs : Logs (onBattery i) (openSince i) (completed i) StartsAt EndsAt (completed i x.start)
      (intervals (onBattery i) x.steps) x.last :=
    x.run.logs (idle_of_init x.init i).2.2 (by rw [openSince, hopen]; rfl)
      fun t ht ho => logsFlip (x.takes ht) (wellFormed_pre x ht i) (hr t ht) ho
  refine ⟨hlogs, fun hmains => ?_⟩
  have hpre : ∀ t ∈ x.steps, onBattery i t.pre = onBattery i t.post := by
    intro t ht
    obtain ⟨tr₁, tr₂, hx, h₁, -, -⟩ := x.run.of_mem ht
    rw [hmains t ht]
    exact h₁.invWhen (I := fun w => onBattery i w = false) (C := fun t => onBattery i t.post = false)
      (fun _ _ hC _ => hC) (idle_of_init x.init i).2.2
      fun t' ht' => hmains t' (hx ▸ List.mem_append_left _ ht')
  rw [intervals_onBattery_eq hpre] at hlogs
  obtain ⟨rs, hrs, hall⟩ := hlogs.records
  have hentry := hlogs.entry
  rw [List.forall₂_nil_left_iff.mp hall, List.append_nil] at hrs
  change (x.last.ctx i).outageLog.history = (x.start.ctx i).outageLog.history at hrs
  have hstate : (x.last.ctx i).outageLog.state = none := by
    generalize he : openSince i x.last = entry at hentry
    cases hentry
    simpa [openSince] using he
  exact OutageLog.ext (hstate.trans hopen.symm) hrs

/-- Two outages of the primary's UPS, the first within one of the desktop's. -/
def twoOutages : List (Action pairSite) :=
  [.call pairDesk (.at 0) (.upsStatus "OB"), .call pairMain (.at 1) (.upsStatus "OL"),
    .call pairMain (.at 5) (.event .onbatt), .call pairMain (.at 9) (.event .online),
    .call pairDesk (.at 12) (.upsStatus "OL"), .call pairMain (.at 12) (.upsStatus "OL"),
    .call pairMain (.at 20) (.upsStatus "OB"), .call pairMain (.at 27) (.upsStatus "OL")]

def twoOutagesExecution : Execution (system pairSite) :=
  .ofLabels (system pairSite) (.boot (.at 0) fun _ => {}) twoOutages ⟨_, _, rfl⟩ (by decide)

theorem keepsHistory_twoOutages : KeepsHistory twoOutagesExecution pairMain ∧
    (twoOutagesExecution.last.ctx pairMain).outageLog.history =
      [⟨5, 9, 4, .powerRestored⟩, ⟨20, 27, 7, .powerRestored⟩] := by
  refine ⟨keepsHistory _ _ (by decide) fun t ht e hact => ?_, by decide⟩
  have hmem : t.act ∈ twoOutages := by
    rw [← show twoOutagesExecution.steps.map (·.act) = _ from Execution.acts_ofLabels ..]
    exact List.mem_map_of_mem (f := (·.act)) ht
  rw [hact] at hmem
  simp [twoOutages] at hmem

/-! ## Self-shutdowns after the reboot -/

namespace Ctx

variable {d : UPSDeviceConfig} {p : Peers} {e : Env} {c : Ctx} {pc : Pc}

/-- **The shutdown is accounted for**: the open entry says that it was initiated, and the next start
completes the entry. -/
def Accounted (c : Ctx) : Prop :=
  ∃ entry, c.outageLog.state = some entry ∧ entry.outcome = some .shutdownInitiated ∧
    ∀ e : Env, (c.reboot.resetStateOnStartup e).outageLog =
      { state := none
        history := c.outageLog.history ++ [
          { outageStart := entry.outageStart, outageEnd := e.clock .resetEnd
            durationSeconds := e.clock .resetEnd - entry.outageStart
            outcome := .powerRestoredAfterReboot }] }

theorem outageLog_reset : (c.reboot.resetStateOnStartup e).outageLog =
    c.outageLog.resolveOnStartup (e.clock .resetEnd) := by
  simp only [resetStateOnStartup, cancelShutdownOnStartup]
  split
  · rfl
  · split_ifs <;> rfl

theorem accounted_iff : c.Accounted ↔
    ∃ entry, c.outageLog.state = some entry ∧ entry.outcome = some .shutdownInitiated := by
  constructor
  · rintro ⟨entry, hs, ho, -⟩
    exact ⟨entry, hs, ho⟩
  · rintro ⟨entry, hs, ho⟩
    refine ⟨entry, hs, ho, fun e => ?_⟩
    simp only [outageLog_reset, OutageLog.resolveOnStartup, hs, ho, if_true]
    rfl

variable (d e) in
/-- The worker at `pc` comes to `_terminal_action` in `shutting_down`, on a primary whose own UPS is
on battery. -/
def ShutdownDue (c : Ctx) (pc : Pc) : Prop :=
  c.mode = .shuttingDown ∧ d.isObserver = false ∧ c.upsOnBattery = true ∧
    match pc with
    | .terminalAction => True
    | .pushingShutdown =>
      e.clock .deadline + d.timing.desktopShutdownWait ≤ e.clock .loop ∨ c.desktopState.isDown
    | .waitingDesktop deadline => deadline ≤ e.clock .loop ∨ c.desktopState.isDown
    | _ => False

theorem selfShutdown_terminalAction (hc : c.out = []) :
    .selfShutdown ∈ (c.terminalAction d).out ↔
      c.mode = .shuttingDown ∧ d.isObserver = false ∧ c.upsOnBattery = true := by
  unfold terminalAction
  split_ifs with h1 h2 h3
  · simp [hc, h1]
  · simp only [Bool.and_eq_true, Bool.not_eq_true'] at h2
    simp [leaveMonitoring, hc, h2]
  · simp [emit, hc, h3]
  · simp only [Bool.not_eq_true] at h3
    simp [h3] at h2
    simp [emit, hc, not_not.mp h1, h2, h3]

theorem selfShutdown_waitIteration (hc : c.out = []) (deadline : Int) :
    .selfShutdown ∈ (c.waitIteration d e deadline).1.out ↔
      c.mode = .shuttingDown ∧ d.isObserver = false ∧ c.upsOnBattery = true ∧
        (deadline ≤ e.clock .loop ∨ c.desktopState.isDown) := by
  have hterm := selfShutdown_terminalAction (d := d) hc
  unfold waitIteration
  split_ifs with h1 h2 h3
  · simp [hc, h2]
  · rw [hterm]
    simp [h3]
  · simp [hc, h3, not_le.mpr h1]
  · rw [hterm]
    simp [not_lt.mp h1]

theorem selfShutdown_holdIteration (hc : c.out = []) (deadline : Int) :
    .selfShutdown ∉ (c.holdIteration p e deadline).1.out := by
  unfold holdIteration
  split_ifs <;> simp [emit, hc]

theorem selfShutdown_wakeIteration (hc : c.out = []) (deadline nextRetry : Int) :
    .selfShutdown ∉ (c.wakeIteration e deadline nextRetry).1.out := by
  unfold wakeIteration shutdownAfterWake
  split_ifs <;> simp [pushCriticalShutdown, saveAndPush, saveCommand, emit, hc]

/-- **When the server is shut down.** -/
theorem selfShutdown_iff (hc : c.out = []) :
    .selfShutdown ∈ (segment d p e c pc).1.out ↔ ShutdownDue d e c pc := by
  cases pc with
  | terminalAction => simpa [ShutdownDue, segment] using selfShutdown_terminalAction hc
  | pushingShutdown => exact selfShutdown_waitIteration hc _
  | waitingDesktop deadline => exact selfShutdown_waitIteration hc _
  | observerPowerOff =>
    simp only [ShutdownDue, and_false, iff_false, segment, observerPowerOffWhenDesktopSafe]
    split_ifs
    · simp [emit, hc]
    · exact selfShutdown_holdIteration hc _
  | observerHolding deadline => simpa [ShutdownDue, segment] using selfShutdown_holdIteration hc deadline
  | forceShutdownDesktop =>
    simp [ShutdownDue, segment, pushCriticalShutdown, saveAndPush, saveCommand, emit, hc]
  | wakeThenShutdown => simp [ShutdownDue, segment, emit, hc]
  | sendingWol => simpa [ShutdownDue, segment] using selfShutdown_wakeIteration hc _ _
  | wakeSleeping deadline nextRetry => simpa [ShutdownDue, segment] using selfShutdown_wakeIteration hc _ _
  | resendingWol deadline => simp [ShutdownDue, segment, hc]
  | fetchingState deadline nextRetry =>
    have hf := fetchStateFromDesktop_fst (c := c) (d := d) (e := e)
    simp only [ShutdownDue, and_false, iff_false, segment, wakeAfterFetch, hf, shutdownAfterWake]
    split_ifs <;> simp [pushCriticalShutdown, saveAndPush, saveCommand, emit, hc]

end Ctx

/-- A worker of context `i` shuts the server down. -/
def ShutsServerDown (i : s.Ix) (t : Step s) : Prop :=
  ∃ e, ∃ th ∈ (t.pre.ctx i).threads, t.act = .call i e (.worker th.id) ∧
    Ctx.ShutdownDue (s.dev i) e (t.pre.ctx i) th.pc

theorem selfShutdown_of_shutsServerDown (ht : (system s).Takes t)
    (hs : (t.pre.ctx i).Sound (s.dev i)) :
    .selfShutdown ∈ (t.post.ctx i).out ↔ ShutsServerDown i t := by
  constructor
  · intro hout
    obtain ⟨e, th, c, pc, step, -⟩ := (effect_cases ht hout).resolve_left id
    have hseg : .selfShutdown ∈
        (Ctx.segment (s.dev i) (t.pre.peersOf i) e (t.pre.ctx i).quiet th.pc).1.out := by
      rw [step.seg]
      rw [step.post] at hout
      exact hout
    exact ⟨e, th, step.mem, step.act, (Ctx.selfShutdown_iff (c := (t.pre.ctx i).quiet) rfl).mp hseg⟩
  · rintro ⟨e, th, hth, hact, hdue⟩
    obtain ⟨c, pc, step⟩ := workerStep_of_act ht hs hth hact
    have hout := (Ctx.selfShutdown_iff (p := t.pre.peersOf i) (c := (t.pre.ctx i).quiet) rfl).mpr hdue
    rw [step.seg] at hout
    rw [step.post]
    exact hout

/-- **Every self-shutdown of the execution is accounted for.** -/
def ShutdownsAccounted (x : Execution (system s)) : Prop :=
  ∀ t ∈ x.steps, ∀ i, .selfShutdown ∈ (t.post.ctx i).out → (t.post.ctx i).Accounted

/-- The UPS of context `i` goes on battery in `shutting_down`, or has done so in this episode. -/
def lateNext (i : s.Ix) (late : Bool) (t : Step s) : Bool :=
  if (t.pre.ctx i).mode = .shuttingDown ∧ (t.post.ctx i).mode = .shuttingDown then
    late || (!onBattery i t.pre && onBattery i t.post)
  else false

/-- The UPS of context `i` has gone on battery since the mode became `shutting_down`. -/
def wentOnBatteryLate (i : s.Ix) (tr : List (Step s)) : Bool := hist (lateNext i) false tr

/-- While UPS `i` is on battery there is an open entry. In `shutting_down` it is marked, unless the
UPS went on battery late. -/
def Marked (i : s.Ix) (late : Bool) (w : World s) : Prop :=
  onBattery i w = true → ∃ entry, (w.ctx i).outageLog.state = some entry ∧
    ((w.ctx i).mode = .shuttingDown → (entry.outcome = some .shutdownInitiated ↔ late = false))

theorem marked_step (ht : (system s).Takes t) (h : (t.pre.ctx i).WellFormed (s.dev i)) {late : Bool}
    (hJ : Marked i late t.pre) : Marked i (lateNext i late t) t.post := by
  intro hp
  have henter : (t.pre.ctx i).mode ≠ .shuttingDown → lateNext i late t = false :=
    fun hm => if_neg fun h => hm h.1
  have hstay : (t.pre.ctx i).mode = .shuttingDown → (t.post.ctx i).mode = .shuttingDown →
      lateNext i late t = (late || (!onBattery i t.pre && onBattery i t.post)) :=
    fun hm hm' => if_pos ⟨hm, hm'⟩
  by_cases hr : ∃ e, t.act = .restart e
  · obtain ⟨e, hact⟩ := hr
    have hoff : onBattery i t.post = false := by
      rw [onBattery, ctx_of_restart ht hact]
      exact (Ctx.reset_frame e).2.2.2.1
    exact absurd (hp.symm.trans hoff) (by decide)
  cases logStep ht h fun e he => hr ⟨e, he⟩ with
  | keep power log mode =>
    obtain ⟨entry, hs, hmark⟩ := hJ (power.symm.trans hp)
    refine ⟨entry, log ▸ hs, fun hm => ?_⟩
    rw [hmark (mode hm), hstay (mode hm) hm]
    simp only [onBattery, power, Bool.not_and_self, Bool.or_false]
  | mark power mode mode' log =>
    obtain ⟨entry, hs, -⟩ := hJ (power.symm.trans hp)
    rw [OutageLog.recordEnd_mark hs] at log
    refine ⟨_, by rw [log], fun _ => ?_⟩
    simp [henter (by rw [mode]; decide)]
  | clear power power' => exact absurd (power'.symm.trans hp) (by decide)
  | start r reading power power' mode log =>
    refine ⟨_, by rw [log, OutageLog.state_recordStart], fun hm => ?_⟩
    rw [hstay (mode hm) hm]
    simp [onBattery, power, power']
  | startMark r reading power power' mode mode' log =>
    rw [OutageLog.recordEnd_mark OutageLog.state_recordStart] at log
    refine ⟨_, by rw [log], fun _ => ?_⟩
    simp [henter mode]
  | stop power power' => exact absurd (power'.symm.trans hp) (by decide)

theorem marked_run (x : Execution (system s)) {tr₁ tr₂ : List (Step s)} (hx : x.steps = tr₁ ++ tr₂)
    (h : Run (system s) x.start tr₁ w) (i : s.Ix) : Marked i (wentOnBatteryLate i tr₁) w := by
  refine h.inv_histWhen (lateNext i) false (C := fun t => (t.pre.ctx i).WellFormed (s.dev i))
    (J := Marked i) (fun late t ht hw hJ => marked_step ht hw hJ) (fun hp => ?_)
    fun t ht => wellFormed_pre x (hx ▸ List.mem_append_left _ ht) i
  exact absurd (hp.symm.trans (idle_of_init x.init i).2.2) (by decide)

/-- **Every self-shutdown is accounted for after the reboot, exactly when** the server is shut down
only for outages of the UPS that began before the shutdown was initiated. -/
theorem shutdownsAccounted_iff (x : Execution (system s)) :
    ShutdownsAccounted x ↔ ∀ tr₁ t tr₂, x.steps = tr₁ ++ t :: tr₂ → ∀ i, ShutsServerDown i t →
      wentOnBatteryLate i tr₁ = false := by
  have hkey : ∀ tr₁ t tr₂, x.steps = tr₁ ++ t :: tr₂ → ∀ i, ShutsServerDown i t →
      ((t.post.ctx i).Accounted ↔ wentOnBatteryLate i tr₁ = false) := by
    intro tr₁ t tr₂ hx i hsd
    obtain ⟨h₁, ht, -⟩ := (hx ▸ x.run).around
    have hmem : t ∈ x.steps := by simp [hx]
    obtain ⟨e, th, hth, hact, hdue⟩ := hsd
    obtain ⟨c, pc, step⟩ := workerStep_of_act ht (Reachable.sound (x.reachable_pre hmem) i) hth hact
    have hlog : (t.post.ctx i).outageLog = (t.pre.ctx i).outageLog := by
      have hframe := (Ctx.segment_frame (d := s.dev i) (p := t.pre.peersOf i) (e := e)
        (c := (t.pre.ctx i).quiet) th.pc).2.2.2
      rw [step.seg] at hframe
      rw [step.post]
      exact hframe
    obtain ⟨entry, hs, hmark⟩ := marked_run x hx h₁ i hdue.2.2.1
    rw [Ctx.accounted_iff, hlog, ← hmark hdue.1]
    constructor
    · rintro ⟨entry', hs', ho⟩
      rwa [Option.some.inj (hs.symm.trans hs')]
    · intro ho
      exact ⟨entry, hs, ho⟩
  constructor
  · intro h tr₁ t tr₂ hx i hsd
    have hmem : t ∈ x.steps := by simp [hx]
    have hs := Reachable.sound (x.reachable_pre hmem) i
    exact (hkey tr₁ t tr₂ hx i hsd).mp
      (h t hmem i ((selfShutdown_of_shutsServerDown (x.takes hmem) hs).mpr hsd))
  · intro h t ht i hout
    have hs := Reachable.sound (x.reachable_pre ht) i
    have hsd := (selfShutdown_of_shutsServerDown (x.takes ht) hs).mp hout
    obtain ⟨tr₁, tr₂, hx, -⟩ := x.run.of_mem ht
    exact (hkey tr₁ t tr₂ hx i hsd).mpr (h tr₁ t tr₂ hx i hsd)

/-- The desktop's UPS is out and the desktop is off. The primary's own UPS goes on battery between
the end of the phase and the worker's step. -/
def lateOutage : List (Action pairSite) :=
  [.call pairDesk (.at 0) (.upsStatus "OB"),
    .call pairMain (.at 0 (some { status := some (some .offline) })) (.upsStatus "OL"),
    .call pairMain (.at 300) .timer, .call pairMain (.at 300) (.upsStatus "OB"),
    .call pairMain (.at 301) (.worker 0)]

theorem not_shutdownsAccounted : pairSite.Loaded ∧
    ∃ x : Execution (system pairSite), ¬ShutdownsAccounted x := by
  refine ⟨pairSite_loaded, ?_⟩
  obtain ⟨x, t, ht, hout, hlog⟩ := exists_execution (S := system pairSite) lateOutage
    (P := fun tr => ∃ t ∈ tr, .selfShutdown ∈ (t.post.ctx pairMain).out ∧
      (t.post.ctx pairMain).outageLog.state = some { outageStart := 300 })
    ⟨.at 0, fun _ => {}, rfl⟩ (by decide)
  refine ⟨x, fun h => ?_⟩
  obtain ⟨entry, hs, ho⟩ := Ctx.accounted_iff.mp (h t ht pairMain hout)
  obtain rfl := Option.some.inj (hlog.symm.trans hs)
  exact absurd ho (by decide)

end UpsOrchestrator

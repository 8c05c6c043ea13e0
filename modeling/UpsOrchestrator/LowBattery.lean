import UpsOrchestrator.Observers
import Mathlib.Data.Set.Basic

/-!
# A low battery on mains

A UPS that is back on mains may still report a low battery, as in `OL CHRG LB`. The flags are tested
one by one, and `LB` alone counts as on battery.

* `OnLineStatus`: a status with `OL` and without `OB`.
* `TreatedAsMains`: such statuses are no outage of the UPS, and lead to no terminal effect.
* **`treatedAsMains_iff`**: this holds exactly of the statuses without `LB`.
-/

set_option autoImplicit false

namespace UpsOrchestrator

open Lts

/-- A status of a UPS on mains. -/
structure OnLineStatus where
  text : String
  onLine : hasFlag "OL" text = true
  notOnBattery : hasFlag "OB" text = false

theorem OnLineStatus.ownReport (a : OnLineStatus) :
    (Call.upsStatus a.text).ownReport = some (hasFlag "LB" a.text) := by
  simp only [Call.ownReport, a.notOnBattery, a.onLine, Bool.false_or]
  cases hasFlag "LB" a.text <;> rfl

variable {s : Site} {t : Step s} {i : s.Ix} {w : World s}

/-- What context `i` makes of a poll. -/
def World.afterPoll (w : World s) (i : s.Ix) (e : Env) (a : OnLineStatus) : Ctx :=
  (w.ctx i).quiet.handleUpsStatusTransition (s.dev i) e (w.peersOf i).desktopUpsOnBattery a.text

theorem exec_afterPoll (e : Env) (a : OnLineStatus) :
    (Call.upsStatus a.text).exec (s.dev i) (w.peersOf i) e (w.ctx i).quiet =
      some (w.afterPoll i e a) := rfl

/-- All reports on UPS `i` are statuses of `A`, and no other UPS of an observer's desktop is out. -/
structure OnlyReports (i : s.Ix) (A : Set OnLineStatus) (t : Step s) : Prop where
  reports : ∀ e k, t.act = .call i e k → k.ownReport ≠ none → ∃ a ∈ A, k = .upsStatus a.text
  alone : (s.dev i).isObserver = true → (t.pre.peersOf i).desktopUpsOnBattery = false

/-- The call may carry out the phase action without a report of the UPS. -/
def Call.mayStrike : Call → Bool
  | .timer => true
  | .upsUnavailable => true
  | .event .desktopSuspendDue => true
  | _ => false

/-- While it monitors, context `i` is called by nothing that may strike. -/
def LeftAlone (i : s.Ix) (t : Step s) : Prop :=
  (t.pre.ctx i).mode = .monitoring → ∀ e k, t.act = .call i e k → k.mayStrike = false

/-- **The statuses `A` are treated as mains** by context `i`. -/
structure TreatedAsMains (i : s.Ix) (A : Set OnLineStatus) : Prop where
  /-- they do not count as on battery -/
  note : ∀ w, (system s).Reachable w → ∀ e, ∀ a ∈ A, (w.afterPoll i e a).upsOnBattery = false
  /-- they take a context at rest into an outage only on account of the desktop's UPS -/
  rest : ∀ w, (system s).Reachable w → ∀ e, ∀ a ∈ A,
    (w.ctx i).mode = .idle ∨ (w.ctx i).mode = .desktopHandled →
    (w.afterPoll i e a).mode = .monitoring ∨ (w.afterPoll i e a).mode = .shuttingDown →
    (w.peersOf i).desktopUpsOnBattery = true
  /-- by themselves they lead to no terminal effect -/
  harmless : ∀ w, (system s).Reachable w → ∀ tr w', Run (system s) w tr w' →
    (∀ t ∈ tr, OnlyReports i A t) →
    ((s.dev i).isObserver = false → (w.ctx i).upsOnBattery = false) →
    ((s.dev i).isObserver = true → (w.ctx i).threads = [] ∧ ((w.ctx i).mode = .idle ∨
      ((w.ctx i).mode = .monitoring ∧ ∀ t ∈ tr, LeftAlone i t))) →
    ∀ t ∈ tr, .selfShutdown ∉ (t.post.ctx i).out ∧ .powerOffUps ∉ (t.post.ctx i).out

/-! ## Without `LB` -/

variable {A : Set OnLineStatus}

theorem OnlyReports.ownReport (h : OnlyReports i A t) (hA : ∀ a ∈ A, hasFlag "LB" a.text = false)
    {e : Env} {k : Call} (hact : t.act = .call i e k) : k.ownReport.getD false = false := by
  by_cases hk : k.ownReport = none
  · rw [hk]
    rfl
  · obtain ⟨a, ha, rfl⟩ := h.reports e k hact hk
    rw [a.ownReport, hA a ha]
    rfl

theorem power_of_onlyReports (ht : (system s).Takes t) (hr : OnlyReports i A t)
    (hA : ∀ a ∈ A, hasFlag "LB" a.text = false) (hp : (t.pre.ctx i).upsOnBattery = false) :
    (t.post.ctx i).upsOnBattery = false := by
  cases ctxStep ht i with
  | handler e k act hk exec =>
    rw [(Ctx.handlerFrame hk exec).power]
    change k.ownReport.getD (t.pre.ctx i).upsOnBattery = false
    rw [hp]
    exact hr.ownReport hA act
  | worker e th c pc step =>
    rw [step.post]
    exact step.power.trans hp
  | other j e k act hj post => rw [post]; exact hp
  | restart e act post => rw [post]; exact (Ctx.reset_frame e).2.2.2.1

theorem OnlyReports.not_reportsOutage (h : OnlyReports i A t)
    (hA : ∀ a ∈ A, hasFlag "LB" a.text = false) : ¬t.act.ReportsOutage i := by
  rintro ⟨e, k, hact, hk⟩
  have hfalse := h.ownReport hA hact
  rw [hk] at hfalse
  exact absurd hfalse (by decide)

theorem harmless_primary (hi : (s.dev i).isObserver = false)
    (hA : ∀ a ∈ A, hasFlag "LB" a.text = false) (hw : (system s).Reachable w)
    (hp : (w.ctx i).upsOnBattery = false) {tr : List (Step s)} {w' : World s}
    (h : Run (system s) w tr w') (hr : ∀ t ∈ tr, OnlyReports i A t) :
    ∀ t ∈ tr, .selfShutdown ∉ (t.post.ctx i).out ∧ .powerOffUps ∉ (t.post.ctx i).out := by
  intro t ht
  obtain ⟨tr₁, tr₂, rfl, h₁, ha, -⟩ := h.of_mem ht
  have hpre : (t.pre.ctx i).upsOnBattery = false :=
    h₁.invWhen (I := fun w => (w.ctx i).upsOnBattery = false) (C := OnlyReports i A)
      (fun t ht hr hp => power_of_onlyReports ht hr hA hp) hp
      fun t' ht' => hr t' (List.mem_append_left _ ht')
  have hs := Reachable.sound (hw.run h₁) i
  constructor
  · intro hout
    obtain ⟨e, th, c, pc, step, heff⟩ := (effect_cases ha hout).resolve_left id
    cases heff with
    | shutdown _ _ power => exact absurd (power.symm.trans hpre) (by decide)
  · intro hout
    obtain ⟨e, th, c, pc, step, heff⟩ := (effect_cases ha hout).resolve_left id
    cases heff with
    | powerOff _ fits => exact absurd ((fits (hs.fits th step.mem)).symm.trans hi) (by decide)

/-- An observer in monitoring strikes only on a report of an outage or on a call that may strike. -/
theorem mode_ne_shuttingDown {d : UPSDeviceConfig} {p : Peers} {e : Env} {c c' : Ctx} {k : Call}
    (hk : ∀ id, k ≠ .worker id) (hd : d.isObserver = true) (hp : p.desktopUpsOnBattery = false)
    (hr : k.ownReport ≠ some true) (hs : k.mayStrike = false) (hm : c.mode = .monitoring)
    (h : k.exec d p e c = some c') : c'.mode ≠ .shuttingDown := by
  have hb : (c.noteReport e k).mode = .monitoring :=
    (congrArg OrchState.mode Ctx.noteReport_frame.1).trans hm
  have hmon : ∀ {m : Mode}, m = (c.noteReport e k).mode → m ≠ .shuttingDown := fun he => by
    rw [he, hb]
    decide
  cases Ctx.performs_handler hk h with
  | nothing => exact hmon rfl
  | fetch =>
    rw [Ctx.fetchStateFromDesktop_fst]
    exact hmon rfl
  | start mode =>
    rw [hb] at mode
    exact absurd mode (by decide)
  | strike r _ why poll =>
    cases r with
    | phaseDeadline =>
      rcases poll rfl with h1 | h1 | rfl
      · exact absurd h1 hr
      · exact absurd (h1.symm.trans hp) (by decide)
      · cases hs
    | lowBattery =>
      obtain ⟨status, rfl, hl⟩ := why
      exact absurd (by simp [Call.ownReport, hl]) hr
    | lowBatteryEvent =>
      obtain rfl : k = .event .lowbatt := why
      exact absurd rfl hr
    | suspendDueEvent =>
      obtain rfl : k = .event .desktopSuspendDue := why
      cases hs
  | expire _ call =>
    subst call
    cases hs
  | startStrike _ _ _ report => exact absurd report hr
  | reset reason mode =>
    obtain ⟨log, cmd, out, -, he⟩ := Ctx.resetToIdle_eq (c := c.noteReport e k) (e := e) reason
    rw [he]
    simp
  | ignore => exact hmon rfl
  | confirm _ _ _ role => exact absurd (role.symm.trans hd) (by decide)
  | suspend _ role => exact absurd (role.symm.trans hd) (by decide)
  | createCommand => exact hmon rfl
  | ack id status =>
    rcases Ctx.ack_cases (c := c.noteReport e k) id status with ⟨cmd, -, -, he⟩ | ⟨-, he⟩
    · rw [he]
      exact hmon rfl
    · rw [he]
      exact hmon rfl

/-- Context `i` waits for its UPS, without a worker. -/
def Calm (i : s.Ix) (w : World s) : Prop :=
  (w.ctx i).threads = [] ∧ ((w.ctx i).mode = .idle ∨ (w.ctx i).mode = .monitoring)

/-- **Mains alone launches nothing** in an observer. -/
theorem calm_step (ht : (system s).Takes t) (hi : (s.dev i).isObserver = true)
    (hA : ∀ a ∈ A, hasFlag "LB" a.text = false) (hr : OnlyReports i A t) (hl : LeftAlone i t)
    (hc : Calm i t.pre) : Calm i t.post := by
  obtain ⟨hthreads, hidle | hm⟩ := hc
  · obtain ⟨hidle', hthreads'⟩ :=
      idle_no_threads ht (hr.alone hi) (hr.not_reportsOutage hA) ⟨hidle, hthreads⟩
    exact ⟨hthreads', .inl hidle'⟩
  cases ctxStep ht i with
  | handler e k act hk exec =>
    have hne := mode_ne_shuttingDown (c := (t.pre.ctx i).quiet) hk hi (hr.alone hi)
      (fun hown => hr.not_reportsOutage hA ⟨e, k, act, hown⟩) (hl hm e k act) hm exec
    cases Ctx.move_handler hk exec with
    | keep mode threads => exact ⟨threads.trans hthreads, .inr (mode.trans hm)⟩
    | start _ mode' threads => exact ⟨threads.trans hthreads, .inr mode'⟩
    | strike _ _ mode' => exact absurd mode' hne
    | standDown _ mode' threads => exact ⟨threads.trans hthreads, .inl mode'⟩
  | worker e th c pc step =>
    have hmem := step.mem
    rw [hthreads] at hmem
    exact absurd hmem List.not_mem_nil
  | other j e k act hj post =>
    rw [Calm, post]
    exact ⟨hthreads, .inr hm⟩
  | restart e act post =>
    rw [Calm, post]
    obtain ⟨hidle, hnone, -⟩ := Ctx.reset_frame (c := (t.pre.ctx i).quiet) e
    exact ⟨hnone, .inl hidle⟩

theorem harmless_observer (hi : (s.dev i).isObserver = true)
    (hA : ∀ a ∈ A, hasFlag "LB" a.text = false) {tr : List (Step s)} {w' : World s}
    (hthreads : (w.ctx i).threads = []) (hm : (w.ctx i).mode = .idle ∨
      ((w.ctx i).mode = .monitoring ∧ ∀ t ∈ tr, LeftAlone i t))
    (h : Run (system s) w tr w') (hr : ∀ t ∈ tr, OnlyReports i A t) :
    ∀ t ∈ tr, .selfShutdown ∉ (t.post.ctx i).out ∧ .powerOffUps ∉ (t.post.ctx i).out := by
  intro t ht
  obtain ⟨tr₁, tr₂, rfl, h₁, ha, -⟩ := h.of_mem ht
  have hpast : ∀ t' ∈ tr₁, t' ∈ tr₁ ++ t :: tr₂ := fun _ => List.mem_append_left _
  have hpre : (t.pre.ctx i).threads = [] := by
    rcases hm with hidle | ⟨hm, hl⟩
    · exact (h₁.invWhen (I := fun w => (w.ctx i).mode = .idle ∧ (w.ctx i).threads = [])
        (C := OnlyReports i A)
        (fun t ht hr hm => idle_no_threads ht (hr.alone hi) (hr.not_reportsOutage hA) hm)
        ⟨hidle, hthreads⟩ fun t' ht' => hr t' (hpast t' ht')).2
    · exact (h₁.invWhen (I := Calm i) (C := fun t => OnlyReports i A t ∧ LeftAlone i t)
        (fun t ht hC hc => calm_step ht hi hA hC.1 hC.2 hc) ⟨hthreads, .inr hm⟩
        fun t' ht' => ⟨hr t' (hpast t' ht'), hl t' (hpast t' ht')⟩).1
  have hno : ∀ e th c pc, ¬WorkerStep t i e th c pc := by
    intro e th c pc step
    have hmem := step.mem
    rw [hpre] at hmem
    exact absurd hmem List.not_mem_nil
  constructor
  · intro hout
    obtain ⟨e, th, c, pc, step, -⟩ := (effect_cases ha hout).resolve_left id
    exact hno e th c pc step
  · intro hout
    obtain ⟨e, th, c, pc, step, -⟩ := (effect_cases ha hout).resolve_left id
    exact hno e th c pc step

theorem treatedAsMains_of_noLB (hA : ∀ a ∈ A, hasFlag "LB" a.text = false) :
    TreatedAsMains i A := by
  refine ⟨fun w _ e a ha => ?_, fun w _ e a ha _ hout => ?_, fun w hw tr w' h hr hp hrest => ?_⟩
  · rw [(Ctx.handlerFrame (by simp) (exec_afterPoll e a)).power, a.ownReport, hA a ha]
    rfl
  · by_contra hpeers
    rw [Bool.not_eq_true] at hpeers
    have hidle : (w.afterPoll i e a).mode = .idle := by
      rw [World.afterPoll, hpeers]
      exact Ctx.mode_poll_mains a.onLine a.notOnBattery (hA a ha)
    rw [hidle] at hout
    simp at hout
  · cases hi : (s.dev i).isObserver with
    | false => exact harmless_primary hi hA hw (hp hi) h hr
    | true =>
      obtain ⟨hthreads, hm⟩ := hrest hi
      exact harmless_observer hi hA hthreads hm h hr

/-- **A status of a UPS on mains is treated as such exactly when it has no `LB`.** -/
theorem treatedAsMains_iff (i : s.Ix) (A : Set OnLineStatus) :
    TreatedAsMains i A ↔ ∀ a ∈ A, hasFlag "LB" a.text = false := by
  refine ⟨fun h a ha => ?_, treatedAsMains_of_noLB⟩
  have hboot : (system s).Reachable (World.boot (.at 0) fun _ => {}) :=
    ⟨_, [], ⟨_, _, rfl⟩, .nil _⟩
  have hnote := h.note _ hboot (.at 0) a ha
  rw [(Ctx.handlerFrame (by simp) (exec_afterPoll _ a)).power, a.ownReport] at hnote
  exact hnote

/-! ## With `LB` -/

/-- Back on mains with the battery still low. -/
def chargingLow : OnLineStatus := ⟨"OL CHRG LB", by decide, by decide⟩

/-- The report of `chargingLow` while the desktop is off shuts the server down. -/
def chargingLowRun : List (Action deskSite) :=
  [.call mainUps (.at 0 (some { status := some (some .offline) })) (.upsStatus "OL CHRG LB"),
    .call mainUps (.at 0) (.worker 0)]

def chargingLowExecution : Execution (system deskSite) :=
  .ofLabels (system deskSite) (.boot (.at 0) fun _ => {}) chargingLowRun ⟨_, _, rfl⟩ (by decide)

theorem selfShutdown_chargingLow :
    ∃ t ∈ chargingLowExecution.steps, .selfShutdown ∈ (t.post.ctx mainUps).out := by decide

theorem onlyReports_chargingLow :
    ∀ t ∈ chargingLowExecution.steps, OnlyReports mainUps Set.univ t := by
  intro t ht
  have hmem : t.act ∈ chargingLowRun := by
    rw [← show chargingLowExecution.steps.map (·.act) = _ from Execution.acts_ofLabels ..]
    exact List.mem_map_of_mem (f := (·.act)) ht
  refine ⟨fun e k hact hk => ?_, fun ho => absurd ho (by decide)⟩
  rw [hact] at hmem
  simp only [chargingLowRun, List.mem_cons, Action.call.injEq, List.not_mem_nil, or_false] at hmem
  rcases hmem with ⟨-, -, rfl⟩ | ⟨-, -, rfl⟩
  · exact ⟨chargingLow, Set.mem_univ _, rfl⟩
  · exact absurd rfl hk

theorem not_treatedAsMains : deskSite.Loaded ∧ ¬TreatedAsMains mainUps Set.univ := by
  refine ⟨deskSite_loaded, fun h => ?_⟩
  obtain ⟨t, ht, hout⟩ := selfShutdown_chargingLow
  have hnone := h.harmless chargingLowExecution.start ⟨_, [], chargingLowExecution.init, .nil _⟩ _ _
    chargingLowExecution.run onlyReports_chargingLow (by decide) (fun ho => absurd ho (by decide)) t ht
  exact hnone.1 hout

end UpsOrchestrator

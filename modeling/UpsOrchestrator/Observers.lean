import UpsOrchestrator.Steps

/-!
# Observers that share a desktop

`_follow_desktop_ups` is reached by every context, so an observer whose desktop has a second
observer follows that one's UPS as a primary would.

* **`observersWatchOwnUps_iff`**: observers act on their own UPS alone exactly when no two of them
  share a desktop.
* **`standsDown_iff`**: the same condition decides whether all contexts stand down after a recovery.
* `twinSite`: a configuration the loader accepts with two observers on one desktop.
-/

set_option autoImplicit false

namespace UpsOrchestrator

open Lts

/-! ## Handlers at rest -/

namespace Ctx

variable {d : UPSDeviceConfig} {p : Peers} {e : Env} {c c' : Ctx}

theorem handler_idle {k : Call} (hk : ∀ id, k ≠ .worker id) (hp : p.desktopUpsOnBattery = false)
    (hr : k.ownReport ≠ some true) (hm : c.mode = .idle) (h : k.exec d p e c = some c') :
    c'.mode = .idle := by
  have hb : (c.noteReport e k).mode = .idle := (congrArg OrchState.mode noteReport_frame.1).trans hm
  have hne : (c.noteReport e k).mode ≠ .monitoring := by rw [hb]; decide
  cases performs_handler hk h with
  | nothing => exact hb
  | fetch =>
    rw [fetchStateFromDesktop_fst]
    exact hb
  | start _ outage => exact absurd outage (by simp [hr, hp])
  | strike _ mode => exact absurd mode hne
  | expire =>
    rw [executePhaseAction_of_ne _ (by exact hne)]
    exact hb
  | startStrike _ _ _ report => exact absurd report hr
  | reset _ mode => exact absurd hb mode
  | ignore => exact hb
  | confirm _ _ _ _ mode => exact absurd mode hne
  | suspend _ _ mode => exact absurd mode hne
  | createCommand => exact hb
  | ack id status =>
    rcases ack_cases (c := c.noteReport e k) id status with ⟨cmd, -, -, he⟩ | ⟨-, he⟩
    · rw [he]
      exact hb
    · rw [he]
      exact hb

theorem mode_checkPhaseDeadline (h : c.mode = .monitoring) :
    (c.checkPhaseDeadline d e).mode ≠ .idle := by
  unfold checkPhaseDeadline
  split_ifs
  · rw [h]
    decide
  · rw [executePhaseAction_eq _ h]
    simp

theorem mode_poll_OB (o : Bool) : (c.handleUpsStatusTransition d e o "OB").mode ≠ .idle := by
  have hact : ∀ c' : Ctx, (c'.upsStatusAction d e o "OB" c'.mode).mode ≠ .idle := by
    intro c'
    rw [upsStatusAction, if_neg (by decide), if_pos (by decide)]
    split_ifs with h1 h2
    · unfold startMonitoringIfMode
      rw [if_pos (by simpa using h1), startBatteryMonitoring_frame.1]
      decide
    · exact mode_checkPhaseDeadline h2
    · exact fun h => h1 (.inl h)
  exact hact _

theorem mode_poll_OL_out : (c.handleUpsStatusTransition d e true "OL").mode ≠ .idle := by
  have hact : ∀ c' : Ctx, (c'.upsStatusAction d e true "OL" c'.mode).mode ≠ .idle := by
    intro c'
    rw [upsStatusAction, if_neg (by decide), if_neg (by decide), if_pos (by decide),
      followDesktopUps, if_pos rfl]
    split_ifs with h1 h2
    · unfold startMonitoringIfMode
      rw [if_pos (by simpa using h1), startBatteryMonitoring_frame.1]
      decide
    · exact mode_checkPhaseDeadline h2
    · exact h1
  exact hact _

theorem mode_followDesktopUps (r : String) : (c.followDesktopUps d e false c.mode r).mode = .idle := by
  rw [followDesktopUps, if_neg (by decide)]
  split_ifs with h1
  · obtain ⟨log, cmd, out, -, h⟩ := resetToIdle_eq (c := c) (e := e) r
    rw [h]
  · exact not_not.mp h1

theorem mode_poll_mains {status : String} (hol : hasFlag "OL" status = true)
    (hob : hasFlag "OB" status = false) (hlb : hasFlag "LB" status = false) :
    (c.handleUpsStatusTransition d e false status).mode = .idle := by
  have hact : ∀ c' : Ctx, (c'.upsStatusAction d e false status c'.mode).mode = .idle := by
    intro c'
    rw [upsStatusAction, if_neg (by rw [hlb]; decide), if_neg (by rw [hob]; decide), if_pos hol]
    exact mode_followDesktopUps _
  exact hact _

end Ctx

/-! ## What a context sees of its peers -/

variable {s : Site} {t : Step s} {i j : s.Ix} {w : World s}

theorem desktopUpsOnBattery_iff : (w.peersOf i).desktopUpsOnBattery = true ↔
    ∃ j ∈ s.desktopPeers i true, (w.ctx j).mode ≠ .idle := by
  simp [World.peersOf, Ctx.inOutage]

theorem desktopUpsOnBattery_eq_false (h : ∀ j ∈ s.desktopPeers i true, (w.ctx j).mode = .idle) :
    (w.peersOf i).desktopUpsOnBattery = false := by
  rw [← Bool.not_eq_true, desktopUpsOnBattery_iff]
  rintro ⟨j, hj, hne⟩
  exact hne (h j hj)

/-- The action reports the UPS of context `i` to be on battery, or its battery to be low. -/
def Action.ReportsOutage (i : s.Ix) (a : Action s) : Prop :=
  ∃ e k, a = .call i e k ∧ k.ownReport = some true

/-- **What takes a context out of idle**: a report about its own UPS, or the desktop's UPS. -/
theorem leaves_idle (h : (system s).Takes t) (hp : (t.pre.peersOf i).desktopUpsOnBattery = false)
    (hr : ¬t.act.ReportsOutage i) (hm : (t.pre.ctx i).mode = .idle) :
    (t.post.ctx i).mode = .idle := by
  cases ctxStep h i with
  | handler e k act hk exec =>
    exact Ctx.handler_idle (c := (t.pre.ctx i).quiet) hk hp (fun hown => hr ⟨e, k, act, hown⟩) hm exec
  | other j e k act hj post => rw [post]; exact hm
  | restart e act post => rw [post]; exact (Ctx.reset_frame e).1
  | worker e th c pc step =>
    rw [step.post]
    rcases step.outcome.orch_eq with ⟨ho, -⟩ | ⟨hsd, -⟩
    · exact (congrArg OrchState.mode ho).trans hm
    · exact absurd (hsd.symm.trans hm) (by decide)

/-! ## Observers and their own UPS -/

variable (s) in
/-- **Observers watch their own UPS.** In every run an observer leaves idle only on a report of an
outage of its own UPS, and is sent `upscmd` only after one. -/
def ObserversWatchOwnUps : Prop :=
  ∀ x : Execution (system s), ∀ i, (s.dev i).isObserver = true →
    (∀ t ∈ x.steps, (t.pre.ctx i).mode = .idle → (t.post.ctx i).mode ≠ .idle →
      t.act.ReportsOutage i) ∧
    ∀ tr₁ t tr₂, x.steps = tr₁ ++ t :: tr₂ → .powerOffUps ∈ (t.post.ctx i).out →
      ∃ t₀ ∈ tr₁, t₀.act.ReportsOutage i

theorem peersOf_eq_false (hN : s.NoTwinObservers) (hi : (s.dev i).isObserver = true) :
    (w.peersOf i).desktopUpsOnBattery = false :=
  desktopUpsOnBattery_eq_false fun j hj => by rw [hN i hi] at hj; exact absurd hj List.not_mem_nil

theorem idle_no_threads (h : (system s).Takes t)
    (hp : (t.pre.peersOf i).desktopUpsOnBattery = false) (hr : ¬t.act.ReportsOutage i)
    (hm : (t.pre.ctx i).mode = .idle ∧ (t.pre.ctx i).threads = []) :
    (t.post.ctx i).mode = .idle ∧ (t.post.ctx i).threads = [] := by
  have hidle := leaves_idle h hp hr hm.1
  refine ⟨hidle, ?_⟩
  cases ctxStep h i with
  | handler e k act hk exec =>
    cases Ctx.move_handler hk exec with
    | keep mode threads => exact threads.trans hm.2
    | start mode mode' => exact absurd (mode'.symm.trans hidle) (by decide)
    | strike pc mode mode' => exact absurd (mode'.symm.trans hidle) (by decide)
    | standDown mode => exact absurd hm.1 mode
  | worker e th c pc step =>
    have hmem := step.mem
    rw [hm.2] at hmem
    exact absurd hmem List.not_mem_nil
  | other j e k act hj post => rw [post]; exact hm.2
  | restart e act post => rw [post]; exact (Ctx.reset_frame e).2.1

theorem observersWatchOwnUps_of_noTwins (hN : s.NoTwinObservers) : ObserversWatchOwnUps s := by
  intro x i hi
  constructor
  · intro t ht hm hm'
    by_contra hr
    exact hm' (leaves_idle (x.takes ht) (peersOf_eq_false hN hi) hr hm)
  · intro tr₁ t tr₂ hx hout
    by_contra hno
    obtain ⟨h1, ha, -⟩ := (hx ▸ x.run).around
    -- without a report nothing has been launched
    have hpre := h1.invWhen (I := fun w => (w.ctx i).mode = .idle ∧ (w.ctx i).threads = [])
      (C := fun t => ¬t.act.ReportsOutage i)
      (fun t ht hr hm => idle_no_threads ht (peersOf_eq_false hN hi) hr hm)
      ⟨(idle_of_init x.init i).1, (idle_of_init x.init i).2.1⟩ (fun t₀ h0 hr => hno ⟨t₀, h0, hr⟩)
    rcases effect_cases ha hout with hh | ⟨e, th, c, pc, step, -⟩
    · exact hh
    · have hmem := step.mem
      rw [hpre.2] at hmem
      exact absurd hmem List.not_mem_nil

/-! ## Two observers on one desktop -/

/-- A poll of context `i` at time 0. -/
def pollAt (i : s.Ix) (status : String) : Action s := .call i (.at 0) (.upsStatus status)

/-- The world after a poll at time 0. -/
def World.polled (w : World s) (i : s.Ix) (status : String) : World s where
  now := 0
  ctx := Function.update w.quiet i ((w.ctx i).quiet.handleUpsStatusTransition (s.dev i) (.at 0)
    (w.peersOf i).desktopUpsOnBattery status)

theorem takes_pollAt (hw : w.now = 0) (i : s.Ix) (status : String) :
    (system s).Takes ⟨w, pollAt i status, w.polled i status⟩ := by
  change w.step (pollAt i status) = _
  unfold World.step pollAt
  rw [if_pos (by rw [hw]; exact le_rfl)]
  rfl

theorem polled_self (status : String) : (w.polled i status).ctx i =
    (w.ctx i).quiet.handleUpsStatusTransition (s.dev i) (.at 0)
      (w.peersOf i).desktopUpsOnBattery status := Function.update_self ..

theorem polled_of_ne {k : s.Ix} (status : String) (h : k ≠ i) :
    (w.polled i status).ctx k = (w.ctx k).quiet := Function.update_of_ne h ..

theorem polled_OB : ((w.polled i "OB").ctx i).mode ≠ .idle := by
  rw [polled_self]
  exact Ctx.mode_poll_OB _

/-- Observers `i` and `j` are out at time 0. -/
def BothOut (i j : s.Ix) (w : World s) : Prop :=
  w.now = 0 ∧ (w.ctx i).mode ≠ .idle ∧ (w.ctx j).mode ≠ .idle

/-- Each of the two keeps the other from standing down. -/
theorem bothOut_polled (hij : j ∈ s.desktopPeers i true) (hji : i ∈ s.desktopPeers j true)
    (h : BothOut i j w) (k : s.Ix) : BothOut i j (w.polled k "OL") := by
  obtain ⟨-, hi, hj⟩ := h
  have hpi := desktopUpsOnBattery_iff.mpr ⟨j, hij, hj⟩
  have hpj := desktopUpsOnBattery_iff.mpr ⟨i, hji, hi⟩
  have hout : ∀ x, (w.peersOf x).desktopUpsOnBattery = true → (w.ctx x).mode ≠ .idle →
      ((w.polled k "OL").ctx x).mode ≠ .idle := by
    intro x hp hm
    by_cases hk : x = k
    · subst hk
      rw [polled_self, hp]
      exact Ctx.mode_poll_OL_out
    · rw [polled_of_ne _ hk]
      exact hm
  exact ⟨rfl, hout i hpi hi, hout j hpj hj⟩

theorem not_reportsOutage_OL (i k : s.Ix) : ¬(pollAt k "OL").ReportsOutage i := by
  rintro ⟨e, call, ha, hr⟩
  obtain ⟨-, -, rfl⟩ := Action.call.inj ha
  exact absurd hr (by decide)

theorem twins_run (hij : j ∈ s.desktopPeers i true) :
    ∃ x : Execution (system s), BothOut i j x.last ∧
      ∃ t ∈ x.steps, (t.pre.ctx i).mode = .idle ∧ (t.post.ctx i).mode ≠ .idle ∧
        ¬t.act.ReportsOutage i := by
  let w₀ : World s := World.boot (.at 0) fun _ => {}
  have hinit : (system s).init w₀ := ⟨_, _, rfl⟩
  let w₁ := w₀.polled j "OB"
  let w₂ := w₁.polled i "OL"
  have hne : i ≠ j := (Site.ne_of_mem_desktopPeers hij).symm
  have h₁ : (w₁.ctx j).mode ≠ .idle := polled_OB
  have hidle : (w₁.ctx i).mode = .idle := by
    rw [show w₁.ctx i = _ from polled_of_ne _ hne]
    exact (idle_of_init hinit i).1
  have h₂ : (w₂.ctx i).mode ≠ .idle := by
    rw [show w₂.ctx i = _ from polled_self _, desktopUpsOnBattery_iff.mpr ⟨j, hij, h₁⟩]
    exact Ctx.mode_poll_OL_out
  have hrun := (Run.single (takes_pollAt (w := w₀) rfl j "OB")).append
    (Run.single (takes_pollAt (w := w₁) rfl i "OL"))
  refine ⟨⟨w₀, _, w₂, hinit, hrun⟩, ⟨rfl, h₂, ?_⟩, ⟨w₁, pollAt i "OL", w₂⟩, by simp [w₁, w₂], hidle,
    h₂, not_reportsOutage_OL i i⟩
  change (w₂.ctx j).mode ≠ .idle
  rw [show w₂.ctx j = _ from polled_of_ne _ hne.symm]
  exact h₁

theorem exists_twin (h : ¬s.NoTwinObservers) :
    ∃ i j, (s.dev i).isObserver = true ∧ j ∈ s.desktopPeers i true := by
  simp only [Site.NoTwinObservers, not_forall] at h
  obtain ⟨i, hi, hne⟩ := h
  obtain ⟨j, hj⟩ := List.exists_mem_of_ne_nil _ hne
  exact ⟨i, j, hi, hj⟩

/-- **Observers watch their own UPS exactly when no two of them share a desktop.** -/
theorem observersWatchOwnUps_iff (s : Site) : ObserversWatchOwnUps s ↔ s.NoTwinObservers := by
  refine ⟨fun h => ?_, observersWatchOwnUps_of_noTwins⟩
  by_contra hN
  obtain ⟨i, j, hi, hij⟩ := exists_twin hN
  obtain ⟨x, -, t, ht, hm, hm', hr⟩ := twins_run hij
  exact hr ((h x i hi).1 t ht hm hm')

/-- Two observers on one desktop. -/
def twinEntries : List RawDevice :=
  [{ id := "left", nutName := "left@localhost", role := some (some "observer")
     desktop := some { agentUrl := "http://desktop:8080" } },
   { id := "right", nutName := "right@localhost", role := some (some "observer")
     desktop := some { agentUrl := "http://desktop:8080" } }]

/-- The site of `twinEntries`. -/
def twinSite : Site where
  devices :=
    [{ id := "left", nutName := "left@localhost", role := .observer
       desktop := some { agentUrl := "http://desktop:8080" } },
     { id := "right", nutName := "right@localhost", role := .observer
       desktop := some { agentUrl := "http://desktop:8080" } }]
  ids_nodup := by decide

def left : twinSite.Ix := ⟨0, by decide⟩

def right : twinSite.Ix := ⟨1, by decide⟩

theorem twinSite_loaded : twinSite.Loaded := ⟨twinEntries, rfl⟩

theorem twins_left_right : (twinSite.dev left).isObserver = true ∧
    right ∈ twinSite.desktopPeers left true := by decide

theorem not_observersWatchOwnUps_twinSite : twinSite.Loaded ∧ ¬ObserversWatchOwnUps twinSite := by
  refine ⟨twinSite_loaded, fun h => ?_⟩
  obtain ⟨hi, hij⟩ := twins_left_right
  obtain ⟨x, -, t, ht, hm, hm', hr⟩ := twins_run hij
  exact hr ((h x left hi).1 t ht hm hm')

/-! ## Stand-down -/

/-- The calls that may come once every UPS reports plain `OL`. -/
def Call.Calm : Call → Prop
  | .upsStatus status => status = "OL"
  | .upsUnavailable => False
  | .event _ => False
  | _ => True

/-- The action is such a call. -/
def Action.Calm (a : Action s) : Prop := ∃ i e k, a = .call i e k ∧ k.Calm

/-- The action is a poll of context `i`. -/
def Action.polls (i : s.Ix) : Action s → Bool
  | .call j _ (.upsStatus _) => j = i
  | _ => false

/-- A round polls every context once, in any order. -/
def Round (tr : List (Step s)) : Prop := ∀ i, tr.countP (·.act.polls i) = 1

variable (s) in
/-- **Stand-down.** Once every UPS reports plain `OL`, two rounds of polls bring every context to
rest, whatever else happens in between, and it stays there. -/
def StandsDown : Prop :=
  ∀ w, (system s).Reachable w → ∀ tr₁ w₁ tr₂ w₂ tr₃ w₃,
    Run (system s) w tr₁ w₁ → Run (system s) w₁ tr₂ w₂ → Run (system s) w₂ tr₃ w₃ →
    (∀ t ∈ tr₁ ++ tr₂ ++ tr₃, t.act.Calm) → Round tr₁ → Round tr₂ →
    ∀ i, (w₃.ctx i).mode = .idle ∧ (w₃.ctx i).Resting

theorem not_reportsOutage_of_calm {a : Action s} (h : a.Calm) : ¬a.ReportsOutage i := by
  obtain ⟨j, e, k, rfl, hk⟩ := h
  rintro ⟨e', k', ha, hr⟩
  obtain ⟨-, -, rfl⟩ := Action.call.inj ha
  cases k with
  | upsStatus status =>
    rw [show status = "OL" from hk] at hr
    exact absurd hr (by decide)
  | event => exact hk
  | _ => exact absurd hr (by simp [Call.ownReport])

theorem idle_of_polls (h : (system s).Takes t) (hp : (t.pre.peersOf i).desktopUpsOnBattery = false)
    (hc : t.act.Calm) (hpoll : t.act.polls i = true) : (t.post.ctx i).mode = .idle := by
  obtain ⟨j, e, k, ha, hk⟩ := hc
  rw [ha] at hpoll
  cases k with
  | upsStatus status =>
    obtain rfl : j = i := by simpa [Action.polls] using hpoll
    obtain rfl : status = "OL" := hk
    rw [← Option.some.inj (exec_of_act h ha), hp]
    exact Ctx.mode_poll_mains (by decide) (by decide) (by decide)
  | _ => exact absurd hpoll (by simp [Action.polls])

/-- **After a round.** A context that sees no outage at its desktop while it is polled is idle at
the end. -/
theorem idle_of_round {Q : World s → Prop}
    (hQ : ∀ t, (system s).Takes t → t.act.Calm → Q t.pre → Q t.post)
    (hq : ∀ w, Q w → (w.peersOf i).desktopUpsOnBattery = false) {tr : List (Step s)} {w' : World s}
    (h : Run (system s) w tr w') (hw : Q w) (hc : ∀ t ∈ tr, t.act.Calm) (hr : Round tr) :
    (w'.ctx i).mode = .idle := by
  obtain ⟨t, ht, hpoll⟩ := List.countP_pos_iff.mp (by rw [hr i]; exact Nat.one_pos)
  obtain ⟨tr₁, tr₂, rfl, h1, ha, h2⟩ := h.of_mem ht
  have hpre : Q t.pre := h1.invWhen hQ hw fun t' ht' => hc t' (List.mem_append_left _ ht')
  have hcalm := hc t ht
  have hpost := idle_of_polls ha (hq _ hpre) hcalm hpoll
  have hinv := h2.invWhen (I := fun w => Q w ∧ (w.ctx i).mode = .idle) (C := fun t => t.act.Calm)
    (fun t ht hc hI => ⟨hQ t ht hc hI.1,
      leaves_idle ht (hq _ hI.1) (not_reportsOutage_of_calm hc) hI.2⟩)
    ⟨hQ _ ha hcalm hpre, hpost⟩
    fun t' ht' => hc t' (List.mem_append_right _ (List.mem_cons_of_mem _ ht'))
  exact hinv.2

/-- All observers are idle. -/
def ObserversIdle (w : World s) : Prop := ∀ i, (s.dev i).isObserver = true → (w.ctx i).mode = .idle

theorem ObserversIdle.peersOf_eq_false (h : ObserversIdle w) (i : s.Ix) :
    (w.peersOf i).desktopUpsOnBattery = false :=
  desktopUpsOnBattery_eq_false fun j hj => h j (Site.isObserver_of_mem_desktopPeers hj)

theorem observersIdle_calm (h : (system s).Takes t) (hc : t.act.Calm) (hi : ObserversIdle t.pre) :
    ObserversIdle t.post := fun i ho =>
  leaves_idle h (hi.peersOf_eq_false i) (not_reportsOutage_of_calm hc) (hi i ho)

theorem standsDown_of_noTwins (hN : s.NoTwinObservers) : StandsDown s := by
  intro w hw tr₁ w₁ tr₂ w₂ tr₃ w₃ h₁ h₂ h₃ hc hr₁ hr₂ i
  simp only [List.mem_append, or_imp, forall_and] at hc
  obtain ⟨⟨hc₁, hc₂⟩, hc₃⟩ := hc
  -- the first round is for the observers, the second for the primaries
  have hobs : ObserversIdle w₁ := fun j hj =>
    idle_of_round (Q := fun _ => True) (fun _ _ _ _ => trivial)
      (fun w _ => peersOf_eq_false hN hj) h₁ trivial hc₁ hr₁
  have hall : ∀ j, (w₂.ctx j).mode = .idle := fun j =>
    idle_of_round (Q := ObserversIdle) (fun _ => observersIdle_calm)
      (fun _ hQ => hQ.peersOf_eq_false j) h₂ hobs hc₂ hr₂
  have hstay := h₃.invWhen (I := fun w => ∀ j, (w.ctx j).mode = .idle) (C := fun t => t.act.Calm)
    (fun t ht hc hI j => leaves_idle ht (ObserversIdle.peersOf_eq_false (fun j _ => hI j) j)
      (not_reportsOutage_of_calm hc) (hI j)) hall hc₃
  have hreach := ((hw.run h₁).run h₂).run h₃
  exact ⟨hstay i, (Reachable.sound hreach i).resting (.inl (hstay i))⟩

theorem run_polls (hij : j ∈ s.desktopPeers i true) (hji : i ∈ s.desktopPeers j true)
    (l : List s.Ix) (h : BothOut i j w) : ∃ tr w', Run (system s) w tr w' ∧ BothOut i j w' ∧
      tr.map (·.act) = l.map fun k => pollAt k "OL" := by
  induction l generalizing w with
  | nil => exact ⟨[], w, .nil w, h, rfl⟩
  | cons k l ih =>
    obtain ⟨tr, w', hrun, hout, hacts⟩ := ih (bothOut_polled hij hji h k)
    exact ⟨_, w', (Run.single (takes_pollAt h.1 k "OL")).append hrun, hout, by simp [hacts]⟩

theorem round_of_acts {tr : List (Step s)}
    (h : tr.map (·.act) = (List.finRange s.devices.length).map fun k => pollAt k "OL") :
    Round tr ∧ ∀ t ∈ tr, t.act.Calm := by
  constructor
  · intro i
    have hcount : tr.countP (·.act.polls i) = (tr.map (·.act)).countP (Action.polls i) := by
      rw [List.countP_map]
      rfl
    rw [hcount, h, List.countP_map, ← List.count_eq_one_of_mem (List.nodup_finRange _) (List.mem_finRange i)]
    rw [List.count]
    refine List.countP_congr fun k _ => ?_
    simp [Action.polls, pollAt]
  · intro t ht
    have hmem := List.mem_map_of_mem (f := (·.act)) ht
    rw [h] at hmem
    obtain ⟨k, -, hk⟩ := List.mem_map.mp hmem
    exact ⟨k, _, _, hk.symm, rfl⟩

theorem not_standsDown_of_twins (hi : (s.dev i).isObserver = true) (hij : j ∈ s.desktopPeers i true) :
    ¬StandsDown s := by
  intro hdown
  have hji : i ∈ s.desktopPeers j true := hi ▸ Site.mem_desktopPeers_comm hij
  obtain ⟨x, hout, -⟩ := twins_run hij
  obtain ⟨tr₁, w₁, hrun₁, hout₁, ha₁⟩ := run_polls hij hji (List.finRange _) hout
  obtain ⟨tr₂, w₂, hrun₂, hout₂, ha₂⟩ := run_polls hij hji (List.finRange _) hout₁
  obtain ⟨hr₁, hc₁⟩ := round_of_acts ha₁
  obtain ⟨hr₂, hc₂⟩ := round_of_acts ha₂
  have hidle := hdown x.last x.reachable tr₁ w₁ tr₂ w₂ [] w₂ hrun₁ hrun₂ (.nil _)
    (by simpa [or_imp, forall_and] using ⟨hc₁, hc₂⟩) hr₁ hr₂ i
  exact hout₂.2.1 hidle.1

/-- **All contexts stand down after a recovery exactly when no two observers share a desktop.** -/
theorem standsDown_iff (s : Site) : StandsDown s ↔ s.NoTwinObservers := by
  refine ⟨fun h => ?_, standsDown_of_noTwins⟩
  by_contra hN
  obtain ⟨i, j, hi, hij⟩ := exists_twin hN
  exact not_standsDown_of_twins hi hij h

theorem not_standsDown_twinSite : twinSite.Loaded ∧ ¬StandsDown twinSite :=
  ⟨twinSite_loaded, not_standsDown_of_twins twins_left_right.1 twins_left_right.2⟩

end UpsOrchestrator

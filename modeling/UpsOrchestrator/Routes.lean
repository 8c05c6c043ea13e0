import UpsOrchestrator.Steps

/-!
# Polls and events

A fact about a UPS reaches its context twice, as a NUT event and with the next poll.

* `SameFact`: an event, and a status that says the same.
* `Ctx.plain`: a context without the words in which a route explains itself.
* `Ctx.Settled`: the fact has been dealt with; either route then leaves the context alone.
* **`routesAgree`**: both routes come to the same, and the second of two changes nothing.
-/

set_option autoImplicit false

namespace UpsOrchestrator

open Lts

/-- The event and the status say the same about the UPS. -/
inductive SameFact : NutEvent → String → Prop
  | onbatt (status : String) (ob : hasFlag "OB" status = true) (lb : hasFlag "LB" status = false) :
      SameFact .onbatt status
  | lowbatt (status : String) (lb : hasFlag "LB" status = true) : SameFact .lowbatt status
  | online (status : String) (ol : hasFlag "OL" status = true) (ob : hasFlag "OB" status = false)
      (lb : hasFlag "LB" status = false) : SameFact .online status

/-- The command without the reason of its cancellation. -/
def Command.plain (cmd : Command) : Command := { cmd with reason := none }

/-- The effect without the route that a low battery was reported by. -/
def Effect.plain : Effect → Effect
  | .saveCommand cmd => .saveCommand cmd.plain
  | .phaseAction phase reason =>
    .phaseAction phase (if reason.isLowBattery then .lowBattery else reason)
  | eff => eff

namespace Ctx

variable {d : UPSDeviceConfig} {e e' : Env} {o : Bool} {c c' : Ctx} {ev : NutEvent} {status : String}

/-- The context without the words in which a route explains itself. -/
def plain (c : Ctx) : Ctx :=
  { c with command := c.command.map (·.plain), out := c.out.map (·.plain) }

/-- The two contexts differ at most in such words. -/
def Agrees (c c' : Ctx) : Prop := c.plain = c'.plain

theorem Agrees.refl : Agrees c c := rfl

/-- The context is not in monitoring, or its deadline has not been reached. -/
def BeforeDeadline (e : Env) (c : Ctx) : Prop :=
  c.mode ≠ .monitoring ∨ ∃ deadline, c.orch.phaseDeadline = some deadline ∧ e.clock .check < deadline

theorem BeforeDeadline.of_orch_eq (h : c.BeforeDeadline e) (ho : c'.orch = c.orch) :
    c'.BeforeDeadline e := by
  rw [BeforeDeadline, mode, ho]
  exact h

theorem BeforeDeadline.checkPhaseDeadline_eq (h : c.BeforeDeadline e) (hm : c.mode = .monitoring) :
    c.checkPhaseDeadline d e = c := by
  obtain ⟨deadline, hd, hlt⟩ := h.resolve_left (not_not.mpr hm)
  rw [checkPhaseDeadline, hd]
  exact if_pos hlt

theorem orch_noteOwnPower (b : Bool) : (c.noteOwnPower e b).orch = c.orch := by
  obtain ⟨log, h⟩ := noteOwnPower_eq (c := c) (e := e) b
  rw [h]

theorem upsOnBattery_noteOwnPower (b : Bool) : (c.noteOwnPower e b).upsOnBattery = b := by
  obtain ⟨log, h⟩ := noteOwnPower_eq (c := c) (e := e) b
  rw [h]

theorem noteOwnPower_same {b : Bool} (h : c.upsOnBattery = b) : c.noteOwnPower e b = c :=
  if_pos h.symm

/-! ## One delivery -/

theorem agrees_executePhaseAction {r r' : Reason} (hr : r.isLowBattery = true)
    (hr' : r'.isLowBattery = true) :
    Agrees (c.executePhaseAction d e r) (c.executePhaseAction d e r') := by
  have hw : ∀ phase, phaseWorker d phase r = phaseWorker d phase r' := by
    intro phase
    unfold phaseWorker
    rw [hr, hr']
  by_cases hm : c.mode = .monitoring
  · rw [executePhaseAction_eq r hm, executePhaseAction_eq r' hm]
    simp [Agrees, plain, Effect.plain, hr, hr', hw]
  · rw [executePhaseAction_of_ne r hm, executePhaseAction_of_ne r' hm]
    exact .refl

theorem agrees_lowBatteryAction (m : Mode) : Agrees (c.lowBatteryAction d e m .lowBatteryEvent)
    (c.lowBatteryAction d e m .lowBattery) := by
  simp only [lowBatteryAction]
  split_ifs
  · exact .refl
  · exact agrees_executePhaseAction rfl rfl
  · exact agrees_executePhaseAction rfl rfl

theorem agrees_resetToIdle (r r' : String) : Agrees (c.resetToIdle e r) (c.resetToIdle e r') := by
  simp only [resetToIdle, cancelPending]
  split
  · exact .refl
  · split_ifs
    · simp [Agrees, plain, saveCommand, Effect.plain, Command.plain]
    · exact .refl

theorem agrees_followDesktopUps (m : Mode) (r r' : String) :
    Agrees (c.followDesktopUps d e o m r) (c.followDesktopUps d e o m r') := by
  unfold followDesktopUps
  split_ifs
  · exact .refl
  · exact .refl
  · exact .refl
  · exact agrees_resetToIdle r r'
  · exact .refl

/-- **Either route does the same** with a fact. -/
theorem agrees_of_sameFact (fact : SameFact ev status) (h : c.BeforeDeadline e) :
    Agrees (c.handleEvent d e o ev) (c.handleUpsStatusTransition d e o status) := by
  cases fact with
  | onbatt _ ob lb =>
    have hb := h.of_orch_eq (orch_noteOwnPower (c := c) (e := e) true)
    have hnote : c.noteUpsStatus e status = c.noteOwnPower e true := if_pos (by simp [ob])
    change Agrees ((c.noteOwnPower e true).eventAction d e o (c.noteOwnPower e true).mode .onbatt)
      ((c.noteUpsStatus e status).upsStatusAction d e o status (c.noteUpsStatus e status).mode)
    rw [hnote]
    generalize c.noteOwnPower e true = b at *
    simp only [eventAction, upsStatusAction, ob, lb, if_true, Bool.false_eq_true, if_false]
    split_ifs with h1 h2
    · exact .refl
    · rw [hb.checkPhaseDeadline_eq h2]
      exact .refl
    · exact .refl
  | lowbatt _ lb =>
    simp only [handleEvent, noteEvent, eventAction, handleUpsStatusTransition, noteUpsStatus,
      upsStatusAction, lb, Bool.or_true, if_true]
    exact agrees_lowBatteryAction _
  | online _ ol ob lb =>
    simp only [handleEvent, noteEvent, eventAction, handleUpsStatusTransition, noteUpsStatus,
      upsStatusAction, ol, ob, lb, Bool.or_self, if_true, Bool.false_eq_true, if_false]
    exact agrees_followDesktopUps _ _ _

/-! ## A second delivery -/

/-- **The fact has been dealt with.** -/
def Settled (e : Env) (o : Bool) (c : Ctx) : NutEvent → Prop
  | .onbatt => c.upsOnBattery = true ∧ (c.mode = .monitoring ∨ c.mode = .shuttingDown) ∧
      c.BeforeDeadline e
  | .lowbatt => c.upsOnBattery = true ∧ c.mode = .shuttingDown
  | .online => c.upsOnBattery = false ∧ (o = true → c.mode ≠ .idle) ∧ (o = false → c.mode = .idle) ∧
      c.BeforeDeadline e
  | _ => False

theorem Settled.of_eq (h : c.Settled e o ev) (horch : c'.orch = c.orch)
    (hpower : c'.upsOnBattery = c.upsOnBattery) : c'.Settled e o ev := by
  have hmode : c'.mode = c.mode := congrArg OrchState.mode horch
  cases ev with
  | onbatt =>
    obtain ⟨h1, h2, h3⟩ := h
    exact ⟨hpower.trans h1, by rwa [hmode], h3.of_orch_eq horch⟩
  | lowbatt =>
    obtain ⟨h1, h2⟩ := h
    exact ⟨hpower.trans h1, hmode.trans h2⟩
  | online =>
    obtain ⟨h1, h2, h3, h4⟩ := h
    exact ⟨hpower.trans h1, by rwa [hmode], by rwa [hmode], h4.of_orch_eq horch⟩
  | _ => exact h.elim

theorem Settled.of_agrees (h : c.Settled e o ev) (ha : Agrees c c') : c'.Settled e o ev :=
  h.of_eq (congrArg Ctx.orch ha).symm (congrArg Ctx.upsOnBattery ha).symm

theorem beforeDeadline_start (hw : ∀ phase, e'.clock .check < e.clock .deadline + phaseWait d phase) :
    (c.startBatteryMonitoring d e).BeforeDeadline e' := by
  obtain ⟨log, st, h⟩ := startBatteryMonitoring_eq (c := c) (d := d) (e := e)
  have horch : (c.startBatteryMonitoring d e).orch =
      monitoringRecord d e (startPhase d e c) c.orch := by
    rw [h, notifyDesktop]
    split_ifs <;> rfl
  right
  rw [horch]
  exact ⟨_, rfl, hw _⟩

theorem upsOnBattery_start : (c.startBatteryMonitoring d e).upsOnBattery = c.upsOnBattery :=
  tame_startBatteryMonitoring.power

theorem settled_onbatt (h : c.BeforeDeadline e')
    (hw : ∀ phase, e'.clock .check < e.clock .deadline + phaseWait d phase) :
    (c.handleEvent d e o .onbatt).Settled e' o .onbatt := by
  have hb := h.of_orch_eq (orch_noteOwnPower (c := c) (e := e) true)
  have hp := upsOnBattery_noteOwnPower (c := c) (e := e) true
  change Settled e' o ((c.noteOwnPower e true).eventAction d e o (c.noteOwnPower e true).mode
    .onbatt) .onbatt
  generalize c.noteOwnPower e true = b at *
  simp only [eventAction]
  split_ifs with hm
  · rw [startMonitoringIfMode, if_pos (by simpa using hm)]
    exact ⟨upsOnBattery_start.trans hp, .inl startBatteryMonitoring_frame.1, beforeDeadline_start hw⟩
  · refine ⟨hp, ?_, hb⟩
    cases hmode : b.mode <;> simp_all

theorem settled_lowbatt : (c.handleEvent d e o .lowbatt).Settled e' o .lowbatt := by
  refine ⟨?_, lowBatteryAction_mode _⟩
  exact (handlerFrame (p := ⟨o, []⟩) (k := .event .lowbatt) (by simp) rfl).power

theorem settled_online (h : c.BeforeDeadline e) (h' : c.BeforeDeadline e')
    (hw : ∀ phase, e'.clock .check < e.clock .deadline + phaseWait d phase) :
    (c.handleEvent d e o .online).Settled e' o .online := by
  have hb := h.of_orch_eq (orch_noteOwnPower (c := c) (e := e) false)
  have hb' := h'.of_orch_eq (orch_noteOwnPower (c := c) (e := e) false)
  have hp := upsOnBattery_noteOwnPower (c := c) (e := e) false
  change Settled e' o ((c.noteOwnPower e false).eventAction d e o (c.noteOwnPower e false).mode
    .online) .online
  generalize c.noteOwnPower e false = b at *
  simp only [eventAction, followDesktopUps]
  split_ifs with ho h1 h2 h3
  · -- the other UPS is out: monitoring starts
    rw [startMonitoringIfMode, if_pos (by simpa using h1)]
    refine ⟨upsOnBattery_start.trans hp, fun _ => ?_, by simp [ho], beforeDeadline_start hw⟩
    rw [startBatteryMonitoring_frame.1]
    decide
  · rw [hb.checkPhaseDeadline_eq h2]
    exact ⟨hp, fun _ => h1, by simp [ho], hb'⟩
  · exact ⟨hp, fun _ => h1, by simp [ho], hb'⟩
  · obtain ⟨log, cmd, out, -, he⟩ := resetToIdle_eq (c := b) (e := e) "power_restored_event"
    rw [he]
    exact ⟨hp, fun h => absurd h ho, fun _ => rfl, .inl (by simp)⟩
  · exact ⟨hp, fun h => absurd h ho, fun _ => not_not.mp h3, hb'⟩

theorem BeforeDeadline.followDesktopUps_eq {reason : String} (h : c.BeforeDeadline e)
    (hrun : o = true → c.mode ≠ .idle) (hrest : o = false → c.mode = .idle) :
    c.followDesktopUps d e o c.mode reason = c := by
  unfold followDesktopUps
  cases o with
  | true =>
    rw [if_pos rfl, if_neg (hrun rfl)]
    split_ifs with hm
    · exact h.checkPhaseDeadline_eq hm
    · rfl
  | false => rw [if_neg Bool.false_ne_true, if_neg (not_not.mpr (hrest rfl))]

theorem Settled.handleEvent_eq (h : c.Settled e o ev) : c.handleEvent d e o ev = c := by
  cases ev with
  | onbatt =>
    obtain ⟨h1, h2, -⟩ := h
    simp only [handleEvent, noteEvent, noteOwnPower_same h1, eventAction]
    rcases h2 with h2 | h2 <;> simp [h2]
  | lowbatt =>
    obtain ⟨h1, h2⟩ := h
    simp only [handleEvent, noteEvent, noteOwnPower_same h1, eventAction, lowBatteryAction]
    exact if_pos h2
  | online =>
    obtain ⟨h1, h2, h3, h4⟩ := h
    simp only [handleEvent, noteEvent, noteOwnPower_same h1, eventAction]
    exact h4.followDesktopUps_eq h2 h3
  | _ => exact h.elim

theorem Settled.handleUpsStatusTransition_eq (h : c.Settled e o ev) (fact : SameFact ev status) :
    c.handleUpsStatusTransition d e o status = c := by
  cases fact with
  | onbatt _ ob lb =>
    obtain ⟨h1, h2, h3⟩ := h
    simp only [handleUpsStatusTransition, noteUpsStatus, upsStatusAction, ob, lb, Bool.true_or,
      if_true, Bool.false_eq_true, if_false, noteOwnPower_same h1]
    rw [if_neg (by rcases h2 with h2 | h2 <;> simp [h2])]
    split_ifs with h5
    · exact h3.checkPhaseDeadline_eq h5
    · rfl
  | lowbatt _ lb =>
    obtain ⟨h1, h2⟩ := h
    simp only [handleUpsStatusTransition, noteUpsStatus, upsStatusAction, lb, Bool.or_true, if_true,
      noteOwnPower_same h1, lowBatteryAction]
    exact if_pos h2
  | online _ ol ob lb =>
    obtain ⟨h1, h2, h3, h4⟩ := h
    simp only [handleUpsStatusTransition, noteUpsStatus, upsStatusAction, ol, ob, lb, Bool.or_self,
      if_true, Bool.false_eq_true, if_false, noteOwnPower_same h1]
    exact h4.followDesktopUps_eq h2 h3

theorem settled_event (fact : SameFact ev status) (h : c.BeforeDeadline e)
    (h' : c.BeforeDeadline e')
    (hw : ∀ phase, e'.clock .check < e.clock .deadline + phaseWait d phase) :
    (c.handleEvent d e o ev).Settled e' o ev := by
  cases fact with
  | onbatt => exact settled_onbatt h' hw
  | lowbatt => exact settled_lowbatt
  | online => exact settled_online h h' hw

theorem settled_upsStatus (fact : SameFact ev status) (h : c.BeforeDeadline e)
    (h' : c.BeforeDeadline e')
    (hw : ∀ phase, e'.clock .check < e.clock .deadline + phaseWait d phase) :
    (c.handleUpsStatusTransition d e o status).Settled e' o ev :=
  (settled_event fact h h' hw).of_agrees (agrees_of_sameFact fact h)

end Ctx

/-! ## On a site -/

/-- The call delivers the fact. -/
inductive Call.Delivers (ev : NutEvent) (status : String) : Call → Prop
  | event : Delivers ev status (.event ev)
  | upsStatus : Delivers ev status (.upsStatus status)

/-- **Both routes of a fact come to the same.** -/
structure RoutesAgree (s : Site) (ev : NutEvent) (status : String) : Prop where
  /-- One delivery has the same outcome by either route. -/
  once : ∀ (w : World s) (i : s.Ix) (e : Env), (w.ctx i).BeforeDeadline e →
    ∀ w₁ w₂, w.step (.call i e (.event ev)) = some w₁ →
      w.step (.call i e (.upsStatus status)) = some w₂ →
      w₁.now = w₂.now ∧ ∀ j, (w₁.ctx j).Agrees (w₂.ctx j)
  /-- A second delivery at the same time does nothing. -/
  twice : ∀ (w : World s) (i : s.Ix) (t : Int) (a a' : Option DesktopState) (u u' : Option String)
    (k k' : Call), k.Delivers ev status → k'.Delivers ev status →
    (∀ phase, 0 < Ctx.phaseWait (s.dev i) phase) → (w.ctx i).BeforeDeadline (.at t a u) →
    ∀ w₁ w₂, w.step (.call i (.at t a u) k) = some w₁ →
      w₁.step (.call i (.at t a' u') k') = some w₂ →
      w₂.now = w₁.now ∧ ∀ j, w₂.ctx j = (w₁.ctx j).quiet

variable {s : Site} {w w' : World s} {i : s.Ix} {e e' : Env} {k : Call} {ev : NutEvent}
  {status : String}

theorem peersOf_call {n : Int} {c : Ctx} :
    World.peersOf ⟨n, Function.update w.quiet i c⟩ i = w.peersOf i := by
  have hctx : ∀ {observers : Bool}, ∀ j ∈ s.desktopPeers i observers,
      Function.update w.quiet i c j = (w.ctx j).quiet := by
    intro observers j hj
    exact Function.update_of_ne (Site.ne_of_mem_desktopPeers hj) _ _
  have hany : (s.desktopPeers i true).any (fun j => (Function.update w.quiet i c j).inOutage) =
      (s.desktopPeers i true).any fun j => (w.ctx j).inOutage := by
    rw [Bool.eq_iff_iff, List.any_eq_true, List.any_eq_true]
    refine exists_congr fun j => and_congr_right fun hj => ?_
    rw [hctx j hj]
    rfl
  have hmap : (s.desktopPeers i false).map (fun j =>
      (⟨(Function.update w.quiet i c j).reportsDesktopDown,
        (Function.update w.quiet i c j).finishedDesktopHandling⟩ : OwnerView)) =
      (s.desktopPeers i false).map fun j =>
        ⟨(w.ctx j).reportsDesktopDown, (w.ctx j).finishedDesktopHandling⟩ := by
    refine List.map_congr_left fun j hj => ?_
    rw [hctx j hj]
    rfl
  simp only [World.peersOf, hany, hmap]

theorem exec_of_settled {d : UPSDeviceConfig} {p : Peers} {c c' : Ctx} (fact : SameFact ev status)
    (hk : k.Delivers ev status) (hc : c.Settled e p.desktopUpsOnBattery ev)
    (h : k.exec d p e c = some c') : c' = c := by
  cases hk with
  | event => exact (Option.some.inj h).symm.trans hc.handleEvent_eq
  | upsStatus => exact (Option.some.inj h).symm.trans (hc.handleUpsStatusTransition_eq fact)

theorem settled_exec {d : UPSDeviceConfig} {p : Peers} {c c' : Ctx} (fact : SameFact ev status)
    (hk : k.Delivers ev status) (hb : c.BeforeDeadline e) (hb' : c.BeforeDeadline e')
    (hw : ∀ phase, e'.clock .check < e.clock .deadline + Ctx.phaseWait d phase)
    (h : k.exec d p e c = some c') : c'.Settled e' p.desktopUpsOnBattery ev := by
  cases hk with
  | event => exact Option.some.inj h ▸ Ctx.settled_event fact hb hb' hw
  | upsStatus => exact Option.some.inj h ▸ Ctx.settled_upsStatus fact hb hb' hw

/-- **A poll and an event that say the same** agree, and one of them is enough. -/
theorem routesAgree (s : Site) (fact : SameFact ev status) : RoutesAgree s ev status := by
  constructor
  · intro w i e hb w₁ w₂ h₁ h₂
    obtain ⟨-, c₁, hc₁, rfl⟩ := step_call h₁
    obtain ⟨-, c₂, hc₂, rfl⟩ := step_call h₂
    refine ⟨rfl, fun j => ?_⟩
    by_cases hj : j = i
    · subst hj
      show Ctx.Agrees (Function.update w.quiet j c₁ j) (Function.update w.quiet j c₂ j)
      rw [Function.update_self, Function.update_self, ← Option.some.inj hc₁, ← Option.some.inj hc₂]
      exact Ctx.agrees_of_sameFact fact (hb.of_orch_eq rfl)
    · show Ctx.Agrees (Function.update w.quiet i c₁ j) (Function.update w.quiet i c₂ j)
      rw [Function.update_of_ne hj, Function.update_of_ne hj]
      exact .refl
  · intro w i t a a' u u' k k' hk hk' hw hb w₁ w₂ h₁ h₂
    obtain ⟨-, c₁, hc₁, rfl⟩ := step_call h₁
    obtain ⟨-, c₂, hc₂, rfl⟩ := step_call h₂
    refine ⟨rfl, fun j => ?_⟩
    by_cases hj : j = i
    · subst hj
      have hb₁ : (w.ctx j).quiet.BeforeDeadline (.at t a u) := hb.of_orch_eq rfl
      have hsettled : c₁.Settled (.at t a' u') (w.peersOf j).desktopUpsOnBattery ev := by
        refine settled_exec fact hk hb₁ hb₁ (fun phase => ?_) hc₁
        have hwait := hw phase
        show t < t + _
        omega
      have hself : World.ctx ⟨t, Function.update w.quiet j c₁⟩ j = c₁ := Function.update_self ..
      change k'.exec _ (World.peersOf ⟨t, Function.update w.quiet j c₁⟩ j) _
        (World.ctx ⟨t, Function.update w.quiet j c₁⟩ j).quiet = some c₂ at hc₂
      rw [peersOf_call, hself] at hc₂
      have hquiet : c₂ = c₁.quiet := exec_of_settled fact hk' (hsettled.of_eq rfl rfl) hc₂
      calc Function.update (World.quiet ⟨t, Function.update w.quiet j c₁⟩) j c₂ j
          = c₂ := Function.update_self ..
        _ = c₁.quiet := hquiet
        _ = (World.ctx ⟨t, Function.update w.quiet j c₁⟩ j).quiet := by rw [hself]
    · exact Function.update_of_ne hj _ _

/-- A power cut on a desktop's UPS. -/
theorem routesAgree_deskSite : RoutesAgree deskSite .onbatt "OB DISCHRG" :=
  routesAgree deskSite (.onbatt _ (by decide) (by decide))

end UpsOrchestrator

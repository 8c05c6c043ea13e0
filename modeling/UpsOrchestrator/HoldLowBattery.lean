import UpsOrchestrator.Hold
import UpsOrchestrator.Record
import UpsOrchestrator.Release

/-!
# A low battery during the hold

In idle and in monitoring a low battery of the observer's UPS launches the emergency worker. In
`shutting_down` the handlers drop the report, and the hold worker looks at `upsc` by itself.

* `AfterLowBattery`: the next step of the observer's worker after a report, with the power still out.
* `LowBatteryEndsHold`: `upscmd` is issued by then; **`lowBatteryEndsHold_iff`**: exactly in the
  executions in which every such step that is a pass through the hold loop finds a reason by itself.
-/

set_option autoImplicit false

namespace UpsOrchestrator

open Lts

/-- A report that the battery of this UPS is low. -/
def Call.reportsLowBattery : Call → Bool
  | .upsStatus status => hasFlag "LB" status
  | .event .lowbatt => true
  | _ => false

variable {s : Site} {t t₀ t₁ : Step s} {i j : s.Ix} {w : World s} {tr mid : List (Step s)} {e : Env}
  {th : Thread}

/-- The step `t₀` handles a report of a low battery of UPS `i`, and `t₁` is the next step of the worker
that context `i` launched last; in between the UPS is noted on battery. -/
structure AfterLowBattery (i : s.Ix) (t₀ : Step s) (mid : List (Step s)) (t₁ : Step s) (e : Env)
    (th : Thread) : Prop where
  report : ∃ e₀ k, t₀.act = .call i e₀ k ∧ k.reportsLowBattery = true
  power : ∀ t ∈ t₀ :: mid, (t.post.ctx i).upsOnBattery = true
  latest : th.id + 1 = (t₀.post.ctx i).spawned
  waits : ∀ t ∈ mid, t.act.workerOf i ≠ some th.id
  mem : th ∈ (t₁.pre.ctx i).threads
  act : t₁.act = .call i e (.worker th.id)

/-- **Low battery ends the observer's hold.** At the latest with the next step of its worker the UPS
is powered off. -/
def LowBatteryEndsHold (x : Execution (system s)) : Prop :=
  ∀ tr₁ t₀ mid t₁ tr₂, x.steps = tr₁ ++ t₀ :: (mid ++ t₁ :: tr₂) → ∀ i e th,
    (s.dev i).isObserver = true → s.desktopPeers i false ≠ [] → AfterLowBattery i t₀ mid t₁ e th →
    ∃ t ∈ mid ++ [t₁], .powerOffUps ∈ (t.post.ctx i).out

theorem mode_of_lowBattery (ht : (system s).Takes t) {e : Env} {k : Call} (hact : t.act = .call i e k)
    (hk : k.reportsLowBattery = true) : (t.post.ctx i).mode = .shuttingDown := by
  have hexec := exec_of_act ht hact
  cases k with
  | upsStatus status =>
    have hlb : hasFlag "LB" status = true := hk
    rw [← Option.some.inj hexec]
    simp only [Ctx.handleUpsStatusTransition, Ctx.upsStatusAction, if_pos hlb]
    exact Ctx.lowBatteryAction_mode _
  | event ev =>
    cases ev with
    | lowbatt =>
      rw [← Option.some.inj hexec]
      exact Ctx.lowBatteryAction_mode _
    | _ => exact absurd hk (by simp [Call.reportsLowBattery])
  | _ => exact absurd hk (by simp [Call.reportsLowBattery])

theorem stays_shuttingDown (ht : (system s).Takes t) (hw : (t.post.ctx i).WellFormed (s.dev i))
    (hp : (t.post.ctx i).upsOnBattery = true) (hm : (t.pre.ctx i).mode = .shuttingDown) :
    (t.post.ctx i).mode = .shuttingDown := by
  refine (hw.on_battery hp).resolve_left fun hmon => ?_
  cases ctxStep ht i with
  | handler e k act hk exec =>
    cases Ctx.move_handler hk exec with
    | keep mode => exact absurd ((mode.trans hm).symm.trans hmon) (by decide)
    | start mode => rcases mode with h | h <;> exact absurd (hm.symm.trans h) (by decide)
    | strike pc mode => exact absurd hm mode
    | standDown mode mode' => exact absurd (mode'.symm.trans hmon) (by decide)
  | worker e th c pc step =>
    rw [step.post] at hmon
    rcases step.outcome.orch_eq with ⟨ho, -⟩ | ⟨-, -, -, hm', -⟩
    · exact absurd (((congrArg OrchState.mode ho).trans hm).symm.trans hmon) (by decide)
    · exact absurd (hm'.symm.trans hmon) (by decide)
  | other j e k act hj post =>
    rw [post] at hmon
    exact absurd (hm.symm.trans hmon) (by decide)
  | restart e act post =>
    rw [post] at hmon
    exact absurd ((Ctx.reset_frame e).1.symm.trans hmon) (by decide)

theorem AfterLowBattery.mode (h : AfterLowBattery i t₀ mid t₁ e th) (ht₀ : (system s).Takes t₀)
    (hw : ∀ t ∈ mid, (t.post.ctx i).WellFormed (s.dev i)) (hmid : Run (system s) t₀.post mid t₁.pre) :
    (t₁.pre.ctx i).mode = .shuttingDown := by
  obtain ⟨e₀, k, hact, hk⟩ := h.report
  refine hmid.invWhen (I := fun w => (w.ctx i).mode = .shuttingDown)
    (C := fun t => (t.post.ctx i).WellFormed (s.dev i) ∧ (t.post.ctx i).upsOnBattery = true)
    (fun t ht hC hm => stays_shuttingDown ht hC.1 hC.2 hm) (mode_of_lowBattery ht₀ hact hk)
    fun t ht => ⟨hw t ht, h.power t (List.mem_cons_of_mem _ ht)⟩

theorem powerOffUps_unless (ht : (system s).Takes t) (hs : (t.pre.ctx i).Sound (s.dev i))
    (ho : (s.dev i).isObserver = true) (hj : j ∈ s.desktopPeers i false)
    (hm : (t.pre.ctx i).mode = .shuttingDown) (hth : th ∈ (t.pre.ctx i).threads)
    (hact : t.act = .call i e (.worker th.id))
    (hp : HoldPass i t e → Ctx.Releases (t.pre.peersOf i) e) : .powerOffUps ∈ (t.post.ctx i).out := by
  by_cases hpass : HoldPass i t e
  · exact (powerOffUps_holdPass ht hs hpass hj).mpr ⟨hm, hp hpass⟩
  have hlate : ∀ deadline, Ctx.holdDeadline (s.dev i) e th.pc = some deadline →
      deadline ≤ e.clock .loop := by
    intro deadline hd
    by_contra hlt
    exact hpass ⟨th, hth, hact, deadline, hd, not_le.mp hlt⟩
  have hfits := hs.fits th hth
  obtain ⟨id, pc⟩ := th
  cases pc with
  | terminalAction =>
    obtain ⟨c, pc', step⟩ := workerStep_of_act ht hs hth hact
    have hc : ((t.pre.ctx i).quiet.terminalAction (s.dev i)) = c := congrArg Prod.fst step.seg
    have hm' : ¬(t.pre.ctx i).quiet.mode ≠ .shuttingDown := not_not.mpr hm
    rw [step.post, ← hc, Ctx.terminalAction, if_neg hm', if_neg (by simp [ho]), if_pos ho]
    exact List.mem_singleton_self _
  | observerPowerOff => exact powerOffUps_of_unchecked ht hs hth hact (.inr (hlate _ rfl))
  | observerHolding deadline => exact powerOffUps_of_unchecked ht hs hth hact (hlate _ rfl)
  | _ => exact absurd hfits (by simp [Pc.fits, ho])

/-- **Low battery ends the observer's hold exactly when** every pass through the hold loop that is the
worker's next step finds a reason to power the UPS off by itself, or the UPS has been powered off
since the report. -/
theorem lowBatteryEndsHold_iff (x : Execution (system s)) : LowBatteryEndsHold x ↔
    ∀ tr₁ t₀ mid t₁ tr₂, x.steps = tr₁ ++ t₀ :: (mid ++ t₁ :: tr₂) → ∀ i e th,
      (s.dev i).isObserver = true → s.desktopPeers i false ≠ [] →
      AfterLowBattery i t₀ mid t₁ e th → HoldPass i t₁ e →
      Ctx.Releases (t₁.pre.peersOf i) e ∨ ∃ t ∈ mid, .powerOffUps ∈ (t.post.ctx i).out := by
  constructor
  · intro h tr₁ t₀ mid t₁ tr₂ hx i e th ho hown hlow hpass
    have hmem : t₁ ∈ x.steps := by simp [hx]
    obtain ⟨j, hj⟩ := List.exists_mem_of_ne_nil _ hown
    obtain ⟨t, ht, hout⟩ := h tr₁ t₀ mid t₁ tr₂ hx i e th ho hown hlow
    rcases List.mem_append.mp ht with ht | ht
    · exact .inr ⟨t, ht, hout⟩
    · obtain rfl := List.mem_singleton.mp ht
      have hs := Reachable.sound (x.reachable_pre hmem) i
      exact .inl ((powerOffUps_holdPass (x.takes hmem) hs hpass hj).mp hout).2
  · intro h tr₁ t₀ mid t₁ tr₂ hx i e th ho hown hlow
    have hmem : t₁ ∈ x.steps := by simp [hx]
    obtain ⟨j, hj⟩ := List.exists_mem_of_ne_nil _ hown
    obtain ⟨h₀, ht₀, hrest⟩ := (hx ▸ x.run).around
    obtain ⟨hmid, ht₁, -⟩ := hrest.around
    have hw : ∀ t ∈ mid, (t.post.ctx i).WellFormed (s.dev i) := fun t ht =>
      wellFormed_step (hmid.takes ht) (wellFormed_pre x (by simp [hx, ht]) i)
    have hm := hlow.mode ht₀ hw hmid
    by_cases hearlier : ∃ t ∈ mid, .powerOffUps ∈ (t.post.ctx i).out
    · obtain ⟨t, ht, hout⟩ := hearlier
      exact ⟨t, List.mem_append_left _ ht, hout⟩
    · refine ⟨t₁, by simp, ?_⟩
      have hs := Reachable.sound (x.reachable_pre hmem) i
      exact powerOffUps_unless ht₁ hs ho hj hm hlow.mem hlow.act fun hpass =>
        (h tr₁ t₀ mid t₁ tr₂ hx i e th ho hown hlow hpass).resolve_right hearlier

/-! ## The report is dropped during the hold -/

/-- The hold worker is asleep when `LOWBATT` arrives, and its own query of `upsc` has no answer. -/
def lowBatteryDuringHold : List (Action pairSite) :=
  [.call pairDesk (.at 0) (.upsStatus "OB"), .call pairDesk (.at 300) .timer,
    .call pairDesk (.at 300) (.worker 0), .call pairDesk (.at 301) (.event .lowbatt)]

theorem not_lowBatteryEndsHold : pairSite.Loaded ∧
    ∃ x : Execution (system pairSite), ¬LowBatteryEndsHold x := by
  refine ⟨pairSite_loaded, ?_⟩
  obtain ⟨x, tr, t, hx, hacts, hact, ⟨t₀, ht₀, hpower, hsp⟩, hth, hout⟩ := exists_execution_last
    (S := system pairSite) (P := fun tr t =>
      (∃ t₀ ∈ tr.getLast?, (t₀.post.ctx pairDesk).upsOnBattery = true ∧
        (t₀.post.ctx pairDesk).spawned = 1) ∧
      (t.pre.ctx pairDesk).threads = [⟨0, .observerHolding 2100⟩] ∧
      .powerOffUps ∉ (t.post.ctx pairDesk).out)
    lowBatteryDuringHold (.call pairDesk (.at 305) (.worker 0)) ⟨.at 0, fun _ => {}, rfl⟩ (by decide)
  have hlast : some t₀.act = lowBatteryDuringHold.getLast? := by
    rw [← hacts, List.getLast?_map, ht₀]
    rfl
  rw [← List.dropLast_append_getLast? t₀ ht₀, List.append_assoc] at hx
  refine ⟨x, fun h => ?_⟩
  obtain ⟨t', ht', hout'⟩ := h _ t₀ [] t [] hx pairDesk (.at 305) ⟨0, .observerHolding 2100⟩
    (by decide) (by decide)
    { report := ⟨_, _, Option.some.inj hlast, rfl⟩
      power := by simpa using hpower
      latest := hsp.symm
      waits := by simp
      mem := hth ▸ List.mem_singleton_self _
      act := hact }
  rw [List.nil_append, List.mem_singleton] at ht'
  exact hout (ht' ▸ hout')

end UpsOrchestrator

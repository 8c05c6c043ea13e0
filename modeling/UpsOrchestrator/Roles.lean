import UpsOrchestrator.Steps

/-!
# Role separation

What a context does outside itself depends on its role, and `_self_shutdown` on its own battery.

* `lastReport`: the last report on the UPS of a context, as `_note_own_power` classified it.
* `RoleStep`: what a step may do to a context of either role; **`rolesSeparated`**: no execution
  does more.
-/

set_option autoImplicit false

namespace UpsOrchestrator

open Lts

variable {s : Site} {t : Step s} {i : s.Ix} {u w : World s} {tr : List (Step s)}

/-- The report on the UPS of context `i` that the action is, if it is one. -/
def Action.report (i : s.Ix) : Action s → Option Bool
  | .call j _ k => if j = i then k.ownReport else none
  | .restart _ => none

/-- The last report on the UPS of context `i`: on battery or not. -/
def lastReport (i : s.Ix) (tr : List (Step s)) : Option Bool :=
  hist (fun last (t : Step s) => (t.act.report i).or last) none tr

theorem reported_step (last : Option Bool) (t : Step s) (h : (system s).Takes t)
    (hJ : (t.pre.ctx i).upsOnBattery = true → last = some true)
    (hp : (t.post.ctx i).upsOnBattery = true) : (t.act.report i).or last = some true := by
  cases ctxStep h i with
  | handler e k act hk exec =>
    rw [(Ctx.handlerFrame hk exec).power] at hp
    rw [act, Action.report, if_pos rfl]
    cases hr : k.ownReport with
    | none => rw [hr] at hp; exact hJ hp
    | some b => rw [hr] at hp; rw [show b = true from hp]; rfl
  | worker e th c pc step =>
    rw [step.act, Action.report, if_pos rfl]
    rw [step.post] at hp
    exact hJ (step.power ▸ hp)
  | other j e k act hj post =>
    rw [act, Action.report, if_neg (Ne.symm hj)]
    rw [post] at hp
    exact hJ hp
  | restart e act post =>
    rw [post] at hp
    exact absurd ((Ctx.reset_frame e).2.2.2.1.symm.trans hp) (by decide)

/-- The own-power flag is never set without a report; a restart only clears it. -/
theorem lastReport_of_upsOnBattery (hu : (system s).init u) (h : Run (system s) u tr w)
    (hp : (w.ctx i).upsOnBattery = true) : lastReport i tr = some true := by
  have hJ := h.inv_hist _ none (J := fun last w => (w.ctx i).upsOnBattery = true → last = some true)
    (reported_step (i := i)) fun hp => absurd ((idle_of_init hu i).2.2.symm.trans hp) (by decide)
  exact hJ hp

/-- **What a step may do**, after the run `tr`, to context `i`. -/
structure RoleStep (i : s.Ix) (tr : List (Step s)) (t : Step s) : Prop where
  /-- the server is shut down by a primary in `shutting_down` whose own UPS is on battery -/
  selfShutdown : .selfShutdown ∈ (t.post.ctx i).out → (s.dev i).isObserver = false ∧
    (t.pre.ctx i).mode = .shuttingDown ∧ lastReport i tr = some true
  /-- only an observer's UPS is powered off -/
  powerOffUps : .powerOffUps ∈ (t.post.ctx i).out → (s.dev i).isObserver = true
  /-- only a primary wakes the desktop -/
  sendWol : .sendWol ∈ (t.post.ctx i).out → (s.dev i).isObserver = false
  /-- only a primary sends the desktop commands -/
  pushCommand : ∀ cmd, .pushCommand cmd ∈ (t.post.ctx i).out → (s.dev i).isObserver = false
  /-- only a primary saves commands that can be executed -/
  saveCommand : ∀ cmd, .saveCommand cmd ∈ (t.post.ctx i).out → cmd.status = .pending →
    (s.dev i).isObserver = false
  /-- an observer's pending command is an old one or comes from the `command` route -/
  command : ∀ cmd, (t.post.ctx i).command = some cmd → cmd.status = .pending →
    (s.dev i).isObserver = false ∨ (t.pre.ctx i).command = some cmd ∨
      ∃ e name ev expires, t.act = .call i e (.createCommand name ev expires)

theorem command_step (h : (system s).Takes t) (hs : (t.pre.ctx i).Sound (s.dev i)) {cmd : Command}
    (hc : (t.post.ctx i).command = some cmd) (hp : cmd.status = .pending) :
    (s.dev i).isObserver = false ∨ (t.pre.ctx i).command = some cmd ∨
      ∃ e name ev expires, t.act = .call i e (.createCommand name ev expires) := by
  cases ctxStep h i with
  | handler e k act hk exec =>
    rcases (Ctx.handlerFrame hk exec).command with he | ⟨name, ev, expires, rfl⟩ | ⟨cmd', he, hcmd⟩
    · exact .inr (.inl (he.symm.trans hc))
    · exact .inr (.inr ⟨e, name, ev, expires, act⟩)
    · obtain rfl := Option.some.inj (he.symm.trans hc)
      exact .inl (hcmd.resolve_left (not_not.mpr hp)).1
  | other j e k act hj post =>
    rw [post] at hc
    exact .inr (.inl hc)
  | restart e act post =>
    rw [post] at hc
    have hreset := Ctx.tame_resetStateOnStartup (d := s.dev i) (e := e)
      (c := (t.pre.ctx i).quiet.reboot)
    rcases hreset.command with he | ⟨cmd', he, hcmd⟩
    · exact .inr (.inl (he.symm.trans hc))
    · obtain rfl := Option.some.inj (he.symm.trans hc)
      rcases hcmd with hcmd | hcmd
      · rw [hcmd] at hp
        exact absurd hp (by decide)
      · exact .inl hcmd.1
  | worker e th c pc step =>
    rw [step.post] at hc
    have hfits := hs.fits th step.mem
    have hsame : c.command = (t.pre.ctx i).command → (t.pre.ctx i).command = some cmd :=
      fun he => he.symm.trans hc
    cases step.outcome with
    | wait _ _ _ command => exact .inr (.inl (hsame command))
    | abort _ _ _ command => exact .inr (.inl (hsame command))
    | push _ _ _ _ _ _ fits => exact .inl (fits hfits)
    | shutdown _ _ _ _ _ command => exact .inr (.inl (hsame command))
    | powerOff _ _ _ _ command => exact .inr (.inl (hsame command))
    | handled _ _ _ _ _ command => exact .inr (.inl (hsame command))

theorem roleStep (hu : (system s).init u) (h : Run (system s) u tr t.pre) (ht : (system s).Takes t)
    (i : s.Ix) : RoleStep i tr t := by
  have hs : (t.pre.ctx i).Sound (s.dev i) := Reachable.sound ⟨u, tr, hu, h⟩ i
  refine ⟨fun hout => ?_, fun hout => ?_, fun hout => ?_, fun cmd hout => ?_, fun cmd hout hp => ?_,
    fun cmd hc hp => command_step ht hs hc hp⟩
  · obtain ⟨e, th, c, pc, step, heff⟩ := (effect_cases ht hout).resolve_left id
    cases heff with
    | shutdown mode role power => exact ⟨role, mode, lastReport_of_upsOnBattery hu h power⟩
  · obtain ⟨e, th, c, pc, step, heff⟩ := (effect_cases ht hout).resolve_left id
    cases heff with
    | powerOff _ fits => exact fits (hs.fits th step.mem)
  · obtain ⟨e, th, c, pc, step, heff⟩ := (effect_cases ht hout).resolve_left id
    cases heff with
    | sendWol fits => exact fits (hs.fits th step.mem)
  · rcases effect_cases ht hout with hh | ⟨e, th, c, pc, step, heff⟩
    · exact hh.1
    · cases heff with
      | push _ _ fits => exact fits (hs.fits th step.mem)
  · rcases effect_cases ht hout with hh | ⟨e, th, c, pc, step, heff⟩
    · exact (hh.resolve_left fun hc => absurd (hc.symm.trans hp) (by decide)).1
    · cases heff with
      | save _ _ fits => exact fits (hs.fits th step.mem)

/-- No step of the execution does more. -/
def RolesSeparated (x : Execution (system s)) : Prop :=
  ∀ i tr₁ t tr₂, x.steps = tr₁ ++ t :: tr₂ → RoleStep i tr₁ t

/-- **Role separation and own-battery guard**, in every execution. -/
theorem rolesSeparated (x : Execution (system s)) : RolesSeparated x := by
  intro i tr₁ t tr₂ hx
  obtain ⟨h₁, ht, -⟩ := (hx ▸ x.run).around
  exact roleStep x.init h₁ ht i

end UpsOrchestrator

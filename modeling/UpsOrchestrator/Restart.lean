import UpsOrchestrator.Commands

/-!
# Restarts

`reset_state_on_startup` leaves monitoring whatever the files say. Of the commands it cancels a
pending `critical_shutdown` only, where `_reset_to_idle` cancels any pending one.

* `StoodDown`: the context is idle, and preflight allows nothing until a new command is stored.
* `Ctx.Stranded`: a command is pending that the startup does not cancel.
* **`stoodDown_iff`**: a server that comes up over some files stands a context down exactly when its
  command is not stranded.
-/

set_option autoImplicit false

namespace UpsOrchestrator

open Lts

variable {s : Site} {i : s.Ix} {w : World s}

/-- **Context `i` has been stood down**: it is idle, and whatever happens next, preflight allows no id
and no name until a new command is stored. -/
structure StoodDown (i : s.Ix) (w : World s) : Prop where
  idle : (w.ctx i).mode = .idle
  refuses : ∀ tr w', Run (system s) w tr w' → (∀ t ∈ tr, ¬StoresCommand i t) →
    ∀ id command, (w'.ctx i).preflight id command ≠ .allow

/-- The command on file is pending, and none that the startup cancels. -/
def Ctx.Stranded (c : Ctx) : Prop :=
  ∃ cmd, c.command = some cmd ∧ cmd.status = .pending ∧ cmd.command ≠ "critical_shutdown"

/-- No command is pending. -/
def Ctx.Answered (c : Ctx) : Prop := ∀ cmd, c.command = some cmd → cmd.status ≠ .pending

namespace Ctx

variable {c c' : Ctx}

theorem Answered.preflight_ne (h : c.Answered) (id command : String) :
    c.preflight id command ≠ .allow := by
  intro hallow
  obtain ⟨cmd, hc, hp, -⟩ := preflight_eq_allow.mp hallow
  exact h cmd hc hp

theorem answered_of_preflight_ne (h : ∀ id command, c.preflight id command ≠ .allow) :
    c.Answered := by
  intro cmd hc hp
  exact h cmd.id cmd.command (preflight_eq_allow.mpr ⟨cmd, hc, hp, rfl, rfl⟩)

theorem answered_reset (e : Env) : (c.resetStateOnStartup e).Answered ↔ ¬c.Stranded := by
  simp only [resetStateOnStartup, cancelShutdownOnStartup, Answered, Stranded]
  split
  next h =>
    have hc : c.command = none := h
    simp [leaveMonitoring, hc]
  next cmd h =>
    have hc : c.command = some cmd := h
    by_cases hs : cmd.command = "critical_shutdown"
    · split_ifs with hp
      · simp [saveCommand, hc, hs]
      · simp_all [leaveMonitoring]
    · rw [if_neg fun h => hs h.1]
      simp [leaveMonitoring, hc, hs]

end Ctx

theorem answered_step {t : Step s} (ht : (system s).Takes t) (hs : ¬StoresCommand i t)
    (h : (t.pre.ctx i).Answered) : (t.post.ctx i).Answered := by
  cases commandStep ht i with
  | keep command =>
    rw [Ctx.Answered, command]
    exact h
  | store cmd _ _ _ stores => exact absurd stores hs
  | close cmd closed command =>
    intro cmd' hcmd'
    obtain rfl := Option.some.inj (command.symm.trans hcmd')
    exact closed

theorem stoodDown_iff_answered (hm : (w.ctx i).mode = .idle) :
    StoodDown i w ↔ (w.ctx i).Answered := by
  constructor
  · intro h
    exact Ctx.answered_of_preflight_ne (h.refuses [] w (.nil w) (by simp))
  · intro h
    refine ⟨hm, fun tr w' hr hs id command => ?_⟩
    have hw : (w'.ctx i).Answered := hr.invWhen (I := fun w => (w.ctx i).Answered)
      (fun t ht hst hpre => answered_step ht hst hpre) h hs
    exact hw.preflight_ne id command

theorem answered_boot (e : Env) (disk : s.Ix → Ctx) (i : s.Ix) :
    ((World.boot e disk).ctx i).mode = .idle ∧
      (((World.boot e disk).ctx i).Answered ↔ ¬(disk i).Stranded) :=
  ⟨(idle_of_init ⟨e, disk, rfl⟩ i).1, Ctx.answered_reset e⟩

/-- **A restart stands a context down exactly when** its command is not stranded, whatever is in its
files. -/
theorem stoodDown_iff (e : Env) (disk : s.Ix → Ctx) (i : s.Ix) :
    StoodDown i (World.boot e disk) ↔ ¬(disk i).Stranded := by
  obtain ⟨hm, h⟩ := answered_boot e disk i
  rw [stoodDown_iff_answered hm, h]

/-! ## A prompt is on the screen -/

instance {c : Ctx} : Decidable c.Stranded :=
  decidable_of_iff (c.command.any fun cmd =>
    decide (cmd.status = .pending ∧ cmd.command ≠ "critical_shutdown")) <| by
      simp [Ctx.Stranded, Option.any_eq_true]

/-- The server restarts while the desktop asks its user. -/
theorem not_stoodDown_prompt : deskSite.Loaded ∧ ∃ x : Execution (system deskSite),
    ∀ e, ¬StoodDown mainUps (World.boot e x.last.ctx) := by
  refine ⟨deskSite_loaded, ?_⟩
  obtain ⟨x, tr, t, hx, -, -, hs⟩ := exists_execution_last (S := system deskSite)
    (P := fun _ t => (t.post.ctx mainUps).Stranded) []
    (.call mainUps (.at 0 online) (.event .onbatt)) ⟨.at 0, fun _ => {}, rfl⟩ (by decide)
  refine ⟨x, fun e h => ?_⟩
  obtain ⟨hm, hboot⟩ := answered_boot e x.last.ctx mainUps
  refine hboot.mp ((stoodDown_iff_answered hm).mp h) ?_
  obtain ⟨-, -, hpost⟩ := (hx ▸ x.run : Run _ _ (tr ++ [t]) _).of_snoc
  rw [← hpost]
  exact hs

end UpsOrchestrator

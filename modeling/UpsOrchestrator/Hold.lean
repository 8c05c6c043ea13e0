import UpsOrchestrator.Steps

/-!
# The observer's hold

`_observer_power_off_when_desktop_safe` leaves by five exits. Three of them come after a look at the
mode; with no owner to wait for, or once the time is up, the UPS is cut without one.

* `StaleCut`: such a step of the worker, taken when the mode is no longer `shutting_down`.
* **`cutsOnlyInOutage_iff`**: an execution never cuts an observer's power after its return exactly
  when it has no such step.
-/

set_option autoImplicit false

namespace UpsOrchestrator

open Lts

variable {s : Site} {t : Step s} {i : s.Ix}

/-- An observer's worker that powers the UPS off does so while the mode is still `shutting_down`. -/
def CutsOnlyInOutage (x : Execution (system s)) : Prop :=
  ∀ t ∈ x.steps, ∀ i, .powerOffUps ∈ (t.post.ctx i).out → (t.pre.ctx i).mode = .shuttingDown

/-- The hold worker of context `i` has no owner to wait for, or its time is up, and the outage it
was launched for is over. -/
def StaleCut (i : s.Ix) (t : Step s) : Prop :=
  ∃ e, ∃ th ∈ (t.pre.ctx i).threads, t.act = .call i e (.worker th.id) ∧
    Ctx.Unchecked (s.dev i) (t.pre.peersOf i) e th.pc ∧ (t.pre.ctx i).mode ≠ .shuttingDown

theorem powerOffUps_of_unchecked (ht : (system s).Takes t) (hs : (t.pre.ctx i).Sound (s.dev i))
    {e : Env} {th : Thread} (hth : th ∈ (t.pre.ctx i).threads)
    (hact : t.act = .call i e (.worker th.id))
    (hu : Ctx.Unchecked (s.dev i) (t.pre.peersOf i) e th.pc) :
    .powerOffUps ∈ (t.post.ctx i).out := by
  obtain ⟨c, pc, step⟩ := workerStep_of_act ht hs hth hact
  have hout := Ctx.segment_unchecked (c := (t.pre.ctx i).quiet) hu
  rw [step.seg] at hout
  rw [step.post]
  exact hout ▸ List.mem_append_right _ (List.mem_singleton_self _)

/-- **The UPS of an observer is never cut after its power has come back, exactly when** no hold
worker that has no owner, or whose time is up, is still there to take a step after the return. -/
theorem cutsOnlyInOutage_iff (x : Execution (system s)) :
    CutsOnlyInOutage x ↔ ∀ t ∈ x.steps, ∀ i, ¬StaleCut i t := by
  constructor
  · rintro h t ht i ⟨e, th, hth, hact, hu, hm⟩
    have hs := Reachable.sound (x.reachable_pre ht) i
    exact hm (h t ht i (powerOffUps_of_unchecked (x.takes ht) hs hth hact hu))
  · intro h t ht i hout
    obtain ⟨e, th, c, pc, step, heff⟩ := (effect_cases (x.takes ht) hout).resolve_left id
    cases heff with
    | powerOff mode =>
      by_contra hm
      exact h t ht i ⟨e, th, step.mem, step.act, mode.resolve_left hm, hm⟩

/-! ## Power comes back before the worker starts -/

/-- A single observer without a desktop. -/
def observerSite : Site where
  devices := [{ id := "rack", nutName := "rack@localhost", role := .observer }]
  ids_nodup := by decide

def rack : observerSite.Ix := ⟨0, by decide⟩

theorem observerSite_loaded : observerSite.Loaded :=
  ⟨[{ id := "rack", nutName := "rack@localhost", role := some (some "observer") }], rfl⟩

/-- The grace period runs out at 300; the `ONLINE` event is handled before the worker starts. -/
def lateRestore : List (Action observerSite) :=
  [.call rack (.at 0) (.event .onbatt), .call rack (.at 300) .timer,
    .call rack (.at 300) (.event .online), .call rack (.at 300) (.worker 0)]

theorem not_cutsOnlyInOutage : observerSite.Loaded ∧
    ∃ x : Execution (system observerSite), ¬CutsOnlyInOutage x := by
  refine ⟨observerSite_loaded, ?_⟩
  obtain ⟨x, t, ht, hout, hm⟩ := exists_execution (S := system observerSite) lateRestore
    (P := fun tr => ∃ t ∈ tr, .powerOffUps ∈ (t.post.ctx rack).out ∧
      (t.pre.ctx rack).mode ≠ .shuttingDown) ⟨.at 0, fun _ => {}, rfl⟩ (by decide)
  exact ⟨x, fun h => hm (h t ht rack hout)⟩

end UpsOrchestrator

import Mathlib.Data.Set.Basic
import UpsOrchestrator.Lib.Runs

/-!
# Simulations

Two systems compared by what can be seen of them: something of the first state, and something of
some of the steps. A step of which nothing is seen may be matched by standing still.

* `View`: what is seen; `View.traces`: what can be seen of the executions of a system.
* `Simulation`: a relation under which every step of one system is matched by the other.
* **`Simulation.execution`**: every execution is matched; `Simulation.traces_subset`.
* **`traces_eq`**: two systems that simulate each other look the same.
-/

set_option autoImplicit false

namespace Lts

variable {σ α σ' α' γ β : Type*}

/-- What can be seen of a run. -/
structure View (σ α γ β : Type*) where
  start : σ → γ
  step : Transition σ α → Option β

/-- What can be seen of the executions of a system. -/
def View.traces (V : View σ α γ β) (S : System σ α) : Set (γ × List β) :=
  {p | ∃ x : Execution S, V.start x.start = p.1 ∧ x.steps.filterMap V.step = p.2}

/-- Every step of `S` is matched by a step of `T` that looks the same, or by none if nothing is
seen of it. -/
structure Simulation (S : System σ α) (T : System σ' α') (V : View σ α γ β) (V' : View σ' α' γ β) where
  rel : σ → σ' → Prop
  init : ∀ u, S.init u → ∃ u', T.init u' ∧ V'.start u' = V.start u ∧ rel u u'
  step : ∀ t v', S.Takes t → rel t.pre v' → match V.step t with
    | none => rel t.post v'
    | some b => ∃ t', T.Takes t' ∧ t'.pre = v' ∧ V'.step t' = some b ∧ rel t.post t'.post

section

variable {S : System σ α} {T : System σ' α'} {V : View σ α γ β} {V' : View σ' α' γ β}

theorem Simulation.run (R : Simulation S T V V') {u w : σ} {u' : σ'} {tr : List (Transition σ α)}
    (h : Run S u tr w) (hu : R.rel u u') :
    ∃ tr' w', Run T u' tr' w' ∧ tr'.filterMap V'.step = tr.filterMap V.step ∧ R.rel w w' := by
  induction h with
  | nil => exact ⟨[], u', .nil u', rfl, hu⟩
  | @snoc v w tr a _ ha ih =>
    obtain ⟨tr', v', hr, hseen, hv⟩ := ih
    have hstep := R.step ⟨v, a, w⟩ v' ha hv
    cases hb : V.step ⟨v, a, w⟩ with
    | none =>
      rw [hb] at hstep
      exact ⟨tr', v', hr, by simp [hseen, hb], hstep⟩
    | some b =>
      rw [hb] at hstep
      obtain ⟨t', ht', rfl, hb', hw⟩ := hstep
      refine ⟨tr' ++ [t'], t'.post, hr.append (Run.single ht'), ?_, hw⟩
      rw [List.filterMap_append, List.filterMap_append, hseen]
      congr 1
      simp [hb, hb']

/-- **Every execution is matched.** -/
theorem Simulation.execution (R : Simulation S T V V') (x : Execution S) :
    ∃ y : Execution T, V'.start y.start = V.start x.start ∧
      y.steps.filterMap V'.step = x.steps.filterMap V.step ∧ R.rel x.last y.last := by
  obtain ⟨u', hu', hstart, hrel⟩ := R.init x.start x.init
  obtain ⟨tr', w', hr, hseen, hw⟩ := R.run x.run hrel
  exact ⟨⟨u', tr', w', hu', hr⟩, hstart, hseen, hw⟩

theorem Simulation.traces_subset (R : Simulation S T V V') : V.traces S ⊆ V'.traces T := by
  rintro p ⟨x, h1, h2⟩
  obtain ⟨y, h3, h4, -⟩ := R.execution x
  exact ⟨y, h3.trans h1, h4.trans h2⟩

/-- **Systems that simulate each other look the same.** -/
theorem traces_eq (R : Simulation S T V V') (R' : Simulation T S V' V) :
    V.traces S = V'.traces T := by
  apply Set.Subset.antisymm
  · exact R.traces_subset
  · exact R'.traces_subset

end

end Lts

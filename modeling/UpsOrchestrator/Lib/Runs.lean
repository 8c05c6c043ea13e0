import Mathlib.Data.List.Induction
import Mathlib.Data.List.Infix
import Mathlib.Algebra.BigOperators.Group.List.Basic
import Mathlib.Algebra.GroupWithZero.Nat

/-!
# Runs of labelled transition systems

A step is a partial function of a state and a label; every choice of the environment (clock
readings, answers, the order of the parties) is part of the label. A run keeps its transitions,
so a property may speak about what happened before, between or after.

* `Run.inv`, `Run.invWhen`: a predicate kept by every step (that meets a side condition) holds
  after every run; `Run.forall_of_inv`: what it says about single transitions.
* `Run.split`, `Run.append`: cutting and joining runs.
* `Execution`: a run from an initial state.
* `hist`, `Run.inv_hist`, `Run.inv_histWhen`: history variables, folded over the transitions of a
  run; `Run.inv_steps`: the history as a whole.
* `Since`: something has happened, and nothing against it since then; `since_snoc`.
* `Refinement`: every step of one system is a step of another or invisible to it;
  **`Refinement.reachable`**, `Refinement.execution`.
* **`Run.sum_le`**: a cost paid out of a potential is bounded by the potential.
-/

namespace Lts

/-- A transition system: initial states and a partial step for every label. -/
structure System (σ α : Type*) where
  init : σ → Prop
  step : σ → α → Option σ

/-- One step that was taken. -/
structure Transition (σ α : Type*) where
  pre : σ
  act : α
  post : σ

variable {σ α : Type*} (S : System σ α)

/-- The transition is a step of the system. -/
def System.Takes (t : Transition σ α) : Prop := S.step t.pre t.act = some t.post

/-- The finite runs, with the transitions in order. -/
inductive Run : σ → List (Transition σ α) → σ → Prop
  | nil (u : σ) : Run u [] u
  | snoc {u v w : σ} {tr : List (Transition σ α)} {a : α} :
      Run u tr v → S.step v a = some w → Run u (tr ++ [⟨v, a, w⟩]) w

/-- The states that a run from an initial state ends in. -/
def System.Reachable (w : σ) : Prop := ∃ u tr, S.init u ∧ Run S u tr w

variable {S} {u v w : σ} {tr tr₁ tr₂ : List (Transition σ α)} {t : Transition σ α}

theorem Run.single (h : S.Takes t) : Run S t.pre [t] t.post := Run.snoc (.nil _) h

theorem Run.append (h₁ : Run S u tr₁ v) (h₂ : Run S v tr₂ w) : Run S u (tr₁ ++ tr₂) w := by
  induction h₂ with
  | nil => rwa [List.append_nil]
  | snoc _ ha ih => rw [← List.append_assoc]; exact .snoc ih ha

theorem Run.of_snoc (h : Run S u (tr ++ [t]) w) : Run S u tr t.pre ∧ S.Takes t ∧ t.post = w := by
  generalize htr : tr ++ [t] = tr' at h
  cases h with
  | nil => simp at htr
  | snoc hr ha =>
    obtain ⟨rfl, h1⟩ := List.append_inj' htr rfl
    obtain rfl := List.singleton_inj.mp h1
    exact ⟨hr, ha, rfl⟩

theorem Run.split (h : Run S u (tr₁ ++ tr₂) w) : ∃ v, Run S u tr₁ v ∧ Run S v tr₂ w := by
  induction tr₂ using List.reverseRecOn generalizing w with
  | nil => exact ⟨w, by rwa [List.append_nil] at h, .nil w⟩
  | append_singleton tr t ih =>
    rw [← List.append_assoc] at h
    obtain ⟨hr, ha, rfl⟩ := h.of_snoc
    obtain ⟨v, h1, h2⟩ := ih hr
    exact ⟨v, h1, .snoc h2 ha⟩

theorem Run.around (h : Run S u (tr₁ ++ t :: tr₂) w) :
    Run S u tr₁ t.pre ∧ S.Takes t ∧ Run S t.post tr₂ w := by
  rw [List.append_cons] at h
  obtain ⟨v, h1, h2⟩ := h.split
  obtain ⟨hr, ha, rfl⟩ := h1.of_snoc
  exact ⟨hr, ha, h2⟩

theorem Run.of_mem (h : Run S u tr w) (ht : t ∈ tr) :
    ∃ tr₁ tr₂, tr = tr₁ ++ t :: tr₂ ∧ Run S u tr₁ t.pre ∧ S.Takes t ∧ Run S t.post tr₂ w := by
  obtain ⟨tr₁, tr₂, rfl⟩ := List.mem_iff_append.mp ht
  exact ⟨tr₁, tr₂, rfl, h.around⟩

theorem Run.of_nil (h : Run S u [] w) : w = u := by
  generalize htr : [] = tr' at h
  cases h with
  | nil => rfl
  | snoc => simp at htr

theorem Run.last_eq (h₁ : Run S u tr v) (h₂ : Run S u tr w) : v = w := by
  induction tr using List.reverseRecOn with
  | nil => exact h₁.of_nil.trans h₂.of_nil.symm
  | append_singleton tr t => exact h₁.of_snoc.2.2.symm.trans h₂.of_snoc.2.2

theorem Run.takes (h : Run S u tr w) (ht : t ∈ tr) : S.Takes t :=
  let ⟨_, _, _, _, ha, _⟩ := h.of_mem ht
  ha

theorem System.Reachable.run (hu : S.Reachable u) (h : Run S u tr w) : S.Reachable w :=
  let ⟨u₀, tr₀, h0, hr⟩ := hu
  ⟨u₀, tr₀ ++ tr, h0, hr.append h⟩

variable (S) in
/-- A run from an initial state. -/
structure Execution where
  start : σ
  steps : List (Transition σ α)
  last : σ
  init : S.init start
  run : Run S start steps last

theorem Execution.takes (x : Execution S) (ht : t ∈ x.steps) : S.Takes t := x.run.takes ht

theorem Execution.reachable (x : Execution S) : S.Reachable x.last := ⟨_, _, x.init, x.run⟩

theorem Execution.reachable_pre (x : Execution S) (ht : t ∈ x.steps) : S.Reachable t.pre :=
  let ⟨tr₁, _, _, h₁, _⟩ := x.run.of_mem ht
  ⟨x.start, tr₁, x.init, h₁⟩

/-! ## Invariants -/

/-- A predicate kept by every step that meets `C` holds after every run whose steps meet `C`. -/
theorem Run.invWhen {I : σ → Prop} {C : Transition σ α → Prop}
    (hI : ∀ t, S.Takes t → C t → I t.pre → I t.post) (h : Run S u tr w) (hu : I u)
    (hC : ∀ t ∈ tr, C t) : I w := by
  induction h with
  | nil => exact hu
  | @snoc v w tr a _ ha ih =>
    have hv := ih fun t ht => hC t (List.mem_append_left _ ht)
    exact hI ⟨v, a, w⟩ ha (hC _ (by simp)) hv

theorem Run.inv {I : σ → Prop} (hI : ∀ t, S.Takes t → I t.pre → I t.post) (h : Run S u tr w)
    (hu : I u) : I w :=
  h.invWhen (C := fun _ => True) (fun t ht _ => hI t ht) hu fun _ _ => trivial

theorem System.Reachable.inv {I : σ → Prop} (h0 : ∀ u, S.init u → I u)
    (hI : ∀ t, S.Takes t → I t.pre → I t.post) (h : S.Reachable w) : I w :=
  let ⟨u, _, hu, hr⟩ := h
  hr.inv hI (h0 u hu)

/-- What the invariant says about single transitions holds of all transitions of a run. -/
theorem Run.forall_of_inv {I : σ → Prop} {C P : Transition σ α → Prop}
    (hI : ∀ t, S.Takes t → C t → I t.pre → I t.post)
    (hP : ∀ t, S.Takes t → C t → I t.pre → P t) (h : Run S u tr w) (hu : I u)
    (hC : ∀ t ∈ tr, C t) : ∀ t ∈ tr, P t := by
  intro t ht
  obtain ⟨tr₁, tr₂, rfl, h1, ha, _⟩ := h.of_mem ht
  have hpre : I t.pre := h1.invWhen hI hu fun t' ht' => hC t' (List.mem_append_left _ ht')
  exact hP t ha (hC t (by simp)) hpre

/-! ## History variables -/

section History

variable {H : Type*} (upd : H → Transition σ α → H) (h₀ : H)

/-- The value of a history variable after the transitions `tr`. -/
def hist (tr : List (Transition σ α)) : H := tr.foldl upd h₀

@[simp] theorem hist_snoc : hist upd h₀ (tr ++ [t]) = upd (hist upd h₀ tr) t := by
  simp [hist]

/-- A relation between the state and a history variable that every step meeting `C` keeps. -/
theorem Run.inv_histWhen {J : H → σ → Prop} {C : Transition σ α → Prop}
    (hJ : ∀ x t, S.Takes t → C t → J x t.pre → J (upd x t) t.post) (h : Run S u tr w)
    (hu : J h₀ u) (hC : ∀ t ∈ tr, C t) : J (hist upd h₀ tr) w := by
  induction h with
  | nil => exact hu
  | snoc _ ha ih =>
    have hv := ih fun t ht => hC t (List.mem_append_left _ ht)
    rw [hist_snoc]
    exact hJ _ _ ha (hC _ (by simp)) hv

theorem Run.inv_hist {J : H → σ → Prop} (hJ : ∀ x t, S.Takes t → J x t.pre → J (upd x t) t.post)
    (h : Run S u tr w) (hu : J h₀ u) : J (hist upd h₀ tr) w :=
  h.inv_histWhen upd h₀ (C := fun _ => True) (fun x t ht _ => hJ x t ht) hu fun _ _ => trivial

/-- A relation between the state and the transitions so far, kept by every step that meets `C` after
them. -/
theorem Run.inv_steps {J : List (Transition σ α) → σ → Prop}
    {C : List (Transition σ α) → Transition σ α → Prop}
    (hJ : ∀ tr t, S.Takes t → C tr t → J tr t.pre → J (tr ++ [t]) t.post)
    (past : List (Transition σ α)) (h : Run S u tr w) (hu : J past u)
    (hC : ∀ tr₁ t tr₂, tr = tr₁ ++ t :: tr₂ → C (past ++ tr₁) t) : J (past ++ tr) w := by
  induction h with
  | nil => rwa [List.append_nil]
  | @snoc v w tr a _ ha ih =>
    have hv := ih fun tr₁ t tr₂ htr => hC tr₁ t (tr₂ ++ [⟨v, a, w⟩]) (by simp [htr])
    rw [← List.append_assoc]
    exact hJ _ ⟨v, a, w⟩ ha (hC tr _ [] rfl) hv

end History

/-! ## Since -/

/-- A transition with `P` has been taken, and only transitions with `Q` after it. -/
def Since (P Q : Transition σ α → Prop) (tr : List (Transition σ α)) : Prop :=
  ∃ tr₁ t tr₂, tr = tr₁ ++ t :: tr₂ ∧ P t ∧ ∀ t' ∈ tr₂, Q t'

variable {P Q : Transition σ α → Prop}

theorem not_since_nil : ¬Since P Q ([] : List (Transition σ α)) := by
  rintro ⟨tr₁, t, tr₂, h, -⟩
  simp at h

theorem since_snoc : Since P Q (tr ++ [t]) ↔ P t ∨ (Q t ∧ Since P Q tr) := by
  constructor
  · rintro ⟨tr₁, t₀, tr₂, h, hP, hQ⟩
    induction tr₂ using List.reverseRecOn with
    | nil =>
      obtain ⟨-, h1⟩ := List.append_inj' h rfl
      obtain rfl := List.singleton_inj.mp h1
      exact .inl hP
    | append_singleton tr₂ t₁ =>
      rw [← List.cons_append, ← List.append_assoc] at h
      obtain ⟨rfl, h1⟩ := List.append_inj' h rfl
      obtain rfl := List.singleton_inj.mp h1
      exact .inr ⟨hQ t (by simp), tr₁, t₀, tr₂, rfl, hP, fun t' ht' => hQ t' (by simp [ht'])⟩
  · rintro (hP | ⟨hQ, tr₁, t₀, tr₂, rfl, hP, hQ'⟩)
    · exact ⟨tr, t, [], rfl, hP, by simp⟩
    · exact ⟨tr₁, t₀, tr₂ ++ [t], by simp, hP,
        List.forall_mem_append.mpr ⟨hQ', List.forall_mem_singleton.mpr hQ⟩⟩

/-- What was taken at its start or later, with `Q` kept up, can start it too. -/
theorem since_of_mem {t₀ : Transition σ α} (ht : t ∈ t₀ :: tr₂) (hP : P t)
    (hQ : ∀ t' ∈ tr₂, Q t') : Since P Q (tr₁ ++ t₀ :: tr₂) := by
  rcases List.mem_cons.mp ht with rfl | ht
  · exact ⟨tr₁, t, tr₂, rfl, hP, hQ⟩
  · obtain ⟨l, l', rfl⟩ := List.mem_iff_append.mp ht
    exact ⟨tr₁ ++ t₀ :: l, t, l', by simp, hP, fun t' ht' => hQ t' (by simp [ht'])⟩

instance [DecidablePred P] [DecidablePred Q] : Decidable (Since P Q tr) :=
  decidable_of_iff (∃ l ∈ tr.tails, (∃ t ∈ l.head?, P t) ∧ ∀ t' ∈ l.tail, Q t') <| by
    constructor
    · rintro ⟨l, hl, ⟨t, ht, hP⟩, hQ⟩
      obtain ⟨tr₁, rfl⟩ := (List.mem_tails _ _).mp hl
      obtain ⟨tr₂, rfl⟩ := List.head?_eq_some_iff.mp ht
      exact ⟨tr₁, t, tr₂, rfl, hP, hQ⟩
    · rintro ⟨tr₁, t, tr₂, rfl, hP, hQ⟩
      exact ⟨t :: tr₂, (List.mem_tails _ _).mpr (List.suffix_append _ _), ⟨t, rfl, hP⟩, hQ⟩

/-! ## Potentials -/

/-- **What is paid out of a potential is bounded by it**, along every run whose steps meet `C`. -/
theorem Run.sum_le {I : σ → Prop} {C : Transition σ α → Prop} (cost : Transition σ α → ℕ)
    (pot : σ → ℕ) (hI : ∀ t, S.Takes t → C t → I t.pre → I t.post)
    (hp : ∀ t, S.Takes t → C t → I t.pre → cost t + pot t.post ≤ pot t.pre)
    (h : Run S u tr w) (hu : I u) (hC : ∀ t ∈ tr, C t) :
    (tr.map cost).sum + pot w ≤ pot u := by
  induction h with
  | nil => simp
  | @snoc v w tr a hr ha ih =>
    have hC' : ∀ t ∈ tr, C t := fun t ht => hC t (List.mem_append_left _ ht)
    have h1 := ih hC'
    have h2 : cost ⟨v, a, w⟩ + pot w ≤ pot v := hp _ ha (hC _ (by simp)) (hr.invWhen hI hu hC')
    simp only [List.map_append, List.sum_append, List.map_cons, List.map_nil, List.sum_cons,
      List.sum_nil]
    omega

/-! ## Refinements -/

section Refinement

variable {σ' α' : Type*}

/-- Every step of `S` is a step of `T`, or `T` does not see it. -/
structure Refinement (S : System σ α) (T : System σ' α') where
  abs : σ → σ'
  act : α → Option α'
  init : ∀ u, S.init u → T.init (abs u)
  step : ∀ t, S.Takes t → match act t.act with
    | none => abs t.post = abs t.pre
    | some a => T.Takes ⟨abs t.pre, a, abs t.post⟩

variable {T : System σ' α'} (R : Refinement S T)

/-- The step of `T` that a step of `S` makes. -/
def Refinement.image (t : Transition σ α) : Option (Transition σ' α') :=
  (R.act t.act).map fun a => ⟨R.abs t.pre, a, R.abs t.post⟩

theorem Refinement.takes (ht : S.Takes t) {t' : Transition σ' α'} (h : R.image t = some t') :
    T.Takes t' := by
  obtain ⟨a, ha, rfl⟩ := Option.map_eq_some_iff.mp h
  have hstep := R.step t ht
  rwa [ha] at hstep

theorem Refinement.of_image_eq_none (ht : S.Takes t) (h : R.image t = none) :
    R.abs t.post = R.abs t.pre := by
  have hstep := R.step t ht
  rwa [Option.map_eq_none_iff.mp h] at hstep

/-- **What can be reached below can be reached above.** -/
theorem Refinement.reachable (h : S.Reachable w) : T.Reachable (R.abs w) := by
  refine h.inv (I := fun w => T.Reachable (R.abs w)) (fun u hu => ⟨R.abs u, [], R.init u hu, .nil _⟩)
    fun t ht hpre => ?_
  cases him : R.image t with
  | none =>
    rw [R.of_image_eq_none ht him]
    exact hpre
  | some t' =>
    have ht' := R.takes ht him
    obtain ⟨a, -, rfl⟩ := Option.map_eq_some_iff.mp him
    exact hpre.run (Run.single ht')

theorem Refinement.run (h : Run S u tr w) : Run T (R.abs u) (tr.filterMap R.image) (R.abs w) := by
  induction h with
  | nil => exact .nil _
  | @snoc v w tr a _ ha ih =>
    have ht : S.Takes ⟨v, a, w⟩ := ha
    rw [List.filterMap_append]
    cases him : R.image ⟨v, a, w⟩ with
    | none =>
      have habs : R.abs w = R.abs v := R.of_image_eq_none ht him
      simpa [him, habs] using ih
    | some t' =>
      have ht' := R.takes ht him
      obtain ⟨a', -, rfl⟩ := Option.map_eq_some_iff.mp him
      simpa [him] using ih.append (Run.single ht')

/-- **What happens above** in an execution below. -/
def Refinement.execution (x : Execution S) : Execution T where
  start := R.abs x.start
  steps := x.steps.filterMap R.image
  last := R.abs x.last
  init := R.init _ x.init
  run := R.run x.run

end Refinement

/-! ## Executing labels -/

variable (S) in
/-- The transitions of a list of labels, if all of them are enabled in turn. -/
def exec : σ → List α → Option (List (Transition σ α) × σ)
  | u, [] => some ([], u)
  | u, a :: as =>
    match S.step u a with
    | none => none
    | some v => (exec v as).map fun r => (⟨u, a, v⟩ :: r.1, r.2)

theorem exec_cons_eq_some {a : α} {as : List α} (h : exec S u (a :: as) = some (tr, w)) :
    ∃ v tr', S.step u a = some v ∧ exec S v as = some (tr', w) ∧ tr = ⟨u, a, v⟩ :: tr' := by
  simp only [exec] at h
  cases hs : S.step u a with
  | none => simp [hs] at h
  | some v =>
    simp only [hs, Option.map_eq_some_iff] at h
    obtain ⟨r, hr, he⟩ := h
    obtain ⟨rfl, rfl⟩ := Prod.ext_iff.mp he
    exact ⟨v, r.1, rfl, hr, rfl⟩

theorem run_of_exec {as : List α} (h : exec S u as = some (tr, w)) : Run S u tr w := by
  induction as generalizing u tr with
  | nil =>
    obtain ⟨rfl, rfl⟩ := Prod.ext_iff.mp (Option.some.inj h)
    exact .nil _
  | cons a as ih =>
    obtain ⟨v, tr, hs, hr, rfl⟩ := exec_cons_eq_some h
    exact (Run.single (t := ⟨u, a, v⟩) hs).append (ih hr)

theorem exec_acts {as : List α} (h : exec S u as = some (tr, w)) : tr.map (·.act) = as := by
  induction as generalizing u tr with
  | nil =>
    obtain ⟨rfl, -⟩ := Prod.ext_iff.mp (Option.some.inj h)
    rfl
  | cons a as ih =>
    obtain ⟨v, tr, -, hr, rfl⟩ := exec_cons_eq_some h
    rw [List.map_cons, ih hr]

variable (S) in
/-- The execution of a list of labels that are enabled in turn. -/
def Execution.ofLabels (u : σ) (as : List α) (hu : S.init u) (h : (exec S u as).isSome) :
    Execution S where
  start := u
  steps := ((exec S u as).get h).1
  last := ((exec S u as).get h).2
  init := hu
  run := run_of_exec (Option.some_get h).symm

theorem Execution.acts_ofLabels {as : List α} (hu : S.init u) (h : (exec S u as).isSome) :
    (ofLabels S u as hu h).steps.map (·.act) = as := exec_acts (Option.some_get h).symm

theorem exists_execution_last {P : List (Transition σ α) → Transition σ α → Prop}
    [∀ tr t, Decidable (P tr t)] (as : List α) (a : α) (hu : S.init u)
    (h : ((exec S u (as ++ [a])).any fun r =>
      r.1.getLast?.any fun t => decide (P r.1.dropLast t)) = true) :
    ∃ (x : Execution S) (tr : List (Transition σ α)) (t : Transition σ α),
      x.steps = tr ++ [t] ∧ tr.map (·.act) = as ∧ t.act = a ∧ P tr t := by
  obtain ⟨⟨tr, w⟩, he, hp⟩ := (Option.any_eq_true _ _).mp h
  obtain ⟨t, ht, hP⟩ := (Option.any_eq_true _ _).mp hp
  have hsplit : tr = tr.dropLast ++ [t] := (List.dropLast_append_getLast? t ht).symm
  have hacts := exec_acts he
  rw [hsplit, List.map_append, List.map_singleton] at hacts
  obtain ⟨hacts, hact⟩ := List.append_inj' hacts rfl
  exact ⟨⟨u, tr, w, hu, run_of_exec he⟩, tr.dropLast, t, hsplit, hacts, List.singleton_inj.mp hact,
    of_decide_eq_true hP⟩

/-- An execution whose transitions pass a check. -/
theorem exists_execution {P : List (Transition σ α) → Prop} [DecidablePred P] (as : List α)
    (hu : S.init u) (h : ((exec S u as).any fun r => decide (P r.1)) = true) :
    ∃ x : Execution S, P x.steps := by
  obtain ⟨⟨tr, w⟩, he, hp⟩ := (Option.any_eq_true _ _).mp h
  exact ⟨⟨u, tr, w, hu, run_of_exec he⟩, of_decide_eq_true hp⟩

theorem exists_execution_at {P : List (Transition σ α) → σ → Prop} [∀ tr w, Decidable (P tr w)]
    (as : List α) (hu : S.init u) (h : ((exec S u as).any fun r => decide (P r.1 r.2)) = true) :
    ∃ x : Execution S, P x.steps x.last := by
  obtain ⟨⟨tr, w⟩, he, hp⟩ := (Option.any_eq_true _ _).mp h
  exact ⟨⟨u, tr, w, hu, run_of_exec he⟩, of_decide_eq_true hp⟩

end Lts

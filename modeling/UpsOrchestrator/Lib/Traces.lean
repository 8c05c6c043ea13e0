import UpsOrchestrator.Lib.Prog

/-!
# Traces of a program

What happens when one program runs, whatever its operations answer.

* `Runs`: the traces of a program, with the results; **`runs_bind`**.
* `play`: the run in which every operation answers as an oracle says; **`runs_play`**.
* `Begins`, `Within`: a trace begins with a run of a program, or has one in it; **`Begins.result`**.
* `replay`: the result that a trace leads to; **`replay_eq_some`**.
* `Ensures`: what holds of every run; **`Ensures.bind`**.
* `Discipline.Admits`, `Discipline.after`: the traces that keep to a discipline; **`Follows.runs`**.
* `Raising`: programs that can raise; **`runs_seq`**, **`runs_catch`**, **`ensures_seq`**.
-/

namespace Lts

variable {Op : Type} {Ans : Op → Type} {α β : Type}

/-- An operation and its answer. -/
abbrev Event (Op : Type) (Ans : Op → Type) : Type := (o : Op) × Ans o

namespace Prog

/-- The program can perform the trace and return the result. -/
def Runs : Prog Op Ans α → List (Event Op Ans) → α → Prop
  | ret a, tr, b => tr = [] ∧ b = a
  | op o k, tr, b => ∃ x tr', tr = ⟨o, x⟩ :: tr' ∧ (k x).Runs tr' b

variable {p : Prog Op Ans α} {f : α → Prog Op Ans β} {tr tr' : List (Event Op Ans)} {a a' : α} {b : β}

@[simp] theorem runs_perform {o : Op} {x : Ans o} :
    (perform o : Prog Op Ans (Ans o)).Runs tr x ↔ tr = [⟨o, x⟩] := by
  constructor
  · rintro ⟨y, tr', rfl, rfl, rfl⟩
    rfl
  · intro h
    exact ⟨x, [], h, rfl, rfl⟩

/-- **Sequential composition.** -/
theorem runs_bind : (p.bind f).Runs tr b ↔
    ∃ tr₁ a tr₂, tr = tr₁ ++ tr₂ ∧ p.Runs tr₁ a ∧ (f a).Runs tr₂ b := by
  induction p generalizing tr with
  | ret a =>
    constructor
    · intro h
      exact ⟨[], a, tr, rfl, ⟨rfl, rfl⟩, h⟩
    · rintro ⟨_, _, tr₂, rfl, ⟨rfl, rfl⟩, h⟩
      exact h
  | op o k ih =>
    constructor
    · rintro ⟨x, tr', rfl, h⟩
      obtain ⟨tr₁, a, tr₂, rfl, h₁, h₂⟩ := (ih x).mp h
      exact ⟨⟨o, x⟩ :: tr₁, a, tr₂, rfl, ⟨x, tr₁, rfl, h₁⟩, h₂⟩
    · rintro ⟨_, a, tr₂, rfl, ⟨x, tr₁, rfl, h₁⟩, h₂⟩
      exact ⟨x, tr₁ ++ tr₂, rfl, (ih x).mpr ⟨tr₁, a, tr₂, rfl, h₁, h₂⟩⟩

/-- The run in which the operations answer as the oracle says. -/
def play (oracle : (o : Op) → Ans o) : Prog Op Ans α → α × List (Event Op Ans)
  | ret a => (a, [])
  | op o k =>
    let r := (k (oracle o)).play oracle
    (r.1, ⟨o, oracle o⟩ :: r.2)

theorem runs_play (oracle : (o : Op) → Ans o) (p : Prog Op Ans α) :
    p.Runs (p.play oracle).2 (p.play oracle).1 := by
  induction p with
  | ret a => exact ⟨rfl, rfl⟩
  | op o k ih => exact ⟨oracle o, _, rfl, ih _⟩

theorem Runs.of_head {o : Op} (h : p.Runs tr a) (ho : p.head = some o) :
    ∃ x tr', tr = ⟨o, x⟩ :: tr' := by
  cases p with
  | ret b => cases ho
  | op o' k =>
    cases ho
    obtain ⟨x, tr', rfl, -⟩ := h
    exact ⟨x, tr', rfl⟩

/-- The result of the run whose trace is given. -/
def replay [DecidableEq Op] : Prog Op Ans α → List (Event Op Ans) → Option α
  | ret a, [] => some a
  | ret _, _ :: _ => none
  | op _ _, [] => none
  | op o k, e :: tr => if h : e.1 = o then (k (h ▸ e.2)).replay tr else none

/-- **The traces that can be played back** are those of the runs. -/
theorem replay_eq_some [DecidableEq Op] : p.replay tr = some a ↔ p.Runs tr a := by
  induction p generalizing tr with
  | ret b =>
    cases tr with
    | nil => simp [replay, Runs, eq_comm]
    | cons e tr => simp [replay, Runs]
  | op o k ih =>
    cases tr with
    | nil => simp [replay, Runs]
    | cons e tr =>
      obtain ⟨o', x⟩ := e
      by_cases h : o' = o
      · subst h
        rw [replay, dif_pos rfl, ih x]
        constructor
        · intro hr
          exact ⟨x, tr, rfl, hr⟩
        · rintro ⟨x', tr', he, hr⟩
          obtain ⟨hx, rfl⟩ := List.cons.inj he
          obtain rfl : x = x' := by simpa using hx
          exact hr
      · rw [replay, dif_neg h]
        constructor
        · intro hn
          cases hn
        · rintro ⟨x', tr', he, -⟩
          exact absurd (congrArg Sigma.fst (List.cons.inj he).1) h

theorem Avoids.runs {stop : Op → Bool} (hp : p.Avoids stop) (h : p.Runs tr a) :
    ∀ e ∈ tr, stop e.1 = false := by
  induction p generalizing tr with
  | ret b => simp [h.1]
  | op o k ih =>
    obtain ⟨x, tr, rfl, h⟩ := h
    intro e he
    cases he with
    | head => exact hp.1
    | tail _ he => exact ih x (hp.2 x) h e he

theorem play_bind (oracle : (o : Op) → Ans o) : (p.bind f).play oracle =
    (((f (p.play oracle).1).play oracle).1,
      (p.play oracle).2 ++ ((f (p.play oracle).1).play oracle).2) := by
  induction p with
  | ret a => rfl
  | op o k ih =>
    rw [op_bind, play, play, ih (oracle o)]
    rfl

/-- The trace begins with a run of the program that returns `a`. -/
def Begins (p : Prog Op Ans α) (a : α) (tr : List (Event Op Ans)) : Prop :=
  ∃ tr₁ tr₂, tr = tr₁ ++ tr₂ ∧ p.Runs tr₁ a

/-- The trace has a run of the program in it. -/
def Within (p : Prog Op Ans α) (tr : List (Event Op Ans)) : Prop :=
  ∃ tr₀ tr₁ tr₂ a, tr = tr₀ ++ tr₁ ++ tr₂ ∧ p.Runs tr₁ a

theorem Runs.result {tr₁ tr₂ : List (Event Op Ans)} (h : p.Runs tr a) (h' : p.Runs tr₁ a')
    (htr : tr ++ tr' = tr₁ ++ tr₂) : a' = a := by
  induction p generalizing tr tr₁ with
  | ret b => exact h'.2.trans h.2.symm
  | op o k ih =>
    obtain ⟨x, tr, rfl, h⟩ := h
    obtain ⟨x', tr₁, rfl, h'⟩ := h'
    obtain ⟨hx, hrest⟩ := List.cons.inj htr
    obtain rfl : x = x' := by simpa using hx
    exact ih x h h' hrest

/-- **The result of the first part** of a run. -/
theorem Begins.result (h : p.Begins a' (tr ++ tr')) (hp : p.Runs tr a) : a' = a := by
  obtain ⟨tr₁, tr₂, htr, h⟩ := h
  exact hp.result h htr

theorem Within.of_runs (h : p.Runs tr a) : p.Within tr :=
  ⟨[], tr, [], a, by simp, h⟩

theorem Within.append_left (h : p.Within tr) : p.Within (tr' ++ tr) := by
  obtain ⟨tr₀, tr₁, tr₂, a, rfl, h⟩ := h
  exact ⟨tr' ++ tr₀, tr₁, tr₂, a, by simp, h⟩

theorem Within.append_right (h : p.Within tr) : p.Within (tr ++ tr') := by
  obtain ⟨tr₀, tr₁, tr₂, a, rfl, h⟩ := h
  exact ⟨tr₀, tr₁, tr₂ ++ tr', a, by simp, h⟩

/-! ## What holds of every run -/

/-- Every run of the program satisfies `Q`. -/
def Ensures (p : Prog Op Ans α) (Q : List (Event Op Ans) → α → Prop) : Prop :=
  ∀ tr a, p.Runs tr a → Q tr a

variable {Q Q' : List (Event Op Ans) → α → Prop} {R : List (Event Op Ans) → β → Prop}

theorem Ensures.mono (h : p.Ensures Q) (hQ : ∀ tr a, Q tr a → Q' tr a) : p.Ensures Q' :=
  fun tr a hr => hQ tr a (h tr a hr)

theorem Ensures.and (h : p.Ensures Q) (h' : p.Ensures Q') :
    p.Ensures fun tr a => Q tr a ∧ Q' tr a :=
  fun tr a hr => ⟨h tr a hr, h' tr a hr⟩

theorem ensures_ret (h : Q [] a) : (ret a).Ensures Q := by
  rintro _ _ ⟨rfl, rfl⟩
  exact h

theorem Avoids.ensures {stop : Op → Bool} (hp : p.Avoids stop) :
    p.Ensures fun tr _ => ∀ e ∈ tr, stop e.1 = false :=
  fun _ _ h => hp.runs h

/-- **The rule for sequences.** -/
theorem Ensures.bind (h : p.Ensures Q)
    (hf : ∀ tr a, Q tr a → (f a).Ensures fun tr' b => R (tr ++ tr') b) : (p.bind f).Ensures R := by
  intro tr b hr
  obtain ⟨tr₁, a, tr₂, rfl, h₁, h₂⟩ := runs_bind.mp hr
  exact hf tr₁ a (h tr₁ a h₁) tr₂ b h₂

end Prog

/-! ## Disciplines -/

section Discipline

variable {τ : Type} (D : Discipline Op Ans τ)

/-- The stage after a trace. -/
def Discipline.after (q : τ) (tr : List (Event Op Ans)) : τ :=
  tr.foldl (fun q e => D.next q e.1 e.2) q

/-- Every operation of the trace is allowed at its stage. -/
def Discipline.Admits : τ → List (Event Op Ans) → Prop
  | _, [] => True
  | q, e :: tr => D.allowed q e.1 ∧ Admits (D.next q e.1 e.2) tr

variable {D} {q : τ} {tr tr' : List (Event Op Ans)} {p : Prog Op Ans α} {a : α}
  {Q : τ → α → Prop}

theorem Discipline.after_append : D.after q (tr ++ tr') = D.after (D.after q tr) tr' :=
  List.foldl_append

theorem Discipline.admits_append :
    D.Admits q (tr ++ tr') ↔ D.Admits q tr ∧ D.Admits (D.after q tr) tr' := by
  induction tr generalizing q with
  | nil => simp [Admits, after]
  | cons e tr ih =>
    rw [List.cons_append, Admits, Admits, ih, and_assoc]
    rfl

/-- **The runs of a program that keeps to a discipline**, whatever is answered. -/
theorem Follows.runs (hD : ∀ q o x, D.possible q o x) (h : Follows D q p Q) (hr : p.Runs tr a) :
    D.Admits q tr ∧ Q (D.after q tr) a := by
  induction p generalizing q tr with
  | ret b =>
    obtain ⟨rfl, rfl⟩ := hr
    exact ⟨trivial, h⟩
  | op o k ih =>
    obtain ⟨x, tr, rfl, hr⟩ := hr
    obtain ⟨hadmits, hQ⟩ := ih x (h.2 x (hD q o x)) hr
    exact ⟨⟨h.1, hadmits⟩, hQ⟩

end Discipline

/-! ## Raising -/

/-- A program that can raise. -/
abbrev Raising (Op : Type) (Ans : Op → Type) (α : Type) : Type := OptionT (Prog Op Ans) α

namespace Raising

open Prog

variable {x y : Raising Op Ans α} {f : α → Raising Op Ans β} {tr : List (Event Op Ans)}
  {r : Option β} {Q : List (Event Op Ans) → Option α → Prop}
  {R : List (Event Op Ans) → Option β → Prop} {stop : Op → Bool}

theorem run_seq : (x >>= f).run = x.run.bind fun a => a.elim (ret none) fun a => (f a).run := by
  refine congrArg (Prog.bind x.run) (funext fun a => ?_)
  cases a <;> rfl

theorem run_catch : (tryCatchThe Unit x fun _ => y).run =
    x.run.bind fun a => a.elim y.run fun a => ret (some a) := by
  refine congrArg (Prog.bind x.run) (funext fun a => ?_)
  cases a <;> rfl

/-- **Sequences**: what raises ends them. -/
theorem runs_seq : (x >>= f).run.Runs tr r ↔ ∃ tr₁ a tr₂, tr = tr₁ ++ tr₂ ∧ x.run.Runs tr₁ a ∧
    (a.elim (ret none) fun a => (f a).run).Runs tr₂ r := by
  rw [run_seq]
  exact runs_bind

/-- **Handlers** run when something has been raised. -/
theorem runs_catch {r : Option α} : (tryCatchThe Unit x fun _ => y).run.Runs tr r ↔
    ∃ tr₁ a tr₂, tr = tr₁ ++ tr₂ ∧ x.run.Runs tr₁ a ∧
      (a.elim y.run fun a => ret (some a)).Runs tr₂ r := by
  rw [run_catch]
  exact runs_bind

theorem runs_lift {p : Prog Op Ans β} :
    (OptionT.lift p : Raising Op Ans β).run.Runs tr r ↔ ∃ b, r = some b ∧ p.Runs tr b := by
  constructor
  · intro h
    obtain ⟨tr₁, b, _, rfl, h₁, rfl, rfl⟩ := runs_bind.mp h
    exact ⟨b, rfl, by simpa using h₁⟩
  · rintro ⟨b, rfl, h⟩
    exact runs_bind.mpr ⟨tr, b, [], by simp, h, rfl, rfl⟩

theorem play_seq_none {oracle : (o : Op) → Ans o} (hx : x.run.play oracle = (none, tr)) :
    (x >>= f).run.play oracle = (none, tr) := by
  rw [run_seq, play_bind, hx]
  simp [play]

theorem play_seq_some {oracle : (o : Op) → Ans o} {a : α}
    (hx : x.run.play oracle = (some a, tr)) :
    (x >>= f).run.play oracle =
      (((f a).run.play oracle).1, tr ++ ((f a).run.play oracle).2) := by
  rw [run_seq, play_bind, hx]
  rfl

theorem avoids_seq (hx : x.run.Avoids stop) (hf : ∀ a, (f a).run.Avoids stop) :
    (x >>= f).run.Avoids stop := by
  rw [run_seq]
  refine hx.bind fun a => ?_
  cases a with
  | none => trivial
  | some a => exact hf a

theorem ensures_seq (hx : x.run.Ensures Q) (hraise : ∀ tr, Q tr none → R tr none)
    (hf : ∀ tr a, Q tr (some a) → (f a).run.Ensures fun tr' r => R (tr ++ tr') r) :
    (x >>= f).run.Ensures R := by
  intro tr r hr
  obtain ⟨tr₁, a, tr₂, rfl, h₁, h₂⟩ := runs_seq.mp hr
  have h := hx tr₁ a h₁
  cases a with
  | none =>
    obtain ⟨rfl, rfl⟩ := h₂
    rw [List.append_nil]
    exact hraise tr₁ h
  | some a => exact hf tr₁ a h tr₂ r h₂

end Raising

end Lts

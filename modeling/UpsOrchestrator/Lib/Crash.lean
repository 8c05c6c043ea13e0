import UpsOrchestrator.Lib.Prog

/-!
# Programs that are cut short

A process makes calls, one after the other. Each is a program over atomic operations on a disk that
outlives the process, and the process may die between any two of them; it comes up again with a
recovery call.

* `Process`, `processSystem`: the disk, and how far the process is in its call.
* `track`: a history of the calls that have begun and of those that have returned.
* `KeepsFit`: along every call, wherever the process may die, the disk fits the history;
  **`fits_of_run`**, **`fits_at_rest`**: then it does after every run.
-/

namespace Lts

/-- A call on its way: what it has performed, and what is left of it. -/
structure Running (κ Op : Type) (Ans : Op → Type) where
  call : κ
  past : List Op
  rest : Prog Op Ans Unit

/-- The disk and the call that is being made. -/
structure Process (σ κ Op : Type) (Ans : Op → Type) where
  disk : σ
  running : Option (Running κ Op Ans)

inductive ProcessAct (κ : Type)
  | begin (c : κ)
  /-- the call performs its next operation -/
  | op
  /-- the call returns -/
  | finish
  /-- the process dies, and comes up with the call `c` -/
  | crash (c : κ)
  deriving DecidableEq

section

variable {Op : Type} {Ans : Op → Type} {σ κ : Type} (exec : Prog.Exec Op Ans σ Unit)
  (prog : κ → Prog Op Ans Unit) (recovers : κ → Bool)

/-- **One step of the process.** -/
def Process.step (w : Process σ κ Op Ans) : ProcessAct κ → Option (Process σ κ Op Ans)
  | .begin c =>
    match w.running with
    | none => some { w with running := some ⟨c, [], prog c⟩ }
    | some _ => none
  | .op =>
    match w.running with
    | some ⟨c, past, .op o k⟩ =>
      (exec o () w.disk).map fun r =>
        { disk := r.2, running := some ⟨c, past ++ [o], k r.1⟩ }
    | _ => none
  | .finish =>
    match w.running with
    | some ⟨_, _, .ret _⟩ => some { w with running := none }
    | _ => none
  | .crash c => if recovers c then some { w with running := some ⟨c, [], prog c⟩ } else none

/-- **The runs of a process** that starts at rest, on the disk `u`. -/
def processSystem (u : σ) : System (Process σ κ Op Ans) (ProcessAct κ) where
  init w := w.disk = u ∧ w.running = none
  step := Process.step exec prog recovers

/-- A step of a process. -/
abbrev ProcessStep (σ κ Op : Type) (Ans : Op → Type) : Type :=
  Transition (Process σ κ Op Ans) (ProcessAct κ)

/-- The operations of a call, which remembers them. -/
def withPast : Prog.Exec Op Ans (σ × List Op) Unit := fun o e v =>
  (exec o e v.1).map fun r => (r.1, r.2, v.2 ++ [o])

/-! ## Histories -/

variable {η : Type} (begun ended : η → κ → η)

/-- The history of the calls that have begun and returned. -/
def track (h : η) (t : ProcessStep σ κ Op Ans) : η :=
  match t.act with
  | .begin c => begun h c
  | .crash c => begun h c
  | .finish => t.pre.running.elim h fun r => ended h r.call
  | .op => h

variable (Torn : κ → List Op → Prop) (Q : η → σ → Prop)

/-- Where the call `c` is at a point at which the process may die, the disk fits the history `h`;
where it returns, the disk fits the history with its end. -/
def Fitting (h : η) (c : κ) (rest : Prog Op Ans Unit) (v : σ × List Op) : Prop :=
  (¬Torn c v.2 → Q h v.1) ∧ (∀ a, rest = .ret a → Q (ended h c) v.1)

/-- **Along every call** from a disk that fits, it goes on to fit. -/
def KeepsFit : Prop := ∀ h c u, Q h u →
  (prog c).Along (withPast exec) () (Fitting ended Torn Q (begun h c) c) (u, [])

/-- The process dies in the middle of something torn. -/
def DiesTorn (t : ProcessStep σ κ Op Ans) : Prop :=
  ∃ c, t.act = .crash c ∧ ∃ r ∈ t.pre.running, Torn r.call r.past

instance [∀ c past, Decidable (Torn c past)] (t : ProcessStep σ κ Op Ans) :
    Decidable (DiesTorn Torn t) :=
  match h : t.act with
  | .crash c => decidable_of_iff (∃ r ∈ t.pre.running, Torn r.call r.past)
      ⟨fun hr => ⟨c, h, hr⟩, fun ⟨_, _, hr⟩ => hr⟩
  | .begin _ => isFalse fun ⟨_, hc, _⟩ => by simp [h] at hc
  | .op => isFalse fun ⟨_, hc, _⟩ => by simp [h] at hc
  | .finish => isFalse fun ⟨_, hc, _⟩ => by simp [h] at hc

/-- The disk fits the history, as far as the running call has come. -/
def Fits (h : η) (w : Process σ κ Op Ans) : Prop :=
  match w.running with
  | none => Q h w.disk
  | some r => r.rest.Along (withPast exec) () (Fitting ended Torn Q h r.call) (w.disk, r.past)

variable {exec prog recovers begun ended Torn Q} {u : σ} {w w' : Process σ κ Op Ans}
  {t : ProcessStep σ κ Op Ans} {tr : List (ProcessStep σ κ Op Ans)} {h : η}

theorem fits_step (hQ : KeepsFit exec prog begun ended Torn Q)
    (ht : (processSystem exec prog recovers u).Takes t) (htorn : ¬DiesTorn Torn t)
    (h₀ : Fits exec ended Torn Q h t.pre) : Fits exec ended Torn Q (track begun ended h t) t.post := by
  obtain ⟨⟨disk, running⟩, act, post⟩ := t
  change Process.step exec prog recovers ⟨disk, running⟩ act = some post at ht
  cases act with
  | begin c =>
    cases running with
    | some r => exact absurd ht (by simp [Process.step])
    | none =>
      obtain rfl := Option.some.inj ht
      exact hQ h c disk h₀
  | crash c =>
    simp only [Process.step, Option.ite_none_right_eq_some, Option.some.injEq] at ht
    obtain ⟨-, rfl⟩ := ht
    refine hQ h c disk ?_
    cases running with
    | none => exact h₀
    | some r => exact (Prog.Along.here h₀).1 fun hr => htorn ⟨c, rfl, r, rfl, hr⟩
  | finish =>
    match running, ht, h₀ with
    | some ⟨c, past, .ret a⟩, ht, h₀ =>
      obtain rfl := Option.some.inj ht
      exact h₀.2 a rfl
  | op =>
    match running, ht, h₀ with
    | some ⟨c, past, .op o k⟩, ht, h₀ =>
      obtain ⟨⟨a, v⟩, hexec, rfl⟩ := Option.map_eq_some_iff.mp ht
      exact h₀.2 a (v, past ++ [o]) (by simp [withPast, hexec])

/-- **The rule for runs** in which the process does not die in the middle of something torn. -/
theorem fits_of_run (hQ : KeepsFit exec prog begun ended Torn Q) {h₀ : η}
    (hr : Run (processSystem exec prog recovers u) w tr w') (hw : Fits exec ended Torn Q h₀ w)
    (htorn : ∀ t ∈ tr, ¬DiesTorn Torn t) :
    Fits exec ended Torn Q (hist (track begun ended) h₀ tr) w' :=
  hr.inv_histWhen _ _ (J := Fits exec ended Torn Q) (C := fun t => ¬DiesTorn Torn t)
    (fun _ _ ht htorn hpre => fits_step hQ ht htorn hpre) hw htorn

/-- **At rest** the disk fits the history. -/
theorem fits_at_rest (hQ : KeepsFit exec prog begun ended Torn Q) {h₀ : η}
    (x : Execution (processSystem exec prog recovers u)) (h : Q h₀ u)
    (htorn : ∀ t ∈ x.steps, ¬DiesTorn Torn t) (hrest : x.last.running = none) :
    Q (hist (track begun ended) h₀ x.steps) x.last.disk := by
  obtain ⟨hdisk, hrun⟩ := x.init
  have hstart : Fits exec ended Torn Q h₀ x.start := by
    rw [Fits, hrun, hdisk]
    exact h
  have hlast := fits_of_run hQ x.run hstart htorn
  rw [Fits, hrest] at hlast
  exact hlast

/-! ## Calls as a whole -/

theorem solo_withPast {p : Prog Op Ans Unit} {v : σ} (hp : p.solo exec () u = some ((), v))
    (past : List Op) : ∃ past', p.solo (withPast exec) () (u, past) = some ((), v, past') := by
  induction p generalizing u past with
  | ret a =>
    obtain ⟨-, rfl⟩ := Prod.ext_iff.mp (Option.some.inj hp)
    exact ⟨past, rfl⟩
  | op o k ih =>
    rw [Prog.solo] at hp
    split at hp
    · exact absurd hp (by simp)
    next a w hw =>
      obtain ⟨past', h'⟩ := ih a hp (past ++ [o])
      refine ⟨past', ?_⟩
      rw [Prog.solo]
      simp only [withPast, hw, Option.map_some]
      exact h'

/-- **Calls that are not cut short** do what they do as a whole: if `run` says what a call by itself
makes of what the disk stands for, it says so of every call in a run that dies only at rest. -/
theorem keepsFit_of_solo {α : Type} {abs : σ → α} {run : κ → α → α}
    (hrun : ∀ c u, ∃ v, (prog c).solo exec () u = some ((), v) ∧ abs v = run c (abs u)) :
    KeepsFit exec prog (fun a _ => a) (fun a c => run c a) (fun _ _ => True)
      (fun a u => abs u = a) := by
  intro a c u hu
  obtain ⟨v, hsolo, hv⟩ := hrun c u
  obtain ⟨past, hpast⟩ := solo_withPast hsolo []
  refine (Prog.along_solo hpast).mono fun rest w hw => ⟨fun h => absurd trivial h, ?_⟩
  rintro b rfl
  obtain ⟨-, rfl⟩ := Prod.ext_iff.mp (Option.some.inj hw)
  rw [hv, hu]

end

end Lts

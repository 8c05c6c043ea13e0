import UpsOrchestrator.Lib.Runs
import Mathlib.Logic.Function.Basic

/-!
# Programs over atomic operations

A program is a tree of operations with their answers; a pool runs several programs against one
shared state, one operation at a time in any order.

* `Prog`: programs, and their sequential composition.
* `Prog.solo`, `Prog.upTo`: a program that runs alone, to its end or up to a chosen operation.
* `Prog.embed`: a program over a larger set of operations; **`solo_embed`**.
* `pool`: the transition system of the interleaved runs; **`run_of_solo`**, **`run_of_upTo`**: a
  thread that is left alone runs as by itself.
* `Prog.Along`: what holds along the way of a program that runs alone; `Along.bind`.
* `Discipline`, `Follows`: a thread keeps to a protocol whose stage moves with its operations and
  answers; `Follows.bind`, `Follows.embed`; **`DisciplinedTo.step`**, **`Disciplined.run`**: if all
  threads keep to it, a relation between their stages and the shared state that every allowed
  operation keeps is an invariant of the pool.
-/

namespace Lts

/-- Programs with operations `Op` and answers `Ans`. -/
inductive Prog (Op : Type) (Ans : Op → Type) (α : Type)
  | ret (a : α)
  | op (o : Op) (k : Ans o → Prog Op Ans α)

namespace Prog

variable {Op : Type} {Ans : Op → Type} {α β : Type}

/-- Sequential composition. -/
def bind : Prog Op Ans α → (α → Prog Op Ans β) → Prog Op Ans β
  | ret a, f => f a
  | op o k, f => op o fun a => (k a).bind f

instance : Monad (Prog Op Ans) where
  pure := ret
  bind := bind

/-- The next operation. -/
def head : Prog Op Ans α → Option Op
  | ret _ => none
  | op o _ => some o

/-- The program that is one operation. -/
def perform (o : Op) : Prog Op Ans (Ans o) := op o ret

@[simp] theorem ret_bind (a : α) (f : α → Prog Op Ans β) : (ret a).bind f = f a := rfl

@[simp] theorem op_bind (o : Op) (k : Ans o → Prog Op Ans α) (f : α → Prog Op Ans β) :
    (op o k).bind f = op o fun a => (k a).bind f := rfl

@[simp] theorem pure_eq (a : α) : (pure a : Prog Op Ans α) = ret a := rfl

@[simp] theorem bind_eq (p : Prog Op Ans α) (f : α → Prog Op Ans β) : p >>= f = p.bind f := rfl

theorem bind_ret (p : Prog Op Ans α) : p.bind ret = p := by
  induction p with
  | ret a => rfl
  | op o k ih => exact congrArg (op o) (funext ih)

theorem bind_assoc {γ : Type} (p : Prog Op Ans α) (f : α → Prog Op Ans β)
    (g : β → Prog Op Ans γ) : (p.bind f).bind g = p.bind fun a => (f a).bind g := by
  induction p with
  | ret a => rfl
  | op o k ih => exact congrArg (op o) (funext ih)

/-! ## Running alone -/

variable {σ ω : Type}

/-- What an operation answers and leaves behind; `none` while it has to wait. -/
abbrev Exec (Op : Type) (Ans : Op → Type) (σ ω : Type) : Type :=
  (o : Op) → ω → σ → Option (Ans o × σ)

variable (exec : Exec Op Ans σ ω) (e : ω)

/-- The program runs alone to its end. -/
def solo : Prog Op Ans α → σ → Option (α × σ)
  | ret a, u => some (a, u)
  | op o k, u =>
    match exec o e u with
    | none => none
    | some (a, v) => (k a).solo v

/-- The program runs alone up to the first operation that `stop` holds of. -/
def upTo (stop : Op → Bool) : Prog Op Ans α → σ → Option (Prog Op Ans α × σ)
  | ret a, u => some (ret a, u)
  | op o k, u =>
    if stop o then some (op o k, u)
    else match exec o e u with
      | none => none
      | some (a, v) => (k a).upTo stop v

variable {exec e}

@[simp] theorem solo_ret (a : α) (u : σ) : (ret a : Prog Op Ans α).solo exec e u = some (a, u) := rfl

@[simp] theorem solo_perform (o : Op) (u : σ) : (perform o).solo exec e u = exec o e u := by
  unfold perform solo
  cases exec o e u <;> rfl

theorem solo_bind (p : Prog Op Ans α) (f : α → Prog Op Ans β) (u : σ) :
    (p.bind f).solo exec e u = (p.solo exec e u).bind fun r => (f r.1).solo exec e r.2 := by
  induction p generalizing u with
  | ret a => rfl
  | op o k ih =>
    rw [op_bind, solo, solo]
    cases exec o e u with
    | none => rfl
    | some r => exact ih r.1 r.2

/-- The program over a larger set of operations. -/
def embed {Op' : Type} {Ans' : Op' → Type} (f : Op → Op') (g : ∀ o, Ans' (f o) → Ans o) :
    Prog Op Ans α → Prog Op' Ans' α
  | ret a => ret a
  | op o k => op (f o) fun a => (k (g o a)).embed f g

section Embed

variable {Op' : Type} {Ans' : Op' → Type} {f : Op → Op'} {g : ∀ o, Ans' (f o) → Ans o} {ω' : Type}
  {exec' : Exec Op' Ans' σ ω'} {e' : ω'}

/-- **An embedded program runs as before**, if its operations do. -/
theorem solo_embed (h : ∀ o u, (exec' (f o) e' u).map (fun r => (g o r.1, r.2)) = exec o e u)
    (p : Prog Op Ans α) (u : σ) : (p.embed f g).solo exec' e' u = p.solo exec e u := by
  induction p generalizing u with
  | ret a => rfl
  | op o k ih =>
    rw [embed, solo, solo, ← h o u]
    cases exec' (f o) e' u with
    | none => rfl
    | some r => exact ih (g o r.1) r.2

end Embed

/-- The program never comes to an operation that `stop` holds of. -/
def Avoids (stop : Op → Bool) : Prog Op Ans α → Prop
  | ret _ => True
  | op o k => stop o = false ∧ ∀ a, (k a).Avoids stop

/-- The program comes to an operation that `P` holds of, whatever it is answered. -/
def Reaches (P : Op → Prop) : Prog Op Ans α → Prop
  | ret _ => False
  | op o k => P o ∨ ∀ a, (k a).Reaches P

variable {stop : Op → Bool} {p : Prog Op Ans α} {u v : σ} {a : α}

@[simp] theorem avoids_perform {o : Op} :
    (perform o : Prog Op Ans (Ans o)).Avoids stop ↔ stop o = false := by
  simp [perform, Avoids]

theorem Avoids.bind {f : α → Prog Op Ans β} (hp : p.Avoids stop) (hf : ∀ a, (f a).Avoids stop) :
    (p.bind f).Avoids stop := by
  induction p with
  | ret a => exact hf a
  | op o k ih => exact ⟨hp.1, fun a => ih a (hp.2 a)⟩

theorem Avoids.mono {stop' : Op → Bool} (hp : p.Avoids stop)
    (h : ∀ o, stop o = false → stop' o = false) : p.Avoids stop' := by
  induction p with
  | ret a => trivial
  | op o k ih => exact ⟨h o hp.1, fun a => ih a (hp.2 a)⟩

theorem avoids_nothing (p : Prog Op Ans α) : p.Avoids fun _ => false := by
  induction p with
  | ret b => trivial
  | op o k ih => exact ⟨rfl, ih⟩

/-- A part that avoids the operations to stop at is passed by. -/
theorem upTo_bind {f : α → Prog Op Ans β} (hp : p.Avoids stop)
    (h : p.solo exec e u = some (a, v)) :
    (p.bind f).upTo exec e stop u = (f a).upTo exec e stop v := by
  induction p generalizing u with
  | ret b =>
    obtain ⟨rfl, rfl⟩ := Prod.ext_iff.mp (Option.some.inj h)
    rfl
  | op o k ih =>
    rw [solo] at h
    rw [op_bind, upTo, hp.1, if_neg Bool.false_ne_true]
    split at h
    · exact absurd h (by simp)
    next b w hb => exact ih b (hp.2 b) h

theorem upTo_of_avoids (hp : p.Avoids stop) (h : p.solo exec e u = some (a, v)) :
    p.upTo exec e stop u = some (ret a, v) := by
  have hb := upTo_bind (f := ret) hp h
  rwa [bind_ret] at hb

theorem upTo_all (p : Prog Op Ans α) (u : σ) : p.upTo exec e (fun _ => true) u = some (p, u) := by
  cases p with
  | ret a => rfl
  | op o k =>
    rw [upTo]
    exact if_pos rfl

theorem upTo_perform_bind {o : Op} {f : Ans o → Prog Op Ans β} (h : stop o = true) :
    ((perform o).bind f).upTo exec e stop u = some (op o f, u) := by
  rw [perform, op_bind, upTo, if_pos h]
  rfl

theorem upTo_bind_op {o : Op} {k : Ans o → Prog Op Ans α} {f : α → Prog Op Ans β}
    (h : p.upTo exec e stop u = some (op o k, v)) :
    (p.bind f).upTo exec e stop u = some (op o fun a => (k a).bind f, v) := by
  induction p generalizing u with
  | ret b => exact absurd (Prod.ext_iff.mp (Option.some.inj h)).1 (by simp)
  | op o' k' ih =>
    rw [upTo] at h
    rw [op_bind, upTo]
    split_ifs at h ⊢ with hs
    · obtain ⟨hop, rfl⟩ := Prod.ext_iff.mp (Option.some.inj h)
      cases hop
      rfl
    · split at h
      · exact absurd h (by simp)
      next b w hb => exact ih b h

/-! ## What holds along the way -/

variable (exec e) in
/-- `P` holds of what is left of the program and of the state, at every point of its run alone. -/
def Along (P : Prog Op Ans α → σ → Prop) : Prog Op Ans α → σ → Prop
  | ret a, u => P (ret a) u
  | op o k, u => P (op o k) u ∧ ∀ a v, exec o e u = some (a, v) → (k a).Along P v

variable {P Q : Prog Op Ans α → σ → Prop}

theorem Along.here (h : p.Along exec e P u) : P p u := by
  cases p with
  | ret a => exact h
  | op o k => exact h.1

theorem Along.mono (h : p.Along exec e P u) (hPQ : ∀ q v, P q v → Q q v) : p.Along exec e Q u := by
  induction p generalizing u with
  | ret a => exact hPQ _ _ h
  | op o k ih => exact ⟨hPQ _ _ h.1, fun a v hv => ih a (h.2 a v hv)⟩

theorem Along.and (hP : p.Along exec e P u) (hQ : p.Along exec e Q u) :
    p.Along exec e (fun q v => P q v ∧ Q q v) u := by
  induction p generalizing u with
  | ret a => exact ⟨hP, hQ⟩
  | op o k ih => exact ⟨⟨hP.1, hQ.1⟩, fun a v hv => ih a (hP.2 a v hv) (hQ.2 a v hv)⟩

/-- The end is the same from every point on the way. -/
theorem along_solo {r : α × σ} (h : p.solo exec e u = some r) :
    p.Along exec e (fun q v => q.solo exec e v = some r) u := by
  induction p generalizing u with
  | ret a => exact h
  | op o k ih =>
    refine ⟨h, fun a v hv => ih a ?_⟩
    rw [solo, hv] at h
    exact h

/-- **Sequential composition.** -/
theorem Along.bind {f : α → Prog Op Ans β} {P : Prog Op Ans β → σ → Prop}
    (hp : p.Along exec e (fun q v => P (q.bind f) v) u)
    (hf : ∀ a v, p.solo exec e u = some (a, v) → (f a).Along exec e P v) :
    (p.bind f).Along exec e P u := by
  induction p generalizing u with
  | ret a => exact hf a u rfl
  | op o k ih =>
    refine ⟨hp.1, fun a v hv => ih a (hp.2 a v hv) fun b w hw => ?_⟩
    refine hf b w ?_
    rw [solo, hv]
    exact hw

theorem Along.of_avoids {I : σ → Prop} (hp : p.Avoids stop)
    (hI : ∀ o e u a v, stop o = false → exec o e u = some (a, v) → I u → I v) (hu : I u) :
    p.Along exec e (fun _ v => I v) u := by
  induction p generalizing u with
  | ret a => exact hu
  | op o k ih => exact ⟨hu, fun a v hv => ih a (hp.2 a) (hI o e u a v hp.1 hv hu)⟩

theorem Along.last {I : σ → Prop} (h : p.Along exec e (fun _ v => I v) u)
    (hs : p.solo exec e u = some (a, v)) : I v := by
  induction p generalizing u with
  | ret b =>
    obtain ⟨-, rfl⟩ := Prod.ext_iff.mp (Option.some.inj hs)
    exact h
  | op o k ih =>
    rw [solo] at hs
    split at hs
    · exact absurd hs (by simp)
    next b w hb => exact ih b (h.2 b w hb) hs

end Prog

/-! ## Pools -/

/-- A shared state and the rest of the program of each thread. -/
structure Pool (Op : Type) (Ans : Op → Type) (σ ι : Type) where
  shared : σ
  threads : ι → Prog Op Ans Unit

section Pool

variable {Op : Type} {Ans : Op → Type} {σ ω ι : Type} [DecidableEq ι]
  (exec : Prog.Exec Op Ans σ ω)

/-- Thread `i` performs its next operation. -/
def Pool.step (w : Pool Op Ans σ ι) (a : ι × ω) : Option (Pool Op Ans σ ι) :=
  match w.threads a.1 with
  | .ret _ => none
  | .op o k => (exec o a.2 w.shared).map fun r =>
    { shared := r.2, threads := Function.update w.threads a.1 (k r.1) }

/-- **The interleaved runs** from the pool `w₀`. -/
def pool (w₀ : Pool Op Ans σ ι) : System (Pool Op Ans σ ι) (ι × ω) where
  init w := w = w₀
  step := Pool.step exec

variable {exec} {w₀ w w' : Pool Op Ans σ ι} {i : ι} {e : ω} {u v : σ}
  {threads : ι → Prog Op Ans Unit}

theorem Pool.step_op {o : Op} {k : Ans o → Prog Op Ans Unit} {a : Ans o}
    (hi : threads i = .op o k) (h : exec o e u = some (a, v)) :
    Pool.step exec ⟨u, threads⟩ (i, e) = some ⟨v, Function.update threads i (k a)⟩ := by
  simp only [step, hi, h, Option.map_some]

theorem Pool.of_step {a : ι × ω} (h : w.step exec a = some w') :
    ∃ o k b v, w.threads a.1 = .op o k ∧ exec o a.2 w.shared = some (b, v) ∧
      w' = ⟨v, Function.update w.threads a.1 (k b)⟩ := by
  unfold step at h
  split at h
  · exact absurd h (by simp)
  next o k hi =>
    obtain ⟨⟨b, v⟩, hb, rfl⟩ := Option.map_eq_some_iff.mp h
    exact ⟨o, k, b, v, hi, hb, rfl⟩

/-- **A thread that is left alone** runs as by itself, up to an operation. -/
theorem labelled_of_upTo {stop : Op → Bool} {p q : Prog Op Ans Unit} (hi : threads i = p)
    (h : p.upTo exec e stop u = some (q, v)) :
    ∃ tr, Run (pool exec w₀) ⟨u, threads⟩ tr ⟨v, Function.update threads i q⟩ ∧
      ∀ t ∈ tr, t.act = (i, e) := by
  induction p generalizing u threads with
  | ret a =>
    obtain ⟨rfl, rfl⟩ := Prod.ext_iff.mp (Option.some.inj h)
    refine ⟨[], ?_, by simp⟩
    rw [← hi, Function.update_eq_self]
    exact .nil _
  | op o k ih =>
    rw [Prog.upTo] at h
    split_ifs at h with hs
    · obtain ⟨rfl, rfl⟩ := Prod.ext_iff.mp (Option.some.inj h)
      refine ⟨[], ?_, by simp⟩
      rw [← hi, Function.update_eq_self]
      exact .nil _
    · split at h
      · exact absurd h (by simp)
      next a w ha =>
        have hself : Function.update threads i (k a) i = k a := Function.update_self ..
        obtain ⟨tr, hr, hacts⟩ := ih a hself h
        rw [Function.update_idem] at hr
        have h1 : (pool exec w₀).Takes
            ⟨⟨u, threads⟩, (i, e), ⟨w, Function.update threads i (k a)⟩⟩ := Pool.step_op hi ha
        exact ⟨_, (Run.single h1).append hr,
          List.forall_mem_append.mpr ⟨List.forall_mem_singleton.mpr rfl, hacts⟩⟩

theorem run_of_upTo {stop : Op → Bool} {p q : Prog Op Ans Unit} (hi : threads i = p)
    (h : p.upTo exec e stop u = some (q, v)) :
    ∃ tr, Run (pool exec w₀) ⟨u, threads⟩ tr ⟨v, Function.update threads i q⟩ :=
  let ⟨tr, hr, _⟩ := labelled_of_upTo hi h
  ⟨tr, hr⟩

/-- **A thread that is left alone** runs to its end. -/
theorem run_of_solo {p : Prog Op Ans Unit} {a : Unit} (hi : threads i = p)
    (h : p.solo exec e u = some (a, v)) :
    ∃ tr, Run (pool exec w₀) ⟨u, threads⟩ tr ⟨v, Function.update threads i (.ret a)⟩ := by
  exact run_of_upTo hi (Prog.upTo_of_avoids p.avoids_nothing h)

end Pool

/-! ## Disciplines -/

/-- A protocol for the threads of a pool: the operations that a stage allows, the answers it can
meet and the stage after an answer. -/
structure Discipline (Op : Type) (Ans : Op → Type) (τ : Type) where
  allowed : τ → Op → Prop
  possible : τ → (o : Op) → Ans o → Prop
  next : τ → (o : Op) → Ans o → τ

section Discipline

variable {Op : Type} {Ans : Op → Type} {τ α β : Type} (D : Discipline Op Ans τ)

/-- From stage `q` the program keeps to the discipline, and ends in a stage and with a value that
satisfy `Q`. -/
def Follows : τ → Prog Op Ans α → (τ → α → Prop) → Prop
  | q, .ret a, Q => Q q a
  | q, .op o k, Q => D.allowed q o ∧ ∀ a, D.possible q o a → Follows (D.next q o a) (k a) Q

variable {D} {q : τ} {p : Prog Op Ans α} {Q R : τ → α → Prop}

theorem Follows.mono (h : Follows D q p Q) (hQ : ∀ q a, Q q a → R q a) : Follows D q p R := by
  induction p generalizing q with
  | ret a => exact hQ q a h
  | op o k ih => exact ⟨h.1, fun a ha => ih a (h.2 a ha)⟩

/-- **Sequential composition.** -/
theorem Follows.bind {f : α → Prog Op Ans β} {R : τ → β → Prop}
    (h : Follows D q p fun q' a => Follows D q' (f a) R) : Follows D q (p.bind f) R := by
  induction p generalizing q with
  | ret a => exact h
  | op o k ih => exact ⟨h.1, fun a ha => ih a (h.2 a ha)⟩

theorem Follows.of_avoids {stop : Op → Bool} (hp : p.Avoids stop)
    (hD : ∀ o, stop o = false → D.allowed q o ∧ ∀ a, D.next q o a = q) (hQ : ∀ a, Q q a) :
    Follows D q p Q := by
  induction p with
  | ret a => exact hQ a
  | op o k ih =>
    obtain ⟨ho, hn⟩ := hD o hp.1
    refine ⟨ho, fun a _ => ?_⟩
    rw [hn a]
    exact ih a (hp.2 a)

/-- **A program over a larger set of operations** keeps to a discipline that treats them alike. -/
theorem Follows.embed {Op' : Type} {Ans' : Op' → Type} {D' : Discipline Op' Ans' τ} {f : Op → Op'}
    {g : ∀ o, Ans' (f o) → Ans o} (hallowed : ∀ q o, D.allowed q o → D'.allowed q (f o))
    (hpossible : ∀ q o a, D'.possible q (f o) a → D.possible q o (g o a))
    (hnext : ∀ q o a, D'.next q (f o) a = D.next q o (g o a)) (h : Follows D q p Q) :
    Follows D' q (p.embed f g) Q := by
  induction p generalizing q with
  | ret a => exact h
  | op o k ih =>
    refine ⟨hallowed q o h.1, fun a ha => ?_⟩
    rw [hnext]
    exact ih (g o a) (h.2 (g o a) (hpossible q o a ha))

variable {σ ω ι : Type} [DecidableEq ι] {exec : Prog.Exec Op Ans σ ω}
  {J : (ι → τ) → σ → Prop} {P : Op → σ → σ → Prop}

variable (D exec J) in
/-- Every operation that a thread's stage allows, with answers that the thread may get, meets a
possible answer, keeps the relation `J` between stages and shared state, and satisfies `P`. -/
def Discipline.KeepsWith (E : ι → ω → Prop) (P : ι → Op → σ → σ → Prop) : Prop :=
  ∀ q u i o e a v, E i e → J q u → D.allowed (q i) o → exec o e u = some (a, v) →
    D.possible (q i) o a ∧ J (Function.update q i (D.next (q i) o a)) v ∧ P i o u v

variable (D exec J P) in
/-- The same for any answers and for all threads alike. -/
def Discipline.Keeps : Prop :=
  ∀ q u i o e a v, J q u → D.allowed (q i) o → exec o e u = some (a, v) →
    D.possible (q i) o a ∧ J (Function.update q i (D.next (q i) o a)) v ∧ P o u v

variable (D J) in
/-- The threads keep to the discipline from stages that fit the shared state, and end in stages with
`E`. -/
def DisciplinedTo (E : ι → τ → Prop) (w : Pool Op Ans σ ι) : Prop :=
  ∃ q, J q w.shared ∧ ∀ i, Follows D (q i) (w.threads i) fun q' _ => E i q'

variable (D J) in
/-- The threads keep to the discipline from stages that fit the shared state. -/
def Disciplined (w : Pool Op Ans σ ι) : Prop :=
  ∃ q, J q w.shared ∧ ∀ i, Follows D (q i) (w.threads i) fun _ _ => True

variable {w₀ w w' : Pool Op Ans σ ι} {t : Transition (Pool Op Ans σ ι) (ι × ω)}
  {E : ι → ω → Prop} {F : ι → τ → Prop} {R : ι → Op → σ → σ → Prop}

/-- **A step of a pool whose threads keep to a discipline**: its thread performs what its stage allows
and moves on if the answer is possible; the others stay where they are. -/
theorem Follows.step {q : ι → τ} {Q : ι → τ → Unit → Prop} (h : (pool exec w₀).Takes t)
    (hq : ∀ i, Follows D (q i) (t.pre.threads i) (Q i)) :
    ∃ o a, (t.pre.threads t.act.1).head = some o ∧
      exec o t.act.2 t.pre.shared = some (a, t.post.shared) ∧ D.allowed (q t.act.1) o ∧
      (D.possible (q t.act.1) o a → ∀ i, Follows D
        (Function.update q t.act.1 (D.next (q t.act.1) o a) i) (t.post.threads i) (Q i)) := by
  obtain ⟨o, k, b, v, hi, hb, hpost⟩ := Pool.of_step h
  have hop := hq t.act.1
  rw [hi] at hop
  rw [hpost]
  refine ⟨o, b, by rw [hi]; rfl, hb, hop.1, fun hposs i => ?_⟩
  show Follows D _ (Function.update t.pre.threads t.act.1 (k b) i) _
  by_cases hit : i = t.act.1
  · subst hit
    rw [Function.update_self, Function.update_self]
    exact hop.2 b hposs
  · rw [Function.update_of_ne hit, Function.update_of_ne hit]
    exact hq i

/-- **The rule for a step.** -/
theorem DisciplinedTo.step (hD : D.KeepsWith exec J E R) (h : (pool exec w₀).Takes t)
    (he : E t.act.1 t.act.2) (hw : DisciplinedTo D J F t.pre) : DisciplinedTo D J F t.post ∧
      ∃ o, (t.pre.threads t.act.1).head = some o ∧ R t.act.1 o t.pre.shared t.post.shared := by
  obtain ⟨q, hJ, hq⟩ := hw
  obtain ⟨o, b, hhead, hb, hallowed, hfollows⟩ := Follows.step h hq
  obtain ⟨hposs, hJ', hP⟩ := hD q _ t.act.1 o t.act.2 b _ he hJ hallowed hb
  exact ⟨⟨_, hJ', hfollows hposs⟩, o, hhead, hP⟩

theorem Disciplined.step (hD : D.Keeps exec J P) (h : (pool exec w₀).Takes t)
    (hw : Disciplined D J t.pre) : Disciplined D J t.post ∧
      ∃ o, (t.pre.threads t.act.1).head = some o ∧ P o t.pre.shared t.post.shared :=
  DisciplinedTo.step (E := fun _ _ => True) (F := fun _ _ => True) (R := fun _ => P)
    (fun q u i o e a v _ => hD q u i o e a v) h trivial hw

/-- **The rule for runs.** -/
theorem Disciplined.run (hD : D.Keeps exec J P)
    {tr : List (Transition (Pool Op Ans σ ι) (ι × ω))} (h : Run (pool exec w₀) w tr w')
    (hw : Disciplined D J w) : ∀ t ∈ tr,
      ∃ o, (t.pre.threads t.act.1).head = some o ∧ P o t.pre.shared t.post.shared :=
  h.forall_of_inv (I := Disciplined D J) (C := fun _ => True)
    (fun _ ht _ hI => (hI.step hD ht).1) (fun _ ht _ hI => (hI.step hD ht).2) hw fun _ _ => trivial

end Discipline

end Lts

import UpsOrchestrator.Lib.Prog
import Mathlib.Data.Set.Lattice
import Mathlib.Logic.Hydra
import Mathlib.Order.WellFounded

/-!
# Locks

The threads of a pool share locks. A thread asks for a lock only above those it holds, gives back
only what it holds, and returns without any.

* `LockUse`, `Locked`: what the operations do to the locks, and that nothing else makes them wait.
* `lockDiscipline`, `LockSafe`: the protocol of the threads; `KeepsLocks`: a program that keeps to
  it, with the rules `keepsLocks_acquire`, `givesBack_release`, `KeepsLocks.bind`.
* `owner`: who holds a lock, after the steps of a run; **`exclusive`**: a lock is taken when it is
  free and given back by its owner.
* **`LockSafe.exists_step`**: there is no deadlock; `step_wellFounded`: and no run without an end;
  **`LockSafe.completes`**: every run of finitely many threads can be brought to its end.
-/

namespace Lts

/-- What an operation does with the locks `L`. -/
inductive LockUse (L : Type)
  | acquire (l : L)
  | release (l : L)
  | pass

variable {L : Type}

/-- The locks held after an operation, of those held before. -/
def LockUse.after (q : Set L) : LockUse L → Set L
  | acquire l => insert l q
  | release l => q \ {l}
  | pass => q

variable {Op : Type} {Ans : Op → Type} {α σ ω ι : Type} [DecidableEq ι]

/-- The locks in a shared state: an operation waits only for a lock that is held. -/
structure Locked (exec : Prog.Exec Op Ans σ ω) (use : Op → LockUse L) (held : σ → Set L) :
    Prop where
  waits : ∀ o e u, exec o e u = none → ∃ l, use o = .acquire l ∧ l ∈ held u
  free : ∀ o e u a v l, exec o e u = some (a, v) → use o = .acquire l → l ∉ held u
  after : ∀ o e u a v, exec o e u = some (a, v) → held v = (use o).after (held u)

/-! ## The protocol -/

section Protocol

variable [Preorder L] (use : Op → LockUse L)

/-- The protocol of a thread; its stage is the set of locks it holds. -/
def lockDiscipline : Discipline Op Ans (Set L) where
  allowed q o := match use o with
    | .acquire l => ∀ l' ∈ q, l' < l
    | .release l => l ∈ q
    | .pass => True
  possible _ _ _ := True
  next q o _ := (use o).after q

variable {use} in
theorem lt_of_allowed {q : Set L} {o : Op} {l l' : L}
    (h : (lockDiscipline use : Discipline Op Ans (Set L)).allowed q o) (ho : use o = .acquire l)
    (hl : l' ∈ q) : l' < l := by
  simp only [lockDiscipline, ho] at h
  exact h l' hl

variable {use} in
theorem mem_of_allowed {q : Set L} {o : Op} {l : L}
    (h : (lockDiscipline use : Discipline Op Ans (Set L)).allowed q o) (ho : use o = .release l) :
    l ∈ q := by
  simpa only [lockDiscipline, ho] using h

/-- The program keeps to the protocol, from no lock to no lock. -/
def KeepsLocks (p : Prog Op Ans α) : Prop :=
  Follows (lockDiscipline use) ∅ p fun q _ => q = ∅

/-- The program holds `l` and gives it back. -/
def GivesBack (l : L) (p : Prog Op Ans α) : Prop :=
  Follows (lockDiscipline use) {l} p fun q _ => q = ∅

section Rules

variable {use} {β : Type} {p : Prog Op Ans α} {f : α → Prog Op Ans β} {stop : Op → Bool} {l : L}
  {o : Op} {k : Ans o → Prog Op Ans α}

@[simp] theorem keepsLocks_ret (a : α) : KeepsLocks use (.ret a : Prog Op Ans α) := rfl

theorem keepsLocks_acquire (ho : use o = .acquire l) (hk : ∀ a, GivesBack use l (k a)) :
    KeepsLocks use (.op o k) := by
  refine ⟨by simp [lockDiscipline, ho], fun a _ => ?_⟩
  have hnext : (lockDiscipline use : Discipline Op Ans (Set L)).next ∅ o a = {l} := by
    simp [lockDiscipline, ho, LockUse.after]
  rw [hnext]
  exact hk a

theorem givesBack_release (ho : use o = .release l) (hk : ∀ a, KeepsLocks use (k a)) :
    GivesBack use l (.op o k) := by
  refine ⟨by simp [lockDiscipline, ho], fun a _ => ?_⟩
  have hnext : (lockDiscipline use : Discipline Op Ans (Set L)).next {l} o a = ∅ := by
    simp [lockDiscipline, ho, LockUse.after]
  rw [hnext]
  exact hk a

theorem follows_pass {q : Set L} {Q : Set L → α → Prop} (ho : use o = .pass)
    (hk : ∀ a, Follows (lockDiscipline use) q (k a) Q) :
    Follows (lockDiscipline use) q (.op o k) Q := by
  simp only [Follows, lockDiscipline, ho, LockUse.after]
  exact ⟨trivial, fun a _ => hk a⟩

theorem follows_bind_of_passes {q : Set L} {Q : Set L → β → Prop} (hp : p.Avoids stop)
    (h : ∀ o, stop o = false → use o = .pass)
    (hf : ∀ a, Follows (lockDiscipline use) q (f a) Q) :
    Follows (lockDiscipline use) q (p.bind f) Q := by
  induction p with
  | ret a => exact hf a
  | op o k ih => exact follows_pass (h o hp.1) fun a => ih a (hp.2 a)

theorem keepsLocks_of_passes (hp : p.Avoids stop) (h : ∀ o, stop o = false → use o = .pass) :
    KeepsLocks use p := by
  have hb := follows_bind_of_passes hp h (q := ∅) (f := .ret) (Q := fun q _ => q = ∅) fun _ => rfl
  rwa [Prog.bind_ret] at hb

/-- **Sequential composition.** -/
theorem KeepsLocks.bind (hp : KeepsLocks use p) (hf : ∀ a, KeepsLocks use (f a)) :
    KeepsLocks use (p.bind f) := by
  refine Follows.bind (hp.mono ?_)
  rintro q a rfl
  exact hf a

theorem KeepsLocks.embed {Op' : Type} {Ans' : Op' → Type} {use' : Op' → LockUse L} {f : Op → Op'}
    {g : ∀ o, Ans' (f o) → Ans o} (hp : KeepsLocks use p) (hf : ∀ o, use' (f o) = use o) :
    KeepsLocks use' (p.embed f g) :=
  Follows.embed (fun q o h => by simpa only [lockDiscipline, hf] using h) (fun _ _ _ _ => trivial)
    (fun q o a => by simp only [lockDiscipline, hf]) hp

end Rules

variable (held : σ → Set L)

/-- The threads hold what is held, each lock only one of them. -/
def Shares (q : ι → Set L) (u : σ) : Prop :=
  (∀ l, l ∈ held u ↔ ∃ i, l ∈ q i) ∧ ∀ l i j, l ∈ q i → l ∈ q j → i = j

/-- **The threads keep to the protocol**, from some locks that they share to none. -/
def LockSafe (w : Pool Op Ans σ ι) : Prop :=
  DisciplinedTo (lockDiscipline use) (Shares held) (fun _ q => q = ∅) w

variable {use held} {exec : Prog.Exec Op Ans σ ω} {w₀ w w' : Pool Op Ans σ ι}

omit [DecidableEq ι] in
theorem lockSafe_of_keepsLocks (h : ∀ i, KeepsLocks use (w.threads i)) (hu : held w.shared = ∅) :
    LockSafe use held w :=
  ⟨fun _ => ∅, ⟨by simp [hu], by simp⟩, h⟩

/-- **Locks are shared** after each operation that the protocol allows. -/
theorem keepsWith_shares (hL : Locked exec use held) :
    (lockDiscipline use).KeepsWith exec (Shares held) (fun (_ : ι) _ => True)
      fun _ o u _ => ∀ l, use o = .acquire l → l ∉ held u := by
  rintro q u i o e a v - ⟨hheld, hone⟩ hallowed hexec
  refine ⟨trivial, ?_, fun l hl => hL.free o e u a v l hexec hl⟩
  have hafter := hL.after o e u a v hexec
  have hnext : ∀ j, Function.update q i ((use o).after (q i)) j =
      if j = i then (use o).after (q i) else q j := Function.update_apply q i _
  show Shares held (Function.update q i ((use o).after (q i))) v
  cases ho : use o with
  | pass =>
    rw [ho] at hafter
    rw [LockUse.after, Function.update_eq_self]
    exact ⟨fun l => hafter ▸ hheld l, hone⟩
  | acquire l =>
    have hfree : ∀ j, l ∉ q j := fun j hj =>
      hL.free o e u a v l hexec ho ((hheld l).mpr ⟨j, hj⟩)
    rw [ho] at hnext hafter
    refine ⟨fun l' => ?_, fun l' j k hj hk => ?_⟩
    · rw [hafter, LockUse.after, Set.mem_insert_iff, hheld]
      constructor
      · rintro (rfl | ⟨j, hj⟩)
        · exact ⟨i, by rw [hnext, if_pos rfl]; exact Set.mem_insert ..⟩
        · refine ⟨j, ?_⟩
          rw [hnext]
          split_ifs with hji
          · exact Set.mem_insert_of_mem _ (hji ▸ hj)
          · exact hj
      · rintro ⟨j, hj⟩
        rw [hnext] at hj
        split_ifs at hj
        · exact hj.imp_right fun h => ⟨i, h⟩
        · exact .inr ⟨j, hj⟩
    · rw [hnext] at hj hk
      split_ifs at hj hk with hji hki hki
      · rw [hji, hki]
      · rcases hj with rfl | hj
        · exact absurd hk (hfree k)
        · exact hji.trans (hone l' i k hj hk)
      · rcases hk with rfl | hk
        · exact absurd hj (hfree j)
        · exact (hone l' j i hj hk).trans hki.symm
      · exact hone l' j k hj hk
  | release l =>
    have hmem : l ∈ q i := mem_of_allowed hallowed ho
    rw [ho] at hnext hafter
    have hsub : ∀ l' j, l' ∈ Function.update q i ((LockUse.release l).after (q i)) j →
        l' ∈ q j ∧ l' ≠ l := by
      intro l' j hj
      rw [hnext] at hj
      split_ifs at hj with hji
      · exact ⟨hji ▸ hj.1, hj.2⟩
      · refine ⟨hj, ?_⟩
        rintro rfl
        exact hji (hone l' j i hj hmem)
    refine ⟨fun l' => ?_, fun l' j k hj hk => hone l' j k (hsub l' j hj).1 (hsub l' k hk).1⟩
    rw [hafter, LockUse.after, Set.mem_sdiff, hheld]
    constructor
    · rintro ⟨⟨j, hj⟩, hl⟩
      refine ⟨j, ?_⟩
      rw [hnext]
      split_ifs with hji
      · exact ⟨hji ▸ hj, hl⟩
      · exact hj
    · rintro ⟨j, hj⟩
      exact ⟨⟨j, (hsub l' j hj).1⟩, (hsub l' j hj).2⟩

theorem LockSafe.run (hL : Locked exec use held) {tr : List (Transition (Pool Op Ans σ ι) (ι × ω))}
    (h : Run (pool exec w₀) w tr w') (hw : LockSafe use held w) : LockSafe use held w' :=
  h.inv (I := LockSafe use held)
    (fun _ ht hI => (DisciplinedTo.step (keepsWith_shares hL) ht trivial hI).1) hw

/-! ## No deadlock -/

omit [DecidableEq ι] in
/-- A lock is not held for ever: where all threads wait, none of them holds one. -/
theorem not_held_of_waiting [WellFoundedGT L] (hL : Locked exec use held)
    (hw : LockSafe use held w)
    (hwait : ∀ i o k, w.threads i = .op o k → ∃ e, exec o e w.shared = none) (l : L) :
    l ∉ held w.shared := by
  obtain ⟨q, ⟨hheld, -⟩, hq⟩ := hw
  induction l using WellFoundedGT.induction with
  | ind l ih =>
    intro hl
    obtain ⟨i, hi⟩ := (hheld l).mp hl
    have hfollows := hq i
    cases hp : w.threads i with
    | ret a =>
      rw [hp] at hfollows
      have hnone : q i = ∅ := hfollows
      rw [hnone] at hi
      exact hi
    | op o k =>
      -- the owner waits for a lock above
      obtain ⟨e, he⟩ := hwait i o k hp
      obtain ⟨l', ho, hl'⟩ := hL.waits o e w.shared he
      rw [hp] at hfollows
      exact ih l' (lt_of_allowed hfollows.1 ho hi) hl'

/-- **There is no deadlock**: as long as a thread has not returned, one of them can go on, whatever
it is answered. -/
theorem LockSafe.exists_step [WellFoundedGT L] (hL : Locked exec use held) (hw : LockSafe use held w)
    {i : ι} {o : Op} (hi : (w.threads i).head = some o) :
    ∃ j, ∀ e, ∃ w', (pool exec w₀).step w (j, e) = some w' := by
  by_contra hno
  have hwait : ∀ j o k, w.threads j = .op o k → ∃ e, exec o e w.shared = none := by
    intro j o k hj
    by_contra hgo
    refine hno ⟨j, fun e => ?_⟩
    obtain ⟨⟨a, v⟩, hav⟩ := Option.ne_none_iff_exists'.mp fun h => hgo ⟨e, h⟩
    exact ⟨_, Pool.step_op hj hav⟩
  cases hp : w.threads i with
  | ret a =>
    rw [hp] at hi
    cases hi
  | op o k =>
    obtain ⟨e, he⟩ := hwait i o k hp
    obtain ⟨l, -, hl⟩ := hL.waits o e w.shared he
    exact not_held_of_waiting hL hw hwait l hl

omit [DecidableEq ι] in
theorem LockSafe.held_eq_empty (hw : LockSafe use held w) (hret : ∀ i, w.threads i = .ret ()) :
    held w.shared = ∅ := by
  obtain ⟨q, ⟨hheld, -⟩, hq⟩ := hw
  refine Set.eq_empty_of_forall_notMem fun l hl => ?_
  obtain ⟨i, hi⟩ := (hheld l).mp hl
  have hfollows := hq i
  rw [hret i] at hfollows
  have hnone : q i = ∅ := hfollows
  rw [hnone] at hi
  exact hi

end Protocol

/-! ## Every run ends -/

/-- What is left of a program after its next operation. -/
inductive Prog.Next : Prog Op Ans α → Prog Op Ans α → Prop
  | intro (o : Op) (k : Ans o → Prog Op Ans α) (a : Ans o) : Next (k a) (.op o k)

theorem Prog.next_wellFounded :
    WellFounded (Prog.Next : Prog Op Ans α → Prog Op Ans α → Prop) := by
  refine ⟨fun p => ?_⟩
  induction p with
  | ret a =>
    refine Acc.intro _ fun q hq => ?_
    cases hq
  | op o k ih =>
    refine Acc.intro _ fun q hq => ?_
    cases hq with
    | intro _ _ a => exact ih a

section Ends

variable [Fintype ι] {exec : Prog.Exec Op Ans σ ω} {w₀ w w' : Pool Op Ans σ ι}

/-- The programs of all threads. -/
def Pool.programs (w : Pool Op Ans σ ι) : Multiset (Prog Op Ans Unit) :=
  Finset.univ.val.map w.threads

theorem cutExpand_of_step {a : ι × ω} (h : Pool.step exec w a = some w') :
    Relation.CutExpand Prog.Next w'.programs w.programs := by
  obtain ⟨o, k, b, v, hi, -, rfl⟩ := Pool.of_step h
  refine ⟨{k b}, .op o k, ?_, ?_⟩
  · intro p hp
    obtain rfl := Multiset.mem_singleton.mp hp
    exact ⟨o, k, b⟩
  · have hcons : (Finset.univ : Finset ι).val = a.1 ::ₘ (Finset.univ.erase a.1).val := by
      rw [Finset.erase_val]
      exact (Multiset.cons_erase (Finset.mem_univ a.1)).symm
    have hrest : (Finset.univ.erase a.1).val.map (Function.update w.threads a.1 (k b)) =
        (Finset.univ.erase a.1).val.map w.threads :=
      Multiset.map_congr rfl fun j hj => Function.update_of_ne (Finset.ne_of_mem_erase hj) ..
    simp only [Pool.programs]
    rw [hcons, Multiset.map_cons, Multiset.map_cons, hrest, Function.update_self, hi,
      ← Multiset.singleton_add, ← Multiset.singleton_add]
    ac_rfl

/-- **No run goes on for ever.** -/
theorem step_wellFounded :
    WellFounded fun w' w : Pool Op Ans σ ι => ∃ a, Pool.step exec w a = some w' :=
  Subrelation.wf (fun ⟨_, h⟩ => cutExpand_of_step h)
    (InvImage.wf Pool.programs Prog.next_wellFounded.cutExpand)

/-- **Every run can be brought to its end**, where all threads have returned and no lock is held. -/
theorem LockSafe.completes [Preorder L] [WellFoundedGT L] [Nonempty ω] {use : Op → LockUse L}
    {held : σ → Set L} (hL : Locked exec use held) (hw : LockSafe use held w) :
    ∃ tr w', Run (pool exec w₀) w tr w' ∧ (∀ i, w'.threads i = .ret ()) ∧ held w'.shared = ∅ := by
  have hwf : WellFounded fun w' w : Pool Op Ans σ ι => ∃ a, Pool.step exec w a = some w' :=
    step_wellFounded
  induction w using hwf.induction with
  | _ w ih =>
    by_cases hrun : ∃ i o, (w.threads i).head = some o
    · obtain ⟨i, o, hi⟩ := hrun
      have hgo : ∃ j, ∀ e, ∃ w', (pool exec w₀).step w (j, e) = some w' := hw.exists_step hL hi
      obtain ⟨j, hj⟩ := hgo
      obtain ⟨e⟩ := ‹Nonempty ω›
      obtain ⟨v, hv⟩ := hj e
      have hone : Run (pool exec w₀) w [⟨w, (j, e), v⟩] v := Run.single (t := ⟨w, (j, e), v⟩) hv
      obtain ⟨tr, w', hr, hend⟩ := ih v ⟨_, hv⟩ (hw.run hL hone)
      exact ⟨_, w', hone.append hr, hend⟩
    · have hret : ∀ i, w.threads i = .ret () := by
        intro i
        cases hp : w.threads i with
        | ret a => rfl
        | op o k => exact absurd ⟨i, o, by rw [hp]; rfl⟩ hrun
      exact ⟨[], w, .nil _, hret, hw.held_eq_empty hret⟩

end Ends

/-! ## Owners -/

section Owners

variable [DecidableEq L] (use : Op → LockUse L)

/-- What the next step of a thread does with the locks. -/
def lockUse (t : Transition (Pool Op Ans σ ι) (ι × ω)) : Option (LockUse L) :=
  (t.pre.threads t.act.1).head.map use

/-- The owners after an operation of thread `i`. -/
def LockUse.owners (i : ι) (own : L → Option ι) : LockUse L → L → Option ι
  | acquire l => Function.update own l (some i)
  | release l => Function.update own l none
  | pass => own

/-- The owner of each lock after one more step. -/
def ownerStep (own : L → Option ι) (t : Transition (Pool Op Ans σ ι) (ι × ω)) : L → Option ι :=
  (lockUse use t).elim own (LockUse.owners t.act.1 own)

/-- **The owner of each lock** after the steps of a run that began with all of them free. -/
def owner (tr : List (Transition (Pool Op Ans σ ι) (ι × ω))) : L → Option ι :=
  hist (ownerStep use) (fun _ => none) tr

variable [Preorder L] {use} {exec : Prog.Exec Op Ans σ ω} {held : σ → Set L}
  {w₀ w w' : Pool Op Ans σ ι} {own : L → Option ι} {t : Transition (Pool Op Ans σ ι) (ι × ω)}
  {tr tr₁ tr₂ : List (Transition (Pool Op Ans σ ι) (ι × ω))}

variable (use held) in
/-- The threads keep to the protocol and hold the locks that they own. -/
def Owned (own : L → Option ι) (w : Pool Op Ans σ ι) : Prop :=
  ∃ q, Shares held q w.shared ∧
    (∀ i, Follows (lockDiscipline use) (q i) (w.threads i) fun q _ => q = ∅) ∧
    ∀ l i, own l = some i ↔ l ∈ q i

theorem owned_step (hL : Locked exec use held) (ht : (pool exec w₀).Takes t)
    (hw : Owned use held own t.pre) : Owned use held (ownerStep use own t) t.post ∧
      (∀ l, lockUse use t = some (.acquire l) → own l = none) ∧
      ∀ l, lockUse use t = some (.release l) → own l = some t.act.1 := by
  obtain ⟨q, hshares, hq, hown⟩ := hw
  obtain ⟨o, a, hhead, hexec, hallowed, hfollows⟩ := Follows.step ht hq
  obtain ⟨-, hshares', hfree⟩ :=
    keepsWith_shares hL q t.pre.shared t.act.1 o t.act.2 a _ trivial hshares hallowed hexec
  have huse : lockUse use t = some (use o) := by rw [lockUse, hhead]; rfl
  have hnext : ∀ j, Function.update q t.act.1 ((use o).after (q t.act.1)) j =
      if j = t.act.1 then (use o).after (q t.act.1) else q j := Function.update_apply q t.act.1 _
  refine ⟨⟨_, hshares', hfollows trivial, fun l i => ?_⟩, fun l hl => ?_, fun l hl => ?_⟩
  · show ownerStep use own t l = some i ↔
      l ∈ Function.update q t.act.1 ((use o).after (q t.act.1)) i
    rw [hnext, ownerStep, huse, Option.elim_some]
    cases ho : use o with
    | pass =>
      simp only [LockUse.owners, LockUse.after, hown]
      split_ifs with hi
      · rw [hi]
      · rfl
    | acquire l' =>
      have hnone : ∀ j, l' ∉ q j := fun j hj => hfree l' ho ((hshares.1 l').mpr ⟨j, hj⟩)
      by_cases hl : l = l'
      · subst hl
        simp only [LockUse.owners, Function.update_self, Option.some.injEq, LockUse.after]
        split_ifs with hi
        · simp [hi]
        · exact ⟨fun h => absurd h.symm hi, fun h => absurd h (hnone i)⟩
      · rw [LockUse.owners, Function.update_of_ne hl, hown]
        split_ifs with hi
        · rw [hi, LockUse.after, Set.mem_insert_iff, or_iff_right hl]
        · rfl
    | release l' =>
      have hmem : l' ∈ q t.act.1 := mem_of_allowed hallowed ho
      by_cases hl : l = l'
      · subst hl
        simp only [LockUse.owners, Function.update_self, reduceCtorEq, LockUse.after, false_iff]
        split_ifs with hi
        · exact fun h => h.2 rfl
        · exact fun h => hi (hshares.2 l i _ h hmem)
      · rw [LockUse.owners, Function.update_of_ne hl, hown]
        split_ifs with hi
        · rw [hi, LockUse.after, Set.mem_sdiff]
          exact (and_iff_left hl).symm
        · rfl
  · rw [huse, Option.some.injEq] at hl
    refine Option.eq_none_iff_forall_ne_some.mpr fun j hj => ?_
    exact hfree l hl ((hshares.1 l).mpr ⟨j, (hown l j).mp hj⟩)
  · rw [huse, Option.some.injEq] at hl
    exact (hown l _).mpr (mem_of_allowed hallowed hl)

/-- **Mutual exclusion**: a lock is taken when it has no owner, and given back by its owner. -/
theorem exclusive (hL : Locked exec use held) (h₀ : ∀ i, KeepsLocks use (w.threads i))
    (hu : held w.shared = ∅) (h : Run (pool exec w₀) w (tr₁ ++ t :: tr₂) w') :
    (∀ l, lockUse use t = some (.acquire l) → owner use tr₁ l = none) ∧
      ∀ l, lockUse use t = some (.release l) → owner use tr₁ l = some t.act.1 := by
  have hstart : Owned use held (fun _ => none) w := ⟨fun _ => ∅, ⟨by simp [hu], by simp⟩, h₀, by simp⟩
  obtain ⟨h₁, ht, -⟩ := h.around
  have hpre : Owned use held (owner use tr₁) t.pre :=
    h₁.inv_hist (ownerStep use) _ (J := Owned use held)
      (fun _ _ ht hI => (owned_step hL ht hI).1) hstart
  exact (owned_step hL ht hpre).2

end Owners

end Lts

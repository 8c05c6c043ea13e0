import UpsOrchestrator.Lib.Runs

/-!
# Intervals of a run

The maximal stretches of a run on which a flag of the state is up, each told by the transition that
raises the flag and the one that lowers it.

* `Intervals`, `intervals`: the stretches that are over, in order, and the one that is not.
* `LogsFlip`: a log that is written when the flag flips. `Logs`: a log with one record for every
  stretch; **`Run.logs`**: the first makes the second.
-/

namespace Lts

/-- Stretches that are over, oldest first, and the start of the one that is not. -/
structure Intervals (τ : Type*) where
  closed : List (τ × τ) := []
  current : Option τ := none

variable {σ α : Type*} {S : System σ α} (f : σ → Bool)

/-- The flag goes up, goes down, or stays. -/
def Intervals.next (I : Intervals (Transition σ α)) (t : Transition σ α) :
    Intervals (Transition σ α) :=
  match f t.pre, f t.post with
  | false, true => { I with current := some t }
  | true, false =>
    match I.current with
    | none => I
    | some t₀ => { closed := I.closed ++ [(t₀, t)] }
  | _, _ => I

/-- **The maximal stretches** of the transitions `tr` on which `f` is up. -/
def intervals (tr : List (Transition σ α)) : Intervals (Transition σ α) := hist (Intervals.next f) {} tr

variable {f} {u w : σ} {tr : List (Transition σ α)} {I : Intervals (Transition σ α)}
  {t : Transition σ α}

theorem Intervals.next_of_eq (h : f t.post = f t.pre) : I.next f t = I := by
  unfold next
  rw [h]
  cases f t.pre <;> rfl

theorem Intervals.next_up (h : f t.pre = false) (h' : f t.post = true) :
    I.next f t = { I with current := some t } := by
  simp only [next, h, h']

theorem Intervals.next_down {t₀ : Transition σ α} (h : f t.pre = true) (h' : f t.post = false)
    (hI : I.current = some t₀) : I.next f t = { closed := I.closed ++ [(t₀, t)] } := by
  simp only [next, h, h', hI]

/-! ## Logs -/

section Log

variable (f) {η ρ : Type*} (entryOf : σ → Option η) (recordsOf : σ → List ρ)
  (Opens : Transition σ α → η → Prop) (Closes : η → Transition σ α → ρ → Prop)

/-- The log opens an entry when the flag goes up, and completes it when the flag goes down. -/
inductive LogsFlip (t : Transition σ α) : Prop
  | stay (flag : f t.post = f t.pre) (entry : entryOf t.post = entryOf t.pre)
      (records : recordsOf t.post = recordsOf t.pre)
  | up (n : η) (flag : f t.pre = false) (flag' : f t.post = true) (entry : entryOf t.post = some n)
      (records : recordsOf t.post = recordsOf t.pre) (opens : Opens t n)
  | down (n : η) (r : ρ) (flag : f t.pre = true) (flag' : f t.post = false)
      (entry : entryOf t.pre = some n) (entry' : entryOf t.post = none)
      (records : recordsOf t.post = recordsOf t.pre ++ [r]) (closes : Closes n t r)

/-- **The log is the list of the stretches**, after the records `base`. -/
structure Logs (base : List ρ) (I : Intervals (Transition σ α)) (w : σ) : Prop where
  flag : I.current.isSome = f w
  entry : Option.Rel Opens I.current (entryOf w)
  records : ∃ rs, recordsOf w = base ++ rs ∧
    List.Forall₂ (fun p r => ∃ n, Opens p.1 n ∧ Closes n p.2 r) I.closed rs

variable {f entryOf recordsOf Opens Closes} {base : List ρ}

theorem Logs.isSome (h : Logs f entryOf recordsOf Opens Closes base I w) :
    (entryOf w).isSome = f w := by
  have hrel := h.entry
  rw [← h.flag]
  generalize I.current = cur, entryOf w = entry at hrel ⊢
  cases hrel <;> rfl

theorem Logs.next (h : Logs f entryOf recordsOf Opens Closes base I t.pre)
    (ht : LogsFlip f entryOf recordsOf Opens Closes t) :
    Logs f entryOf recordsOf Opens Closes base (I.next f t) t.post := by
  obtain ⟨hflag, hentry, rs, hrs, hall⟩ := h
  cases ht with
  | stay flag same same' =>
    rw [Intervals.next_of_eq flag]
    exact ⟨hflag.trans flag.symm, same ▸ hentry, rs, same'.trans hrs, hall⟩
  | up n flag flag' entry same opens =>
    rw [Intervals.next_up flag flag']
    exact ⟨flag'.symm, entry ▸ .some opens, rs, same.trans hrs, hall⟩
  | down n r flag flag' entry entry' app closes =>
    rw [entry] at hentry
    generalize hcur : I.current = cur at hentry
    cases hentry with
    | @some t₀ _ hopens =>
      rw [Intervals.next_down flag flag' hcur]
      refine ⟨flag'.symm, entry' ▸ .none, rs ++ [r], ?_, ?_⟩
      · rw [app, hrs, List.append_assoc]
      · exact List.rel_append hall (.cons ⟨n, hopens, closes⟩ .nil)

/-- **A log that is written at the flips of the flag** is the list of the stretches. -/
theorem Run.logs (h : Run S u tr w) (hf : f u = false) (hu : entryOf u = none)
    (ht : ∀ t ∈ tr, (entryOf t.pre).isSome = f t.pre →
      LogsFlip f entryOf recordsOf Opens Closes t) :
    Logs f entryOf recordsOf Opens Closes (recordsOf u) (intervals f tr) w := by
  refine h.inv_histWhen (Intervals.next f) {}
    (J := Logs f entryOf recordsOf Opens Closes (recordsOf u))
    (C := fun t => (entryOf t.pre).isSome = f t.pre → LogsFlip f entryOf recordsOf Opens Closes t)
    (fun I t _ hC hJ => hJ.next (hC hJ.isSome)) ?_ ht
  exact ⟨hf.symm, hu ▸ .none, [], (List.append_nil _).symm, .nil⟩

end Log

end Lts

import Mathlib.Data.List.Basic

/-!
# Scanners

A scanner reads a list from left to right with a state, and writes a list; it may refuse.

* `Scanner`, `Scanner.walk`, `Scanner.scan`: the runs of a scanner.
* `walk_append`, **`scanFrom_append`**: reading one list after the other.
* `walk_gather`, `walk_gather_eq_none`: a state that gathers what it reads.
* `forall_of_scan`: what every accepted list consists of.
-/

namespace Lts

/-- What a scanner does on one item, and at the end. -/
structure Scanner (α σ β : Type*) where
  start : σ
  step : σ → α → Option (σ × List β)
  finish : σ → Option (List β)

namespace Scanner

variable {α σ β : Type*} (S : Scanner α σ β)

/-- The state after a list, and what has been written. -/
def walk : σ → List α → Option (σ × List β)
  | s, [] => some (s, [])
  | s, a :: as => (S.step s a).bind fun r => (walk r.1 as).map fun q => (q.1, r.2 ++ q.2)

/-- What is written from the state `s` on. -/
def scanFrom (s : σ) (as : List α) : Option (List β) :=
  (S.walk s as).bind fun r => (S.finish r.1).map (r.2 ++ ·)

/-- **What is written** for a list. -/
def scan (as : List α) : Option (List β) := S.scanFrom S.start as

variable {S} {s s' : σ} {a : α} {as bs : List α} {out : List β}

theorem walk_append : S.walk s (as ++ bs) =
    (S.walk s as).bind fun r => (S.walk r.1 bs).map fun q => (q.1, r.2 ++ q.2) := by
  induction as generalizing s with
  | nil => simp [walk]
  | cons a as ih =>
    rw [List.cons_append, walk, walk]
    cases S.step s a with
    | none => rfl
    | some r =>
      simp only [Option.bind_some, ih]
      cases S.walk r.1 as with
      | none => rfl
      | some q =>
        simp only [Option.map_some, Option.bind_some, Option.map_map]
        congr 1
        funext p
        exact congrArg (Prod.mk p.1) (List.append_assoc r.2 q.2 p.2).symm

/-- **One list after the other.** -/
theorem scanFrom_append (h : S.walk s as = some (s', out)) :
    S.scanFrom s (as ++ bs) = (S.scanFrom s' bs).map (out ++ ·) := by
  rw [scanFrom, scanFrom, walk_append, h, Option.bind_some]
  cases S.walk s' bs with
  | none => rfl
  | some q =>
    simp only [Option.map_some, Option.bind_some, Option.map_map]
    congr 1
    funext out'
    exact List.append_assoc out q.2 out'

theorem scanFrom_append_eq_none (h : S.walk s as = none) : S.scanFrom s (as ++ bs) = none := by
  rw [scanFrom, walk_append, h]
  rfl

/-! ## Gathering -/

section Gather

variable {f : List α → σ} {P Q : α → Prop} {acc : List α}

/-- **A state that gathers** what it reads. -/
theorem walk_gather (hf : ∀ acc a, P a → S.step (f acc) a = some (f (a :: acc), []))
    (hP : ∀ a ∈ as, P a) : S.walk (f acc) as = some (f (as.reverse ++ acc), []) := by
  induction as generalizing acc with
  | nil => rfl
  | cons a as ih =>
    have ha : P a := hP a List.mem_cons_self
    rw [walk, hf acc a ha, Option.bind_some, ih fun a ha => hP a (List.mem_cons_of_mem _ ha)]
    simp

theorem walk_gather_eq_none (hf : ∀ acc a, P a → S.step (f acc) a = some (f (a :: acc), []))
    (hQ : ∀ acc a, Q a → S.step (f acc) a = none) (hPQ : ∀ a ∈ as, P a ∨ Q a)
    (h : ∃ a ∈ as, Q a) : S.walk (f acc) as = none := by
  induction as generalizing acc with
  | nil =>
    obtain ⟨a, ha, -⟩ := h
    cases ha
  | cons a as ih =>
    rw [walk]
    rcases hPQ a List.mem_cons_self with ha | ha
    · by_cases hq : Q a
      · rw [hQ acc a hq]
        rfl
      · obtain ⟨b, hb, hqb⟩ := h
        have hb' : b ∈ as := (List.mem_cons.mp hb).resolve_left fun he => hq (he ▸ hqb)
        rw [hf acc a ha, Option.bind_some,
          ih (fun a ha => hPQ a (List.mem_cons_of_mem _ ha)) ⟨b, hb', hqb⟩]
        rfl
    · rw [hQ acc a ha]
      rfl

end Gather

/-! ## What is accepted -/

theorem forall_of_walk {P : α → Prop} {r : σ × List β}
    (hP : ∀ s a r, S.step s a = some r → P a) (h : S.walk s as = some r) : ∀ a ∈ as, P a := by
  induction as generalizing s r with
  | nil => simp
  | cons a as ih =>
    rw [walk] at h
    obtain ⟨q, hq, h⟩ := Option.bind_eq_some_iff.mp h
    obtain ⟨p, hp, -⟩ := Option.map_eq_some_iff.mp h
    exact List.forall_mem_cons.mpr ⟨hP s a q hq, ih hp⟩

/-- **Every item of an accepted list** is one that some state accepts. -/
theorem forall_of_scan {P : α → Prop} (hP : ∀ s a r, S.step s a = some r → P a)
    (h : S.scan as = some out) : ∀ a ∈ as, P a := by
  obtain ⟨r, hr, -⟩ := Option.bind_eq_some_iff.mp h
  exact forall_of_walk hP hr

end Scanner

end Lts

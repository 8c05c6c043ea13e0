import UpsOrchestrator.Lib.Crash
import UpsOrchestrator.OutageCalls

/-!
# The outage log and a loss of power

The calls on the outage log as programs over its two files. The state file is rewritten in place, so
for a moment it is empty; a record is appended before the entry it closes is gone.

* `LogCall.prog`: the methods of `OutageLog`; **`runs_as_calls`**: without a crash they do what the
  calls do as a whole.
* `Torn`: the points at which one of the two files has been written and the other has not.
* `NothingLost`: every outage whose start returned is in the files, and none is there twice;
  **`nothingLost`**: if the process never dies at such a point.
-/

set_option autoImplicit false

namespace UpsOrchestrator

open Lts

/-- `outage_state.json`; a file that has been truncated is not JSON. -/
inductive StateFile
  | absent
  | empty
  | entry (n : OpenEntry)
  deriving DecidableEq

/-- The two files. -/
structure LogFiles where
  state : StateFile := .absent
  history : List CompletedRecord := []
  deriving DecidableEq

/-- The operations on the two files. -/
inductive FileOp
  | stateExists
  | readState
  | truncateState
  | writeState (n : OpenEntry)
  | unlinkState
  | appendHistory (r : CompletedRecord)
  deriving DecidableEq

namespace FileOp

abbrev Ans : FileOp → Type
  | stateExists => Bool
  | readState => StateFile
  | _ => Unit

/-- What an operation does; each is atomic. -/
def exec : Prog.Exec FileOp Ans LogFiles Unit
  | stateExists, _, u => some (decide (u.state ≠ .absent), u)
  | readState, _, u => some (u.state, u)
  | truncateState, _, u => some ((), { u with state := .empty })
  | writeState n, _, u => some ((), { u with state := .entry n })
  | unlinkState, _, u => some ((), { u with state := .absent })
  | appendHistory r, _, u => some ((), { u with history := u.history ++ [r] })

end FileOp

/-- A method of `OutageLog`, as a program. -/
abbrev LogProg (α : Type) : Type := Prog FileOp FileOp.Ans α

namespace LogProg

/-- `_read_state`; what cannot be parsed counts as absent. -/
def readState : LogProg (Option OpenEntry) := do
  if ← Prog.perform FileOp.stateExists then
    match ← Prog.perform FileOp.readState with
    | .entry n => pure (some n)
    | _ => pure none
  else pure none

/-- `_write_state`: `write_text` truncates the file and writes it. -/
def writeState (n : OpenEntry) : LogProg Unit := do
  Prog.perform FileOp.truncateState
  Prog.perform (FileOp.writeState n)

/-- `_clear_state` -/
def clearState : LogProg Unit := do
  if ← Prog.perform FileOp.stateExists then Prog.perform FileOp.unlinkState
  else pure ()

/-- `_append_completed` -/
def appendCompleted (n : OpenEntry) (outcome : Outcome) (endTs : Int) : LogProg Unit :=
  Prog.perform (FileOp.appendHistory (n.completed outcome endTs))

/-- `record_start` -/
def recordStart (onbattTs : Int) : LogProg Unit := do
  match ← readState with
  | some n => appendCompleted n .unknown onbattTs
  | none => pure ()
  writeState { outageStart := onbattTs }

/-- `record_end`, without an explicit `end_ts` -/
def recordEnd (outcome : EndOutcome) (now : Int) : LogProg Unit := do
  match ← readState with
  | none => pure ()
  | some n =>
    match outcome with
    | .shutdownInitiated =>
      writeState { n with outcome := some .shutdownInitiated, shutdownTs := some now }
    | .powerRestored =>
      appendCompleted n .powerRestored now
      clearState

/-- `resolve_on_startup` -/
def resolveOnStartup (now : Int) : LogProg Unit := do
  match ← readState with
  | none => pure ()
  | some n =>
    if n.outcome = some .shutdownInitiated then
      appendCompleted n .powerRestoredAfterReboot now
      clearState
    else pure ()

end LogProg

/-- The method that a call runs. -/
def LogCall.prog : LogCall → LogProg Unit
  | recordStart onbattTs => LogProg.recordStart onbattTs
  | recordEnd outcome now => LogProg.recordEnd outcome now
  | resolveOnStartup now => LogProg.resolveOnStartup now

/-- **The log and its process**, from no files. -/
def fileSystem : System (Process LogFiles LogCall FileOp FileOp.Ans) (ProcessAct LogCall) :=
  processSystem FileOp.exec LogCall.prog LogCall.resolves {}

/-! ## What the files say -/

namespace LogFiles

/-- The open entry, as `_read_state` sees it. -/
def openEntry (u : LogFiles) : Option OpenEntry :=
  match u.state with
  | .entry n => some n
  | _ => none

/-- The log that the files hold. -/
def log (u : LogFiles) : OutageLog where
  state := u.openEntry
  history := u.history

end LogFiles

theorem solo_prog (c : LogCall) (u : LogFiles) : ∃ v,
    c.prog.solo FileOp.exec () u = some ((), v) ∧ v.log = c.run u.log := by
  obtain ⟨state, history⟩ := u
  cases c with
  | recordStart ts => cases state <;> exact ⟨_, rfl, rfl⟩
  | recordEnd outcome now => cases outcome <;> cases state <;> exact ⟨_, rfl, rfl⟩
  | resolveOnStartup now =>
    cases state with
    | absent => exact ⟨_, rfl, rfl⟩
    | empty => exact ⟨_, rfl, rfl⟩
    | entry n =>
      obtain ⟨start, outcome, ts⟩ := n
      rcases outcome with _ | outcome
      · exact ⟨_, rfl, rfl⟩
      · cases outcome <;> exact ⟨_, rfl, rfl⟩

/-- **Without a crash in a call**, the files hold the log that the calls leave. -/
theorem runs_as_calls (x : Execution fileSystem)
    (hx : ∀ t ∈ x.steps, ¬DiesTorn (fun _ _ => True) t) (hrest : x.last.running = none) :
    x.last.disk.log = hist (track (fun log _ => log) fun log c => c.run log) {} x.steps :=
  fits_at_rest (keepsFit_of_solo solo_prog) x rfl hx hrest

/-! ## What survives -/

/-- The outages whose start has begun, and those whose start has returned. -/
structure Starts where
  begun : List Int := []
  returned : List Int := []

namespace Starts

def begin (h : Starts) (c : LogCall) : Starts := { h with begun := h.begun ++ c.started.toList }

def finish (h : Starts) (c : LogCall) : Starts :=
  { h with returned := h.returned ++ c.started.toList }

end Starts

/-- No returned start is missing from the files, and none is there more often than it was begun. -/
def Keeps (h : Starts) (u : LogFiles) : Prop :=
  h.returned.Sublist u.log.starts ∧ u.log.starts.Sublist h.begun

/-- The operation changes a file. -/
def FileOp.writes : FileOp → Bool
  | stateExists => false
  | readState => false
  | _ => true

@[simp] theorem FileOp.filter_writes (o : FileOp) :
    [o].filter FileOp.writes = if o.writes then [o] else [] := List.filter_cons

@[simp] theorem FileOp.writes_truncate : truncateState.writes = true := rfl

@[simp] theorem FileOp.writes_write (n : OpenEntry) : (writeState n).writes = true := rfl

@[simp] theorem FileOp.writes_unlink : unlinkState.writes = true := rfl

@[simp] theorem FileOp.writes_append (r : CompletedRecord) : (appendHistory r).writes = true := rfl

@[simp] theorem FileOp.writes_exists : stateExists.writes = false := rfl

/-- **The files do not agree**: a record has been appended and the state file still has its entry, or
the entry that is to be marked is gone. -/
def Torn (c : LogCall) (past : List FileOp) : Prop :=
  match past.filter FileOp.writes with
  | [.appendHistory _] => True
  | [.truncateState] => c.started = none
  | _ => False

instance (c : LogCall) (past : List FileOp) : Decidable (Torn c past) := by
  unfold Torn
  split <;> infer_instance

section

variable {h : Starts} {c : LogCall} {u v : LogFiles}

theorem Keeps.begin (hu : Keeps h u) : Keeps (h.begin c) u :=
  ⟨hu.1, hu.2.trans (List.sublist_append_left _ _)⟩

theorem Keeps.of_starts (hu : Keeps h u) (hs : v.log.starts = u.log.starts) : Keeps h v := by
  rw [Keeps, hs]
  exact hu

theorem Keeps.started (ts : Int) (hu : Keeps h u)
    (hs : v.log.starts = u.log.starts ++ [ts]) :
    Keeps (h.begin (.recordStart ts)) v ∧
      Keeps ((h.begin (.recordStart ts)).finish (.recordStart ts)) v := by
  have hbegun : v.log.starts.Sublist (h.begun ++ [ts]) := by
    rw [hs]
    exact hu.2.append_right _
  refine ⟨⟨?_, hbegun⟩, ?_, hbegun⟩
  · rw [hs]
    exact hu.1.trans (List.sublist_append_left _ _)
  · rw [hs]
    exact hu.1.append_right _

theorem Starts.eq_of_not_started (hc : c.started = none) : h.begin c = h ∧ h.finish c = h := by
  simp [begin, finish, hc]

end

section

attribute [local simp] LogCall.prog LogProg.recordStart LogProg.recordEnd LogProg.resolveOnStartup
  LogProg.readState LogProg.writeState LogProg.clearState LogProg.appendCompleted Prog.perform
  Prog.Along withPast FileOp.exec Fitting Torn LogFiles.log OutageLog.starts
  OpenEntry.completed

@[local simp] theorem openEntry_entry {n : OpenEntry} {history : List CompletedRecord} :
    LogFiles.openEntry ⟨.entry n, history⟩ = some n := rfl

@[local simp] theorem openEntry_empty {history : List CompletedRecord} :
    LogFiles.openEntry ⟨.empty, history⟩ = none := rfl

@[local simp] theorem openEntry_absent {history : List CompletedRecord} :
    LogFiles.openEntry ⟨.absent, history⟩ = none := rfl

variable {h : Starts} {history : List CompletedRecord}

theorem along_readState {c : LogCall} {state : StateFile} {f : Option OpenEntry → LogProg Unit}
    (hu : Keeps h ⟨state, history⟩)
    (hf : ∀ past, past.filter FileOp.writes = [] → (f (LogFiles.openEntry ⟨state, history⟩)).Along
      (withPast FileOp.exec) () (Fitting Starts.finish Torn Keeps h c) (⟨state, history⟩, past)) :
    (LogProg.readState >>= f).Along (withPast FileOp.exec) ()
      (Fitting Starts.finish Torn Keeps h c) (⟨state, history⟩, []) := by
  cases state with
  | absent => simpa [hu] using hf [.stateExists] rfl
  | empty => simpa [hu] using hf [.stateExists, .readState] rfl
  | entry n => simpa [hu] using hf [.stateExists, .readState] rfl

/-- **`record_start`**: the open entry is in the history before it is truncated. -/
theorem along_recordStart {u : LogFiles} (ts : Int) (hu : Keeps h u) :
    (LogProg.recordStart ts).Along (withPast FileOp.exec) ()
      (Fitting Starts.finish Torn Keeps (h.begin (.recordStart ts)) (.recordStart ts)) (u, []) := by
  have hbegin : Keeps (h.begin (.recordStart ts)) u := hu.begin
  have hstarted : LogCall.started (.recordStart ts) = some ts := rfl
  refine along_readState hbegin fun past hpast => ?_
  cases he : u.openEntry with
  | none =>
    have hempty := hbegin.of_starts (v := ⟨.empty, u.history⟩) (by simp [he])
    obtain ⟨hentry, hend⟩ := hu.started ts (v := ⟨.entry { outageStart := ts }, u.history⟩)
      (by simp [he])
    simpa [hpast, hstarted] using ⟨hbegin, hempty, hentry, hend⟩
  | some n =>
    have hempty := hbegin.of_starts (v := ⟨.empty, u.history ++ [n.completed .unknown ts]⟩)
      (by simp [he])
    obtain ⟨hentry, hend⟩ := hu.started ts
      (v := ⟨.entry { outageStart := ts }, u.history ++ [n.completed .unknown ts]⟩) (by simp [he])
    simpa [hpast, hstarted] using ⟨hbegin, hempty, hentry, hend⟩

/-- **Closing the entry**: it is in the history before its file is gone. -/
theorem along_close {u : LogFiles} {c : LogCall} {n : OpenEntry} {outcome : Outcome} {now : Int}
    {past : List FileOp} (hc : c.started = none) (hu : Keeps h u) (he : u.openEntry = some n)
    (hpast : past.filter FileOp.writes = []) :
    (LogProg.appendCompleted n outcome now >>= fun _ => LogProg.clearState).Along
      (withPast FileOp.exec) () (Fitting Starts.finish Torn Keeps h c) (u, past) := by
  have hclosed := hu.of_starts (v := ⟨.absent, u.history ++ [n.completed outcome now]⟩) (by simp [he])
  have hfinish := (Starts.eq_of_not_started (h := h) hc).2
  have hexists : u.state ≠ .absent := by
    intro habs
    simp [LogFiles.openEntry, habs] at he
  simpa [hpast, hfinish, hexists] using ⟨hu, hclosed⟩

/-- **Marking the entry**: it is the same outage before and after. -/
theorem along_mark {u : LogFiles} {c : LogCall} {n m : OpenEntry} {past : List FileOp}
    (hc : c.started = none) (hu : Keeps h u) (he : u.openEntry = some n)
    (hm : m.outageStart = n.outageStart) (hpast : past.filter FileOp.writes = []) :
    (LogProg.writeState m).Along (withPast FileOp.exec) ()
      (Fitting Starts.finish Torn Keeps h c) (u, past) := by
  have hmarked := hu.of_starts (v := ⟨.entry m, u.history⟩) (by simp [he, hm])
  have hfinish := (Starts.eq_of_not_started (h := h) hc).2
  simpa [hpast, hfinish, hc] using ⟨hu, hmarked⟩

theorem along_nothing {u : LogFiles} {c : LogCall} {past : List FileOp} (hc : c.started = none)
    (hu : Keeps h u) (hpast : past.filter FileOp.writes = []) :
    (pure () : LogProg Unit).Along (withPast FileOp.exec) ()
      (Fitting Starts.finish Torn Keeps h c) (u, past) := by
  have hfinish := (Starts.eq_of_not_started (h := h) hc).2
  simpa [hpast, hfinish] using hu

theorem along_recordEnd {u : LogFiles} (outcome : EndOutcome) (now : Int) (hu : Keeps h u) :
    (LogProg.recordEnd outcome now).Along (withPast FileOp.exec) ()
      (Fitting Starts.finish Torn Keeps h (.recordEnd outcome now)) (u, []) := by
  refine along_readState hu fun past hpast => ?_
  cases he : u.openEntry with
  | none => exact along_nothing rfl hu hpast
  | some n =>
    cases outcome with
    | shutdownInitiated => exact along_mark rfl hu he rfl hpast
    | powerRestored => exact along_close rfl hu he hpast

theorem along_resolveOnStartup {u : LogFiles} (now : Int) (hu : Keeps h u) :
    (LogProg.resolveOnStartup now).Along (withPast FileOp.exec) ()
      (Fitting Starts.finish Torn Keeps h (.resolveOnStartup now)) (u, []) := by
  refine along_readState hu fun past hpast => ?_
  cases he : u.openEntry with
  | none => exact along_nothing rfl hu hpast
  | some n =>
    show Prog.Along _ _ _ (if n.outcome = some .shutdownInitiated then _ else _) _
    split_ifs
    · exact along_close rfl hu he hpast
    · exact along_nothing rfl hu hpast

end

theorem keepsFit_prog :
    KeepsFit FileOp.exec LogCall.prog Starts.begin Starts.finish Torn Keeps := by
  intro h c u hu
  cases c with
  | recordStart ts => exact along_recordStart ts hu
  | recordEnd outcome now =>
    rw [(Starts.eq_of_not_started rfl).1]
    exact along_recordEnd outcome now hu
  | resolveOnStartup now =>
    rw [(Starts.eq_of_not_started rfl).1]
    exact along_resolveOnStartup now hu

/-- The outages that have been started in the steps `tr`. -/
def startsIn (tr : List (ProcessStep LogFiles LogCall FileOp FileOp.Ans)) : Starts :=
  hist (track Starts.begin Starts.finish) {} tr

/-- **No outage is lost, and none is duplicated**: at rest, every outage whose `record_start` returned
is in the history or is the open entry, and no outage is there more often than it was started. -/
def NothingLost (x : Execution fileSystem) : Prop :=
  x.last.running = none → Keeps (startsIn x.steps) x.last.disk

/-- **Nothing is lost or duplicated** in a run in which the process does not die while the files do not
agree. -/
theorem nothingLost (x : Execution fileSystem) (hx : ∀ t ∈ x.steps, ¬DiesTorn Torn t) :
    NothingLost x := by
  intro hrest
  exact fits_at_rest keepsFit_prog x ⟨List.nil_sublist _, List.nil_sublist _⟩ hx hrest

/-- A start, and a start that is cut short before its first write. -/
theorem nothingLost_cutShort : ∃ x : Execution fileSystem, x.last.running = none ∧
    (startsIn x.steps).begun = [1, 4] ∧ (startsIn x.steps).returned = [1] ∧ NothingLost x := by
  obtain ⟨x, hrest, hbegun, hret, htorn⟩ := exists_execution_at (S := fileSystem) (u := ⟨{}, none⟩)
    (P := fun tr w => w.running = none ∧ (startsIn tr).begun = [1, 4] ∧
      (startsIn tr).returned = [1] ∧ ∀ t ∈ tr, ¬DiesTorn Torn t)
    [.begin (.recordStart 1), .op, .op, .op, .finish, .begin (.recordStart 4), .op, .op,
      .crash (.resolveOnStartup 5), .op, .op, .finish] ⟨rfl, rfl⟩ (by decide)
  exact ⟨x, hrest, hbegun, hret, nothingLost x htorn⟩

theorem loses_and_duplicates :
    (∃ x : Execution fileSystem, x.last.running = none ∧
      (startsIn x.steps).returned = [1] ∧ x.last.disk.log.starts = []) ∧
    ∃ x : Execution fileSystem, x.last.running = none ∧
      (startsIn x.steps).begun = [1] ∧ x.last.disk.log.starts = [1, 1] := by
  constructor
  · exact exists_execution_at (S := fileSystem) (u := ⟨{}, none⟩)
      (P := fun tr w => w.running = none ∧ (startsIn tr).returned = [1] ∧ w.disk.log.starts = [])
      [.begin (.recordStart 1), .op, .op, .op, .finish,
        .begin (.recordEnd .shutdownInitiated 2), .op, .op, .op,
        .crash (.resolveOnStartup 3), .op, .op, .finish] ⟨rfl, rfl⟩ (by decide)
  · exact exists_execution_at (S := fileSystem) (u := ⟨{}, none⟩)
      (P := fun tr w => w.running = none ∧ (startsIn tr).begun = [1] ∧
        w.disk.log.starts = [1, 1])
      [.begin (.recordStart 1), .op, .op, .op, .finish,
        .begin (.recordEnd .powerRestored 2), .op, .op, .op,
        .crash (.resolveOnStartup 3), .op, .op, .finish] ⟨rfl, rfl⟩ (by decide)

/-- **The files can lose an outage and duplicate one.** -/
theorem not_nothingLost : (∃ x : Execution fileSystem, x.last.running = none ∧
      ¬(startsIn x.steps).returned.Sublist x.last.disk.log.starts) ∧
    ∃ x : Execution fileSystem, x.last.running = none ∧
      ¬x.last.disk.log.starts.Sublist (startsIn x.steps).begun := by
  obtain ⟨⟨x, hrest, hret, hlog⟩, y, hrest', hbegun, hlog'⟩ := loses_and_duplicates
  refine ⟨⟨x, hrest, ?_⟩, y, hrest', ?_⟩
  · rw [hret, hlog]
    decide
  · rw [hbegun, hlog']
    decide

end UpsOrchestrator

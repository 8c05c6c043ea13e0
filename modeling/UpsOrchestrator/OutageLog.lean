import Mathlib.Data.Int.Basic

/-!
# The outage log

`outage_log.py`: a mutable file with the open outage, if any, and an append-only history. The
`_dt` and `_human` texts of a record are renderings of its other fields and are left out.
-/

set_option autoImplicit false

namespace UpsOrchestrator

inductive Outcome
  | powerRestored
  | powerRestoredAfterReboot
  | shutdownInitiated
  | unknown
  deriving DecidableEq, Repr

/-- `outage_state.json`. The outcome is only ever set to `shutdown_initiated`. -/
structure OpenEntry where
  outageStart : Int
  outcome : Option Outcome := none
  shutdownTs : Option Int := none
  deriving DecidableEq, Repr

/-- A line of `outage_history.jsonl`. -/
structure CompletedRecord where
  outageStart : Int
  outageEnd : Int
  durationSeconds : Int
  outcome : Outcome
  deriving DecidableEq, Repr

/-- The two files; the history is oldest first. -/
structure OutageLog where
  state : Option OpenEntry := none
  history : List CompletedRecord := []
  deriving DecidableEq, Repr

attribute [ext] OutageLog

namespace OutageLog

def appendCompleted (entry : OpenEntry) (outcome : Outcome) (endTs : Int) (log : OutageLog) :
    OutageLog :=
  { log with history := log.history ++ [
      { outageStart := entry.outageStart, outageEnd := endTs
        durationSeconds := endTs - entry.outageStart, outcome := outcome }] }

/-- `record_start`: an entry left open is closed as unknown first. -/
def recordStart (onbattTs : Int) (log : OutageLog) : OutageLog :=
  let log := match log.state with
    | none => log
    | some entry => log.appendCompleted entry .unknown onbattTs
  { log with state := some { outageStart := onbattTs } }

/-- `record_end` at clock reading `now`; `shutdown_initiated` only marks the open entry. A zero
`end_ts` counts as absent. -/
def recordEnd (outcome : Outcome) (now : Int) (log : OutageLog) (endTs : Option Int := none) :
    OutageLog :=
  match log.state with
  | none => log
  | some entry =>
    let ts := match endTs with
      | none => now
      | some t => if t = 0 then now else t
    if outcome = .shutdownInitiated then
      { log with state := some { entry with
          outcome := some .shutdownInitiated, shutdownTs := some ts } }
    else
      { log.appendCompleted entry outcome ts with state := none }

/-- `resolve_on_startup` at clock reading `now`. -/
def resolveOnStartup (now : Int) (log : OutageLog) : OutageLog :=
  match log.state with
  | none => log
  | some entry =>
    if entry.outcome = some .shutdownInitiated then
      { log.appendCompleted entry .powerRestoredAfterReboot now with state := none }
    else log

variable {log : OutageLog} {outcome : Outcome} {now : Int} {entry : OpenEntry}

theorem recordEnd_of_none (h : log.state = none) : log.recordEnd outcome now = log := by
  simp only [recordEnd, h]

theorem recordEnd_of_some (h : log.state = some entry) (ho : outcome ≠ .shutdownInitiated) :
    log.recordEnd outcome now = { log.appendCompleted entry outcome now with state := none } := by
  simp only [recordEnd, h, if_neg ho]

theorem recordEnd_mark (h : log.state = some entry) : log.recordEnd .shutdownInitiated now =
    { log with state := some { entry with
        outcome := some .shutdownInitiated, shutdownTs := some now } } := by
  simp only [recordEnd, h, if_true]

theorem state_recordEnd (ho : outcome ≠ .shutdownInitiated) :
    (log.recordEnd outcome now).state = none := by
  cases h : log.state with
  | none => rw [recordEnd_of_none h, h]
  | some entry => rw [recordEnd_of_some h ho]

theorem recordStart_of_none (h : log.state = none) :
    log.recordStart now = { log with state := some { outageStart := now } } := by
  simp only [recordStart, h]

@[simp] theorem state_recordStart : (log.recordStart now).state = some { outageStart := now } := rfl

end OutageLog

end UpsOrchestrator

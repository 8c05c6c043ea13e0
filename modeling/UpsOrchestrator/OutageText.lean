import UpsOrchestrator.Lib.JsonMembers
import UpsOrchestrator.OutageCalls

/-!
# The texts of the outage log

`outage_log.py` on the texts of its two files: the open outage as an indented object, and one line of
the history for every outage that is over. `to_iso` is a parameter, since it depends on the time zone.

* `LogTexts`, `LogTexts.call`: the files and the methods; a method may raise.
* `LogTexts.of`: the texts that stand for a log; **`call_of`**: a call on them raises nothing and
  leaves the texts of the log that the call leaves.
* `LogTexts.log`: what a reader of the files finds; **`log_of`**: nothing is lost in the texts.
* **`textsKeepLog`**: both, after any sequence of calls.
-/

set_option autoImplicit false

namespace UpsOrchestrator

open Json

/-! ## The files -/

/-- `outage_state.json`, if it exists, and `outage_history.jsonl`. -/
structure LogTexts where
  state : Option String := none
  history : String := ""
  deriving DecidableEq, Repr

/-- `json.dumps(state, ensure_ascii=False, indent=2)` -/
def stateStyle : Style := { indent := some 2, commaSpace := false, ascii := false }

/-- `json.dumps(entry, ensure_ascii=False, separators=(",", ":"))` -/
def lineStyle : Style := { commaSpace := false, colonSpace := false, ascii := false }

def Outcome.text : Outcome → String
  | powerRestored => "power_restored"
  | powerRestoredAfterReboot => "power_restored_after_reboot"
  | shutdownInitiated => "shutdown_initiated"
  | unknown => "unknown"

/-- The parts of `_human_duration`: hours, minutes and seconds, without those that are zero. -/
def durationParts (seconds : Int) : List (List Char) :=
  let hours := seconds / 3600
  let minutes := seconds % 3600 / 60
  let seconds := seconds % 3600 % 60
  (if hours ≠ 0 then [writeInt hours ++ ['h']] else []) ++
    ((if minutes ≠ 0 then [writeInt minutes ++ ['m']] else []) ++
      (if seconds ≠ 0 then [writeInt seconds ++ ['s']] else []))

/-- `_human_duration` -/
def humanDuration (seconds : Int) : String :=
  String.ofList (if seconds < 60 then writeInt seconds ++ ['s']
    else [' '].intercalate (durationParts seconds))

namespace LogTexts

variable (iso : Int → String)

/-- `_read_state`; the text `null` counts as absent, too. -/
def readState (u : LogTexts) : Option Json :=
  match u.state.bind loads with
  | some .null => none
  | state => state

/-- `_write_state` -/
def writeState (members : List (String × Json)) (u : LogTexts) : LogTexts :=
  { u with state := some (dumps stateStyle (.obj members)) }

/-- `_clear_state` -/
def clearState (u : LogTexts) : LogTexts := { u with state := none }

/-- `_append_completed`; it raises if the state is not an object with a start. -/
def appendCompleted (state : Json) (outcome : Outcome) (endTs : Int) (u : LogTexts) :
    Option LogTexts :=
  match state with
  | .obj members => do
    let onbattTs ← members.lookup "outage_start"
    let start ← number onbattTs
    let startDt ← members.lookup "outage_start_dt"
    let duration := endTs - start
    let entry := Json.obj
      [("outage_start", onbattTs), ("outage_start_dt", startDt), ("outage_end", .int endTs),
        ("outage_end_dt", .str (iso endTs)), ("duration_seconds", .int duration),
        ("duration_human", .str (humanDuration duration)), ("outcome", .str outcome.text)]
    some { u with history := u.history ++ (dumps lineStyle entry ++ "\n") }
  | _ => none

/-- `record_start` -/
def recordStart (onbattTs : Int) (u : LogTexts) : Option LogTexts := do
  let u ← match u.readState with
    | some state => u.appendCompleted iso state .unknown onbattTs
    | none => some u
  some (u.writeState [("outage_start", .int onbattTs), ("outage_start_dt", .str (iso onbattTs))])

/-- `record_end` at clock reading `now`. A zero `end_ts` counts as absent. -/
def recordEnd (outcome : Outcome) (now : Int) (u : LogTexts) (endTs : Option Int := none) :
    Option LogTexts :=
  match u.readState with
  | none => some u
  | some state =>
    let ts := match endTs with
      | none => now
      | some t => if t = 0 then now else t
    if outcome = .shutdownInitiated then
      match state with
      | .obj members => some (u.writeState
          (setMember "shutdown_ts" (.int ts)
            (setMember "outcome" (.str "shutdown_initiated") members)))
      | _ => none
    else (u.appendCompleted iso state outcome ts).map clearState

/-- `resolve_on_startup` at clock reading `now`. -/
def resolveOnStartup (now : Int) (u : LogTexts) : Option LogTexts :=
  match u.readState with
  | none => some u
  | some (.obj members) =>
    match members.lookup "outcome" with
    | some (.str "shutdown_initiated") =>
      (u.appendCompleted iso (.obj members) .powerRestoredAfterReboot now).map clearState
    | _ => some u
  | some _ => none

/-- A call of a context on the log; none if it raises. -/
def call (u : LogTexts) : LogCall → Option LogTexts
  | .recordStart onbattTs => u.recordStart iso onbattTs
  | .recordEnd outcome now => u.recordEnd iso outcome.toOutcome now
  | .resolveOnStartup now => u.resolveOnStartup iso now

end LogTexts

/-! ## Reading a duration -/

/-- The seconds of a unit. -/
def unitSeconds : Char → Option Int
  | 'h' => some 3600
  | 'm' => some 60
  | 's' => some 1
  | _ => none

/-- The duration that at most `n` parts stand for. -/
def readDuration : ℕ → List Char → Option Int
  | 0, _ => none
  | n + 1, text => do
    let (value, rest) ← readInt text
    match rest with
    | [] => none
    | c :: rest =>
      let unit ← unitSeconds c
      match rest with
      | [] => some (value * unit)
      | ' ' :: rest => (readDuration n rest).map (value * unit + ·)
      | _ => none

section

variable {c : Char} {unit : Int} (hc : unitSeconds c = some unit)

theorem carriesOn_unit (hc : unitSeconds c = some unit) : carriesOn c = false := by
  unfold unitSeconds at hc
  split at hc
  · decide
  · decide
  · decide
  · exact absurd hc (by simp)

include hc

theorem readDuration_last (n : ℕ) (value : Int) :
    readDuration (n + 1) (writeInt value ++ [c]) = some (value * unit) := by
  have hread := readInt_writeInt value (stops_of_head (carriesOn_unit hc) : Stops [c])
  simp [readDuration, hread, hc]

theorem readDuration_part (n : ℕ) (value : Int) (rest : List Char) :
    readDuration (n + 1) (writeInt value ++ c :: ' ' :: rest) =
      (readDuration n rest).map (value * unit + ·) := by
  have hread := readInt_writeInt value
    (stops_of_head (carriesOn_unit hc) : Stops (c :: ' ' :: rest))
  simp [readDuration, hread, hc]

end

/-- **The text of a duration says how long it is.** -/
theorem readDuration_humanDuration (seconds : Int) :
    readDuration 3 (humanDuration seconds).toList = some seconds := by
  have hh : unitSeconds 'h' = some 3600 := rfl
  have hm : unitSeconds 'm' = some 60 := rfl
  have hs : unitSeconds 's' = some 1 := rfl
  rw [humanDuration, String.toList_ofList]
  split_ifs with hlt
  · rw [readDuration_last hs, mul_one]
  · simp only [durationParts]
    split_ifs
    all_goals
      simp only [List.nil_append, List.append_nil, List.cons_append, List.intercalate_singleton,
        List.intercalate_cons_cons, List.append_assoc, readDuration_last hh, readDuration_last hm,
        readDuration_last hs, readDuration_part hh, readDuration_part hm, Option.map_some,
        Option.some.injEq]
    all_goals omega

/-! ## The texts of a log -/

variable (iso : Int → String)

/-- The members of `outage_state.json`, in the order in which they are set. -/
def stateMembers (n : OpenEntry) : List (String × Json) :=
  [("outage_start", .int n.outageStart), ("outage_start_dt", .str (iso n.outageStart))] ++
    match n.shutdownTs with
    | none => []
    | some ts => [("outcome", .str "shutdown_initiated"), ("shutdown_ts", .int ts)]

/-- The members of a line of the history. -/
def recordMembers (r : CompletedRecord) : List (String × Json) :=
  [("outage_start", .int r.outageStart), ("outage_start_dt", .str (iso r.outageStart)),
    ("outage_end", .int r.outageEnd), ("outage_end_dt", .str (iso r.outageEnd)),
    ("duration_seconds", .int r.durationSeconds),
    ("duration_human", .str (humanDuration r.durationSeconds)), ("outcome", .str r.outcome.text)]

/-- A line of the history, without its end. -/
def recordLine (r : CompletedRecord) : List Char := write lineStyle 0 (.obj (recordMembers iso r))

/-- The outcome and the time of a shutdown are set together. -/
def OpenEntry.Marked (n : OpenEntry) : Prop :=
  n.outcome = n.shutdownTs.map fun _ => .shutdownInitiated

def OutageLog.Marked (log : OutageLog) : Prop := ∀ n ∈ log.state, n.Marked

/-- **The files that stand for a log.** -/
def LogTexts.of (log : OutageLog) : LogTexts where
  state := log.state.map fun n => dumps stateStyle (.obj (stateMembers iso n))
  history := String.ofList (log.history.flatMap fun r => recordLine iso r ++ ['\n'])

theorem distinct_stateMembers (n : OpenEntry) : distinct (.obj (stateMembers iso n)) = true := by
  cases h : n.shutdownTs <;> simp [stateMembers, h, distinct, distinctMembers]

theorem distinct_recordMembers (r : CompletedRecord) :
    distinct (.obj (recordMembers iso r)) = true := by
  simp [recordMembers, distinct, distinctMembers]

namespace LogTexts

variable {iso} {log : OutageLog} {n : OpenEntry}

theorem readState_of :
    (of iso log).readState = log.state.map fun n => .obj (stateMembers iso n) := by
  unfold readState of
  cases log.state with
  | none => rfl
  | some n => simp [loads_dumps stateStyle (distinct_stateMembers iso n)]

theorem appendCompleted_of (outcome : Outcome) (endTs : Int) :
    (of iso log).appendCompleted iso (.obj (stateMembers iso n)) outcome endTs =
      some (of iso (log.appendCompleted n outcome endTs)) := by
  have h1 : (stateMembers iso n).lookup "outage_start" = some (.int n.outageStart) := rfl
  have h2 : (stateMembers iso n).lookup "outage_start_dt" = some (.str (iso n.outageStart)) := rfl
  simp only [appendCompleted, h1, h2, number, Option.bind_eq_bind, Option.bind_some,
    Option.some.injEq]
  simp only [of, OutageLog.appendCompleted, List.flatMap_append, String.ofList_append, dumps,
    recordLine, recordMembers, List.flatMap_cons, List.flatMap_nil, List.append_nil]

theorem setMember_stateMembers (ts : Int) :
    setMember "shutdown_ts" (.int ts)
        (setMember "outcome" (.str "shutdown_initiated") (stateMembers iso n)) =
      stateMembers iso { n with outcome := some .shutdownInitiated, shutdownTs := some ts } := by
  cases h : n.shutdownTs <;> simp [stateMembers, h, setMember]

theorem lookup_outcome : (stateMembers iso n).lookup "outcome" =
    n.shutdownTs.map fun _ => .str "shutdown_initiated" := by
  cases h : n.shutdownTs <;> simp only [stateMembers, h] <;> rfl

variable (iso)

/-- **A call on the texts of a log** raises nothing and leaves the texts of the log that the call
leaves. -/
theorem call_of (c : LogCall) (h : log.Marked) :
    (of iso log).call iso c = some (of iso (c.run log)) ∧ (c.run log).Marked := by
  cases c with
  | recordStart onbattTs =>
    refine ⟨?_, ?_⟩
    · simp only [call, recordStart, readState_of, LogCall.run, OutageLog.recordStart]
      cases hs : log.state with
      | none => rfl
      | some n =>
        simp only [Option.map_some, appendCompleted_of, Option.bind_eq_bind, Option.bind_some]
        rfl
    · intro n hn
      obtain rfl := Option.some.inj hn
      rfl
  | recordEnd outcome now =>
    simp only [call, recordEnd, readState_of, LogCall.run, OutageLog.recordEnd]
    cases hs : log.state with
    | none => exact ⟨rfl, h⟩
    | some n =>
      cases outcome with
      | powerRestored =>
        simp only [Option.map_some, appendCompleted_of, EndOutcome.toOutcome, reduceCtorEq, if_false]
        exact ⟨rfl, fun n' hn' => absurd hn' (by simp)⟩
      | shutdownInitiated =>
        simp only [Option.map_some, EndOutcome.toOutcome, if_true, setMember_stateMembers]
        refine ⟨rfl, fun n' hn' => ?_⟩
        obtain rfl := Option.some.inj hn'
        rfl
  | resolveOnStartup now =>
    simp only [call, resolveOnStartup, readState_of, LogCall.run, OutageLog.resolveOnStartup]
    cases hs : log.state with
    | none => exact ⟨rfl, h⟩
    | some n =>
      have hn : n.outcome = n.shutdownTs.map fun _ => .shutdownInitiated := h n hs
      simp only [Option.map_some, lookup_outcome, hn]
      cases n.shutdownTs with
      | none => exact ⟨rfl, h⟩
      | some ts =>
        simp only [Option.map_some, if_true, appendCompleted_of]
        exact ⟨rfl, fun n' hn' => absurd hn' (by simp)⟩

end LogTexts

/-! ## Reading the files -/

def Outcome.ofText (text : String) : Option Outcome :=
  if text = "power_restored" then some .powerRestored
  else if text = "power_restored_after_reboot" then some .powerRestoredAfterReboot
  else if text = "shutdown_initiated" then some .shutdownInitiated
  else if text = "unknown" then some .unknown
  else none

theorem Outcome.ofText_text (outcome : Outcome) : ofText outcome.text = some outcome := by
  cases outcome <;> decide

/-- A text among the members of an object. -/
def textAt (key : String) (members : List (String × Json)) : Option String :=
  match members.lookup key with
  | some (.str text) => some text
  | _ => none

def numberAt (key : String) (members : List (String × Json)) : Option Int :=
  (members.lookup key).bind number

/-- A line of the history, whose two durations must agree. -/
def readRecord (line : List Char) : Option CompletedRecord :=
  match loads (String.ofList line) with
  | some (.obj members) => do
    let outageStart ← numberAt "outage_start" members
    let outageEnd ← numberAt "outage_end" members
    let durationSeconds ← numberAt "duration_seconds" members
    let human ← textAt "duration_human" members
    let outcome ← (← textAt "outcome" members) |> Outcome.ofText
    if readDuration 3 human.toList = some durationSeconds then
      some { outageStart, outageEnd, durationSeconds, outcome }
    else none
  | _ => none

/-- The open outage in the state file, if there is one. -/
def readEntry (u : LogTexts) : Option (Option OpenEntry) :=
  match u.readState with
  | none => some none
  | some (.obj members) => do
    let outageStart ← numberAt "outage_start" members
    some (some { outageStart, outcome := (textAt "outcome" members).bind Outcome.ofText
                 shutdownTs := numberAt "shutdown_ts" members })
  | some _ => none

/-- The lines of a text that are not blank. -/
def textLines (text : String) : List (List Char) :=
  (text.toList.splitOn '\n').filter fun line => !line.isEmpty

/-- **What a reader of the two files finds.** -/
def LogTexts.log (u : LogTexts) : Option OutageLog := do
  let state ← readEntry u
  let history ← (textLines u.history).mapM readRecord
  some { state, history }

variable {iso}

theorem readRecord_recordLine (r : CompletedRecord) : readRecord (recordLine iso r) = some r := by
  have hread : loads (String.ofList (recordLine iso r)) = some (.obj (recordMembers iso r)) :=
    loads_dumps lineStyle (distinct_recordMembers iso r)
  have h1 : numberAt "outage_start" (recordMembers iso r) = some r.outageStart := rfl
  have h2 : numberAt "outage_end" (recordMembers iso r) = some r.outageEnd := rfl
  have h3 : numberAt "duration_seconds" (recordMembers iso r) = some r.durationSeconds := rfl
  have h4 : textAt "duration_human" (recordMembers iso r) = some (humanDuration r.durationSeconds) :=
    rfl
  have h5 : textAt "outcome" (recordMembers iso r) = some r.outcome.text := rfl
  simp only [readRecord, hread, h1, h2, h3, h4, h5, Option.bind_eq_bind, Option.bind_some,
    Outcome.ofText_text, readDuration_humanDuration, if_true]

theorem readEntry_of {log : OutageLog} (h : log.Marked) :
    readEntry (.of iso log) = some log.state := by
  rw [readEntry, LogTexts.readState_of]
  cases hs : log.state with
  | none => rfl
  | some n =>
    obtain ⟨outageStart, outcome, shutdownTs⟩ := n
    have hn : outcome = shutdownTs.map fun _ => .shutdownInitiated := h _ hs
    subst hn
    cases shutdownTs <;> rfl

theorem textLines_flatMap {lines : List (List Char)} (h : ∀ line ∈ lines, '\n' ∉ line ∧ line ≠ []) :
    textLines (String.ofList (lines.flatMap fun line => line ++ ['\n'])) = lines := by
  have hjoin : (lines.flatMap fun line => line ++ ['\n']) = ['\n'].intercalate (lines ++ [[]]) := by
    clear h
    induction lines with
    | nil => simp
    | cons line lines ih =>
      rw [List.flatMap_cons, ih, List.cons_append, List.intercalate_cons_of_ne_nil (by simp)]
  have hsplit : (['\n'].intercalate (lines ++ [[]])).splitOn '\n' = lines ++ [[]] := by
    refine List.splitOn_intercalate '\n' (fun line hline => ?_) (by simp)
    rcases List.mem_append.mp hline with hline | hline
    · exact (h line hline).1
    · rw [List.mem_singleton.mp hline]
      exact List.not_mem_nil
  have hkeep : lines.filter (fun line => !line.isEmpty) = lines :=
    List.filter_eq_self.mpr fun line hline => by simpa using (h line hline).2
  rw [textLines, String.toList_ofList, hjoin, hsplit, List.filter_append, hkeep]
  simp

theorem mapM_readRecord (history : List CompletedRecord) :
    (history.map (recordLine iso)).mapM readRecord = some history := by
  induction history with
  | nil => rfl
  | cons r history ih => simp [readRecord_recordLine, ih]

variable (iso)

/-- **Nothing is lost in the texts.** -/
theorem LogTexts.log_of {log : OutageLog} (h : log.Marked) : (of iso log).log = some log := by
  have hlines : textLines (of iso log).history = log.history.map (recordLine iso) := by
    have hmap : (log.history.flatMap fun r => recordLine iso r ++ ['\n']) =
        (log.history.map (recordLine iso)).flatMap fun line => line ++ ['\n'] := by
      rw [List.flatMap_map]
    rw [of, hmap]
    refine textLines_flatMap fun line hline => ?_
    obtain ⟨r, -, rfl⟩ := List.mem_map.mp hline
    obtain ⟨c, cs, he, -⟩ := opens_write lineStyle 0 (.obj (recordMembers iso r))
    exact ⟨lineBreak_write rfl _ 0, by rw [recordLine, he]; simp⟩
  rw [LogTexts.log, readEntry_of h, hlines, mapM_readRecord]
  rfl

/-- **The texts keep the log**: no sequence of calls from empty files raises, and whoever reads the two
files afterwards finds the log that the calls make. -/
theorem textsKeepLog (calls : List LogCall) : ∃ u, calls.foldlM (LogTexts.call iso) {} = some u ∧
    u.log = some (calls.foldl (fun log c => c.run log) {}) := by
  suffices h : ∀ log : OutageLog, log.Marked → ∃ u,
      calls.foldlM (LogTexts.call iso) (.of iso log) = some u ∧
        u.log = some (calls.foldl (fun log c => c.run log) log) from
    h {} fun n hn => absurd hn (by simp)
  induction calls with
  | nil => exact fun log h => ⟨.of iso log, rfl, LogTexts.log_of iso h⟩
  | cons c calls ih =>
    intro log h
    obtain ⟨hcall, hmarked⟩ := LogTexts.call_of iso c h
    obtain ⟨u, hu, hlog⟩ := ih (c.run log) hmarked
    refine ⟨u, ?_, hlog⟩
    rw [List.foldlM_cons, hcall]
    exact hu

end UpsOrchestrator

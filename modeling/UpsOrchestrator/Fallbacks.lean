import UpsOrchestrator.DecisionLaw

/-!
# Last resorts

The shutdown of the desktop tries three methods, that of the server two. Every outcome of a command is
given: an exit code and an output, or that it cannot be run.

* `tries`: the methods that are tried, up to the first that works.
* `FallsThrough`: `_execute_shutdown` tries them all, and succeeds if one works.
* `Server.selfShutdown`, `Server.FallsBack`: `_self_shutdown` and its fallback.
* **`neverStopsEarly_iff`**: a command that cannot be run stops the chain where it is.
-/

set_option autoImplicit false

namespace UpsOrchestrator

open Lts Prog Raising

/-- The methods that are tried in order, until one works. -/
def tries {α : Type} (works : α → Bool) : List α → List α
  | [] => []
  | a :: rest => if works a then [a] else a :: tries works rest

/-! ## The desktop -/

namespace Desktop

/-- The outcomes of the commands; nothing else is asked. -/
def answers (outcome : ShellCmd → Option (Int × String)) : (o : DesktopOp) → DesktopOp.Ans o
  | .which _ => false
  | .run cmd => outcome cmd
  | .postPreflight _ _ => none
  | .postAck _ _ _ => ()
  | .sleep _ => ()
  | .startWarning => ()

variable (outcome : ShellCmd → Option (Int × String))

/-- What `_execute_shutdown` does: its result, and what happens. -/
def shutdownRun : Option (Int × String) × List DesktopEvent :=
  executeShutdown.run.play (answers outcome)

/-- The commands that are run. -/
def commands (tr : List DesktopEvent) : List ShellCmd := tr.filterMap fun e =>
  match e.1 with
  | .run cmd => some cmd
  | _ => none

/-- The pid for `fsd`; none where the lookup fails. -/
def pidFound : Option String := (outcome .pidof).bind fun r => pidOf (strip r.2)

/-- The methods, from the first to the last. -/
def methods (pid : Option String) : List ShellCmd := [.fsd pid, .poweroff, .shutdown]

def works (cmd : ShellCmd) : Bool := won (outcome cmd)

/-- **The chain falls through**: after the lookup each method is tried until one works, and the end is
a success if one does. -/
def FallsThrough : Prop :=
  commands (shutdownRun outcome).2 =
      .pidof :: tries (works outcome) (methods (pidFound outcome)) ∧
    (won (shutdownRun outcome).1 = true ↔
      ∃ cmd ∈ methods (pidFound outcome), works outcome cmd = true)

/-- The commands that are not the last of the chain can be run. -/
def CanRun : Prop :=
  outcome .pidof ≠ none ∧ outcome (.fsd (pidFound outcome)) ≠ none ∧
    (works outcome (.fsd (pidFound outcome)) = false → outcome .poweroff ≠ none)

/-! ### Chains of commands -/

/-- A chain of commands, each for when those before it have failed. -/
def inOrder (cmd : ShellCmd) : List ShellCmd → Desktop (Int × String)
  | [] => runCmd cmd
  | next :: rest => do
    let r ← runCmd cmd
    if r.1 = 0 then pure r else inOrder next rest

/-- What is tried can be run, the last command apart. -/
def Unbroken : List ShellCmd → Prop
  | [] => True
  | cmd :: rest =>
    rest = [] ∨ outcome cmd ≠ none ∧ (works outcome cmd = false → Unbroken rest)

theorem play_runCmd (cmd : ShellCmd) : (runCmd cmd).run.play (answers outcome) =
    ((outcome cmd).map fun p => (p.1, strip p.2), [⟨.run cmd, outcome cmd⟩]) := by
  have hproc : Prog.play (answers outcome) (perform (DesktopOp.run cmd)) =
      (outcome cmd, [⟨.run cmd, outcome cmd⟩]) := rfl
  cases h : outcome cmd with
  | none =>
    rw [h] at hproc
    exact play_seq_none hproc
  | some p =>
    rw [h] at hproc
    exact play_seq_some hproc

variable {outcome}

theorem play_runCmd_none {cmd : ShellCmd} (h : outcome cmd = none) :
    (runCmd cmd).run.play (answers outcome) = (none, [⟨.run cmd, none⟩]) := by
  rw [play_runCmd, h]
  rfl

theorem play_runCmd_some {cmd : ShellCmd} {p : Int × String} (h : outcome cmd = some p) :
    (runCmd cmd).run.play (answers outcome) = (some (p.1, strip p.2), [⟨.run cmd, some p⟩]) := by
  rw [play_runCmd, h]
  rfl

theorem works_of_none {cmd : ShellCmd} (h : outcome cmd = none) : works outcome cmd = false := by
  rw [works, h]
  rfl

theorem works_of_some {cmd : ShellCmd} {p : Int × String} (h : outcome cmd = some p) :
    works outcome cmd = decide (p.1 = 0) := by
  rw [works, h]
  rfl

@[simp] theorem commands_nil : commands [] = [] := rfl

@[simp] theorem commands_cons {cmd : ShellCmd} {x : Option (Int × String)}
    {tr : List DesktopEvent} : commands (⟨.run cmd, x⟩ :: tr) = cmd :: commands tr := rfl

theorem play_inOrder_failed {cmd next : ShellCmd} {rest : List ShellCmd} {p : Int × String}
    (h : outcome cmd = some p) (hp : p.1 ≠ 0) :
    (inOrder cmd (next :: rest)).run.play (answers outcome) =
      (((inOrder next rest).run.play (answers outcome)).1,
        ⟨.run cmd, some p⟩ :: ((inOrder next rest).run.play (answers outcome)).2) := by
  refine (play_seq_some (play_runCmd_some h)).trans ?_
  rw [if_neg hp]
  rfl

theorem play_inOrder_worked {cmd next : ShellCmd} {rest : List ShellCmd} {p : Int × String}
    (h : outcome cmd = some p) (hp : p.1 = 0) :
    (inOrder cmd (next :: rest)).run.play (answers outcome) =
      (some (p.1, strip p.2), [⟨.run cmd, some p⟩]) := by
  refine (play_seq_some (play_runCmd_some h)).trans ?_
  rw [if_pos hp]
  rfl

theorem tries_ne_nil {α : Type} {ok : α → Bool} {a : α} {rest : List α} :
    tries ok (a :: rest) ≠ [] := by
  rw [tries]
  split_ifs <;> simp

variable (outcome) in
/-- **A chain** runs to the first command that works exactly when it is unbroken. -/
theorem fallsThrough_inOrder (cmd : ShellCmd) (rest : List ShellCmd) :
    (commands ((inOrder cmd rest).run.play (answers outcome)).2 =
        tries (works outcome) (cmd :: rest) ∧
      (won ((inOrder cmd rest).run.play (answers outcome)).1 = true ↔
        ∃ c ∈ cmd :: rest, works outcome c = true)) ↔ Unbroken outcome (cmd :: rest) := by
  induction rest generalizing cmd with
  | nil =>
    have hwon : won ((outcome cmd).map fun p => (p.1, strip p.2)) = works outcome cmd := by
      rcases h : outcome cmd with _ | p <;> simp [works, won, h]
    simp [inOrder, play_runCmd, tries, hwon, Unbroken]
  | cons next rest ih =>
    rcases h : outcome cmd with _ | p
    · have hplay : (inOrder cmd (next :: rest)).run.play (answers outcome) =
          (none, [⟨.run cmd, none⟩]) := play_seq_none (play_runCmd_none h)
      refine iff_of_false ?_ (by simp [Unbroken, h])
      rintro ⟨htried, -⟩
      rw [hplay, tries, works_of_none h] at htried
      exact absurd htried (by simp [tries_ne_nil.symm])
    · have hworks := works_of_some h
      by_cases hp : p.1 = 0
      · rw [play_inOrder_worked h hp, tries, hworks]
        simp [hp, won, Unbroken, h, hworks]
      · rw [play_inOrder_failed h hp, tries, hworks]
        simpa [hp, Unbroken, h, hworks] using ih next

theorem executeShutdown_eq : executeShutdown =
    runCmd .pidof >>= fun r => inOrder (.fsd (pidOf r.2)) [.poweroff, .shutdown] := rfl

/-- **`_execute_shutdown` falls through exactly when** neither the lookup nor a method before the last
raises. -/
theorem fallsThrough_iff : FallsThrough outcome ↔ CanRun outcome := by
  unfold FallsThrough CanRun shutdownRun
  rw [executeShutdown_eq]
  rcases h : outcome .pidof with _ | r
  · refine iff_of_false ?_ fun hrun => hrun.1 rfl
    rintro ⟨hrun, -⟩
    rw [play_seq_none (play_runCmd_none h)] at hrun
    exact absurd hrun (by simp [methods, tries_ne_nil.symm])
  · have hpid : pidFound outcome = pidOf (strip r.2) := by simp [pidFound, h]
    rw [play_seq_some (play_runCmd_some h), hpid]
    simpa [methods, Unbroken] using
      fallsThrough_inOrder outcome (.fsd (pidOf (strip r.2))) [.poweroff, .shutdown]

end Desktop

/-! ## The server -/

/-- `str.split`: the words of a text, after the word `word` that has begun. -/
def splitWords (word : List Char) : List Char → List String
  | [] => if word = [] then [] else [String.ofList word]
  | c :: rest =>
    if isSpace c then (if word = [] then [] else [String.ofList word]) ++ splitWords [] rest
    else splitWords (word ++ [c]) rest

/-- The commands of `_self_shutdown`. -/
inductive ServerCmd
  /-- `upsmon -c fsd`, after `sudo -n` where the server is not root -/
  | upsmonFsd (viaSudo : Bool)
  | fallback (argv : List String)
  deriving DecidableEq

namespace Server

inductive Op
  | run (cmd : ServerCmd)
  deriving DecidableEq

/-- A command has an exit code and an output, unless it cannot be run. -/
abbrev Op.Ans : Op → Type
  | run _ => Option (Int × String)

def run (cmd : ServerCmd) : Raising Op Op.Ans (Int × String) := OptionT.mk (perform (Op.run cmd))

variable (root : Bool) (fallbackCmd : String) (outcome : ServerCmd → Option (Int × String))

/-- `_self_shutdown` -/
def selfShutdown : Raising Op Op.Ans Unit := do
  let (returncode, _) ← run (.upsmonFsd !root)
  if returncode ≠ 0 then
    if fallbackCmd ≠ "" then
      let _ ← run (.fallback (splitWords [] fallbackCmd.toList))
      pure ()
    else pure ()
  else pure ()

/-- The commands that `_self_shutdown` runs. -/
def commands : List ServerCmd :=
  ((selfShutdown root fallbackCmd).run.play fun | .run cmd => outcome cmd).2.map fun
    | ⟨.run cmd, _⟩ => cmd

/-- **The fallback**, when set, is run whenever `upsmon -c fsd` did not succeed. -/
def FallsBack : Prop :=
  fallbackCmd ≠ "" → Desktop.won (outcome (.upsmonFsd !root)) = false →
    .fallback (splitWords [] fallbackCmd.toList) ∈ commands root fallbackCmd outcome

variable {root fallbackCmd outcome}

theorem commands_raised (h : outcome (.upsmonFsd !root) = none) :
    commands root fallbackCmd outcome = [.upsmonFsd !root] := by
  have hrun : (run (.upsmonFsd !root)).run.play (fun | .run cmd => outcome cmd) =
      (none, [⟨.run (.upsmonFsd !root), none⟩]) := by
    rw [← h]
    rfl
  rw [commands, selfShutdown, play_seq_none hrun]
  rfl

theorem fallback_mem_commands {p : Int × String} (h : outcome (.upsmonFsd !root) = some p)
    (hp : p.1 ≠ 0) (hset : fallbackCmd ≠ "") :
    .fallback (splitWords [] fallbackCmd.toList) ∈ commands root fallbackCmd outcome := by
  have hrun : (run (.upsmonFsd !root)).run.play (fun | .run cmd => outcome cmd) =
      (some p, [⟨.run (.upsmonFsd !root), some p⟩]) := by
    rw [← h]
    rfl
  rw [commands, selfShutdown, play_seq_some hrun]
  simp only [hp, hset, ne_eq, not_false_eq_true, if_true, run_seq, play_bind, List.map_append]
  exact List.mem_append_right _ (List.mem_append_left _ (List.mem_singleton_self _))

/-- **The fallback is run exactly when** `upsmon` does not raise. -/
theorem fallsBack_iff : FallsBack root fallbackCmd outcome ↔
    (fallbackCmd ≠ "" → outcome (.upsmonFsd !root) ≠ none) := by
  constructor
  · intro h hset hnone
    have hmem := h hset (by rw [hnone]; rfl)
    rw [commands_raised hnone] at hmem
    exact absurd hmem (by simp)
  · intro h hset hfailed
    obtain ⟨p, hp⟩ := Option.ne_none_iff_exists'.mp (h hset)
    refine fallback_mem_commands hp ?_ hset
    intro hzero
    simp [hp, Desktop.won, hzero] at hfailed

end Server

/-- **When the shutdowns of the desktop and of the server never stop early.** -/
theorem neverStopsEarly_iff (outcome : ShellCmd → Option (Int × String)) (root : Bool)
    (fallbackCmd : String) (serverOutcome : ServerCmd → Option (Int × String)) :
    (Desktop.FallsThrough outcome ∧ Server.FallsBack root fallbackCmd serverOutcome) ↔
      Desktop.CanRun outcome ∧ (fallbackCmd ≠ "" → serverOutcome (.upsmonFsd !root) ≠ none) :=
  and_congr Desktop.fallsThrough_iff Server.fallsBack_iff

/-- **Without `pidof`** the desktop is not shut down although every method works, and without `upsmon`
the server does not come to its fallback. -/
theorem stopsEarly :
    ¬Desktop.FallsThrough (fun cmd => if cmd = .pidof then none else some (0, "")) ∧
      ¬Server.FallsBack true "poweroff"
        (fun cmd => if cmd = .upsmonFsd false then none else some (0, "")) := by
  constructor
  · intro h
    have hwon := h.2.mpr ⟨.poweroff, by simp [Desktop.methods], by decide⟩
    exact absurd hwon (by decide)
  · intro h
    exact absurd (h (by decide) (by decide)) (by decide)

end UpsOrchestrator

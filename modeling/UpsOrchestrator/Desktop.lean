import UpsOrchestrator.Agent
import UpsOrchestrator.Lib.Traces
import Mathlib.Data.List.Infix

/-!
# The desktop agent, command by command

`agent.py` and `ui.py` with the commands that they run. A command that cannot be run raises; what is
raised in the handler of `ups_state` ends in a fail-safe shutdown.

* `ShellCmd`, `DesktopOp`: the commands, and the operations of the agent.
* `promptSoftSuspend`, `executeShutdown`, `doSuspend`, `doShutdown`: the functions of the agent.
* `doPost`: the thread that handles a pushed message.
-/

set_option autoImplicit false

namespace UpsOrchestrator

open Lts

/-! ## Text -/

/-- `str.isspace` -/
def isSpace (c : Char) : Bool :=
  (9 ≤ c.toNat && c.toNat ≤ 13) || (28 ≤ c.toNat && c.toNat ≤ 32) ||
    (8192 ≤ c.toNat && c.toNat ≤ 8202) ||
    [133, 160, 5760, 8232, 8233, 8239, 8287, 12288].contains c.toNat

/-- `str.strip` -/
def strip (s : String) : String :=
  String.ofList ((s.toList.dropWhile isSpace).reverse.dropWhile isSpace).reverse

/-- `text in s` -/
def includes (text s : String) : Bool := text.toList <:+: s.toList

/-- `s.split()[0]`, of a text with a word in it. -/
def firstWord (s : String) : String :=
  String.ofList ((s.toList.dropWhile isSpace).takeWhile fun c => !isSpace c)

/-! ## Operations -/

inductive UiTool
  | zenity
  | kdialog
  | notifySend
  deriving DecidableEq, Repr

/-- The commands. -/
inductive ShellCmd
  /-- `zenity --list` -/
  | zenityList
  /-- `kdialog --menu` -/
  | kdialogMenu
  /-- `zenity --warning` -/
  | zenityWarning
  /-- `kdialog --sorry` -/
  | kdialogSorry
  | notifySend
  /-- `pidof upsmon` -/
  | pidof
  /-- `sudo -n upsmon -c fsd`, with `-P pid` -/
  | fsd (pid : Option String)
  /-- `systemctl poweroff` -/
  | poweroff
  /-- `sudo -n /sbin/shutdown -h now` -/
  | shutdown
  /-- `systemctl suspend`, with `-i` and after `sudo -n` -/
  | suspend (force viaSudo : Bool)
  deriving DecidableEq, Repr

inductive DesktopOp
  /-- `shutil.which` -/
  | which (tool : UiTool)
  /-- `subprocess.run` -/
  | run (cmd : ShellCmd)
  /-- the request of `preflight` -/
  | postPreflight (commandId commandName : String)
  /-- the request of `ack` -/
  | postAck (commandId : String) (status : Ctx.AckStatus) (result : List (String × String))
  /-- `time.sleep` -/
  | sleep (seconds : Int)
  /-- the thread of `show_critical_warning` starts -/
  | startWarning
  deriving DecidableEq

/-- The answers: a command has an exit code and an output unless it cannot be run, a preflight says
`allow` or not unless the request fails. -/
abbrev DesktopOp.Ans : DesktopOp → Type
  | which _ => Bool
  | run _ => Option (Int × String)
  | postPreflight _ _ => Option Bool
  | _ => Unit

/-- A function of the agent, which can raise. -/
abbrev Desktop (α : Type) : Type := Raising DesktopOp DesktopOp.Ans α

/-- Something that happens on the desktop. -/
abbrev DesktopEvent : Type := Event DesktopOp DesktopOp.Ans

structure SuspendConfig where
  suspendMaxRetries : Int := 3
  suspendRetryDelay : Int := 5
  forceSuspend : Bool := false

/-- A pushed message. -/
structure Message where
  command : String
  id : String
  event : Option String := none
  delaySeconds : Int := 0

namespace Desktop

def which (tool : UiTool) : Desktop Bool := OptionT.lift (Prog.perform (DesktopOp.which tool))

/-- `run_cmd` -/
def runCmd (cmd : ShellCmd) : Desktop (Int × String) := do
  let proc ← OptionT.mk (Prog.perform (DesktopOp.run cmd))
  pure (proc.1, strip proc.2)

/-- `time.sleep`, which raises if the time is negative. -/
def sleep (seconds : Int) : Desktop Unit :=
  if seconds < 0 then failure else OptionT.lift (Prog.perform (DesktopOp.sleep seconds))

/-- `preflight` -/
def preflight (commandId commandName : String) : Desktop PreflightStatus := do
  match ← OptionT.lift (Prog.perform (DesktopOp.postPreflight commandId commandName)) with
  | none => pure .error
  | some allow => pure (if allow then .allowed else .rejected)

/-- `ack`, which never raises. -/
def ack (commandId : String) (status : Ctx.AckStatus) (result : List (String × String)) :
    Desktop Unit :=
  OptionT.lift (Prog.perform (DesktopOp.postAck commandId status result))

/-! ## Dialogs -/

/-- `notify` -/
def notify : Desktop Unit := do
  if ← which .notifySend then
    let _ ← runCmd .notifySend
    pure ()
  else pure ()

/-- What the answer of `kdialog` means. -/
def kdialogChoice (out : String) : Choice :=
  if strip out = "sleep" then .sleep
  else if strip out = "cancel" then .cancel
  else .shutdown

/-- `prompt_soft_suspend` -/
def promptSoftSuspend : Desktop Choice := do
  if ← which .zenity then
    let (code, out) ← runCmd .zenityList
    if code = 0 then
      pure (if includes "Shutdown" out then .shutdown
        else if includes "Sleep" out then .sleep
        else .cancel)
    -- the dialog was dismissed
    else if code = 1 then pure .cancel
    -- it has timed out with 5, or failed
    else pure .shutdown
  else if ← which .kdialog then
    let (code, out) ← runCmd .kdialogMenu
    if code = 0 then pure (kdialogChoice out) else pure .shutdown
  else do
    notify
    pure .shutdown

/-- `show_critical_warning` -/
def showCriticalWarning : Desktop Unit := do
  if ← which .zenity then
    let _ ← runCmd .zenityWarning
    pure ()
  else if ← which .kdialog then
    let _ ← runCmd .kdialogSorry
    pure ()
  else notify

/-! ## Power -/

/-- The pid that `pidof` prints. -/
def pidOf (out : String) : Option String := if strip out = "" then none else some (firstWord out)

/-- **`_execute_shutdown`**: `fsd`, then `poweroff`, then `shutdown`. -/
def executeShutdown : Desktop (Int × String) := do
  let (_, pidOut) ← runCmd .pidof
  let (code, out) ← runCmd (.fsd (pidOf pidOut))
  if code = 0 then pure (code, out)
  else
    let (code, out) ← runCmd .poweroff
    if code = 0 then pure (code, out)
    else runCmd .shutdown

/-- The preflight of `do_shutdown`, which a fail-safe shutdown does without. -/
def shutdownPreflight (commandId : String) (failSafe : Bool) (commandName : String) :
    Desktop PreflightStatus :=
  if failSafe then pure .allowed else preflight commandId commandName

/-- `do_shutdown` -/
def doShutdown (commandId : String) (failSafe : Bool) (commandName : String) : Desktop Unit := do
  let status ← shutdownPreflight commandId failSafe commandName
  if status = .rejected then ack commandId .failed [("reason", "preflight_rejected")]
  else
    let (code, out) ← executeShutdown
    if failSafe then pure ()
    else if code = 0 then ack commandId .done [("action", "shutdown")]
    else ack commandId .failed [("action", "shutdown"), ("output", out)]

/-- One attempt to suspend, again with `sudo` where it is not permitted. -/
def suspendOnce (force : Bool) : Desktop (Int × String) := do
  let (code, out) ← runCmd (.suspend force false)
  if code ≠ 0 ∧ (includes "Access denied" out ∨ includes "Interactive authentication required" out)
  then runCmd (.suspend force true)
  else pure (code, out)

variable (cfg : SuspendConfig)

/-- The loop of `do_suspend`, with the attempts that are left: whether one succeeded. The last one is
forced if the configuration says so. -/
def attempts : ℕ → Desktop Bool
  | 0 => pure false
  | n + 1 => do
    let (code, _) ← suspendOnce (decide (n = 0) && cfg.forceSuspend)
    if code = 0 then pure true
    else if 0 < n then do
      sleep cfg.suspendRetryDelay
      attempts n
    else attempts n

/-- `do_suspend` -/
def doSuspend (commandId : String) : Desktop Unit := do
  match ← preflight commandId "ups_state" with
  | .rejected => ack commandId .failed [("reason", "preflight_rejected")]
  | .error => doShutdown commandId true "critical_shutdown"
  | .allowed =>
    if ← attempts cfg cfg.suspendMaxRetries.toNat then
      ack commandId .done [("action", "suspended")]
    else doShutdown commandId true "critical_shutdown"

/-! ## Threads -/

/-- A thread waits before it handles the command. -/
def delay (seconds : Int) : Desktop Unit := if 0 < seconds then sleep seconds else pure ()

/-- What follows the prompt for `ups_state`. -/
def choose (commandId : String) : Choice → Desktop Unit
  | .sleep => doSuspend cfg commandId
  | .shutdown => doShutdown commandId false "ups_state"
  | .cancel => ack commandId .cancelled [("reason", "user_cancelled")]

/-- The thread for `ups_state`. -/
def handleUpsState (commandId : String) (delaySeconds : Int) : Desktop Unit := do
  delay delaySeconds
  try
    let choice ← promptSoftSuspend
    choose cfg commandId choice
  catch _ : Unit => doShutdown commandId true "critical_shutdown"

/-- The thread for `critical_shutdown`. -/
def handleCriticalShutdown (commandId : String) (delaySeconds : Int) : Desktop Unit := do
  delay delaySeconds
  OptionT.lift (Prog.perform DesktopOp.startWarning)
  doShutdown commandId false "critical_shutdown"

/-- **`do_POST`**: the thread that handles a pushed message; none for an unknown one. -/
def doPost (m : Message) : Option (Desktop Unit) :=
  if m.command = "ups_state" ∧ m.event = some "ONBATT" then
    some (handleUpsState cfg m.id m.delaySeconds)
  else if m.command = "critical_shutdown" then some (handleCriticalShutdown m.id m.delaySeconds)
  else none

end Desktop

end UpsOrchestrator

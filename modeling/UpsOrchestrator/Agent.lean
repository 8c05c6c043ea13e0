import UpsOrchestrator.Context
import UpsOrchestrator.Lib.Prog

/-!
# The desktop agent

`agent.py`: what the agent does with a command that is pushed to it, as a program whose operations
are the prompt, the requests to the server and the commands that it runs on the desktop.

* `Agent.doPost`: `do_POST` with `do_suspend`, `do_shutdown`, `preflight` and `ack`.
* **`strange_doPost`**: it asks the server about the pushed command and about no other.
-/

set_option autoImplicit false

namespace UpsOrchestrator

open Lts

/-- What the user chooses; a timeout counts as `shutdown`. -/
inductive Choice
  | sleep
  | shutdown
  | cancel
  deriving DecidableEq, Repr

/-- A request to the command routes of the server. -/
inductive Request
  | preflight (id command : String)
  | ack (id : String) (status : Ctx.AckStatus)
  deriving DecidableEq, Repr

/-- What the server answers. -/
inductive Response
  | preflight (reply : Ctx.PreflightReply)
  | ack (ok : Bool)
  deriving DecidableEq, Repr

/-- `data.get("allow", False)` -/
def Response.allow : Response → Bool
  | .preflight reply => reply = .allow
  | .ack _ => false

/-- The operations of the agent. -/
inductive AgentOp
  | promptSoftSuspend
  /-- a request is sent -/
  | post (request : Request)
  /-- the agent waits for the response to the `n`-th request, up to the timeout -/
  | response (n : ℕ)
  | systemctlSuspend
  | executeShutdown

/-- What an operation answers: a request is known by its number; no response is an error, no exit
code an exception. -/
abbrev AgentOp.Ans : AgentOp → Type
  | .promptSoftSuspend => Option Choice
  | .post _ => ℕ
  | .response _ => Option Response
  | .systemctlSuspend => Option Bool
  | .executeShutdown => Option Bool

/-- A function of the agent, as a program. -/
abbrev Agent (α : Type) : Type := Prog AgentOp AgentOp.Ans α

inductive PreflightStatus
  | allowed
  | rejected
  | error
  deriving DecidableEq, Repr

namespace Agent

abbrev promptSoftSuspend : Agent (Option Choice) := Prog.perform AgentOp.promptSoftSuspend
abbrev post (request : Request) : Agent ℕ := Prog.perform (AgentOp.post request)
abbrev response (n : ℕ) : Agent (Option Response) := Prog.perform (AgentOp.response n)
abbrev systemctlSuspend : Agent (Option Bool) := Prog.perform AgentOp.systemctlSuspend
abbrev executeShutdown : Agent (Option Bool) := Prog.perform AgentOp.executeShutdown

/-- `preflight` -/
def preflight (commandId commandName : String) : Agent PreflightStatus := do
  let n ← post (.preflight commandId commandName)
  match ← response n with
  | none => pure .error
  | some data => pure (if data.allow then .allowed else .rejected)

/-- `ack` -/
def ack (commandId : String) (status : Ctx.AckStatus) : Agent Unit := do
  let n ← post (.ack commandId status)
  let _ ← response n

/-- The preflight of `do_shutdown`, which a fail-safe shutdown does without. -/
def shutdownPreflight (commandId : String) (failSafe : Bool) (commandName : String) :
    Agent PreflightStatus :=
  if failSafe then pure .allowed else preflight commandId commandName

/-- `do_shutdown`; `false` when a command cannot be run at all. -/
def doShutdown (commandId : String) (failSafe : Bool) (commandName : String) : Agent Bool := do
  let status ← shutdownPreflight commandId failSafe commandName
  if status = .rejected then
    ack commandId .failed
    pure true
  else
    match ← executeShutdown with
    | none => pure false
    | some ok =>
      if failSafe then pure true
      else
        ack commandId (if ok then .done else .failed)
        pure true

/-- The loop of `do_suspend`: whether an attempt succeeded, unless a command cannot be run. -/
def attempts : ℕ → Agent (Option Bool)
  | 0 => pure (some false)
  | n + 1 => do
    match ← systemctlSuspend with
    | none => pure none
    | some true => pure (some true)
    | some false => attempts n

variable (suspendMaxRetries : ℕ)

/-- `do_suspend` -/
def doSuspend (commandId : String) : Agent Bool := do
  match ← preflight commandId "ups_state" with
  | .rejected =>
    ack commandId .failed
    pure true
  | .error => doShutdown commandId true "critical_shutdown"
  | .allowed =>
    match ← attempts suspendMaxRetries with
    | none => pure false
    | some true =>
      ack commandId .done
      pure true
    | some false => doShutdown commandId true "critical_shutdown"

/-- What follows the prompt for `ups_state`. -/
def choose (commandId : String) : Option Choice → Agent Bool
  | none => pure false
  | some .sleep => doSuspend suspendMaxRetries commandId
  | some .shutdown => doShutdown commandId false "ups_state"
  | some .cancel => do
    ack commandId .cancelled
    pure true

/-- The handler thread for `ups_state`; whatever goes wrong ends in a shutdown. -/
def handleUpsState (commandId : String) : Agent Unit := do
  let choice ← promptSoftSuspend
  let ok ← choose suspendMaxRetries commandId choice
  if ok then pure ()
  else
    let _ ← doShutdown commandId true "critical_shutdown"

/-- The handler thread for `critical_shutdown`. -/
def handleCriticalShutdown (commandId : String) : Agent Unit := do
  let _ ← doShutdown commandId false "critical_shutdown"

/-- `do_POST`: the thread that handles a pushed command; none for an unknown one. -/
def doPost (cmd : Command) : Option (Agent Unit) :=
  if cmd.command = "ups_state" ∧ cmd.event = some "ONBATT" then
    some (handleUpsState suspendMaxRetries cmd.id)
  else if cmd.command = "critical_shutdown" then some (handleCriticalShutdown cmd.id)
  else none

end Agent

/-! ## What the agent asks -/

/-- A request about another command than `cmd`. -/
def AgentOp.strange (cmd : Command) : AgentOp → Bool
  | .post (.preflight id command) => ¬(id = cmd.id ∧ command = cmd.command)
  | .post (.ack id _) => id ≠ cmd.id
  | _ => false

namespace Agent

variable {cmd : Command} {suspendMaxRetries : ℕ}

theorem strange_ack (status : Ctx.AckStatus) : (ack cmd.id status).Avoids (AgentOp.strange cmd) :=
  ⟨by simp [AgentOp.strange], fun _ => ⟨rfl, fun _ => trivial⟩⟩

theorem strange_preflight : (preflight cmd.id cmd.command).Avoids (AgentOp.strange cmd) := by
  refine ⟨by simp [AgentOp.strange], fun _ => ⟨rfl, fun answer => ?_⟩⟩
  cases answer <;> trivial

theorem strange_doShutdown {failSafe : Bool} {name : String}
    (h : failSafe = false → name = cmd.command) :
    (doShutdown cmd.id failSafe name).Avoids (AgentOp.strange cmd) := by
  have hstatus : (shutdownPreflight cmd.id failSafe name).Avoids (AgentOp.strange cmd) := by
    unfold shutdownPreflight
    split_ifs with hf
    · trivial
    · rw [h (by simpa using hf)]
      exact strange_preflight
  refine hstatus.bind fun status => ?_
  by_cases hs : status = .rejected
  · rw [if_pos hs]
    exact (strange_ack _).bind fun _ => trivial
  · rw [if_neg hs]
    refine ⟨rfl, fun code => ?_⟩
    cases code with
    | none => trivial
    | some ok =>
      cases failSafe with
      | true => trivial
      | false => exact (strange_ack _).bind fun _ => trivial

theorem strange_attempts (n : ℕ) : (attempts n).Avoids (AgentOp.strange cmd) := by
  induction n with
  | zero => trivial
  | succ n ih =>
    refine ⟨rfl, fun code => ?_⟩
    match code with
    | none => trivial
    | some true => trivial
    | some false => exact ih

theorem strange_doSuspend (h : cmd.command = "ups_state") :
    (doSuspend suspendMaxRetries cmd.id).Avoids (AgentOp.strange cmd) := by
  rw [doSuspend, ← h]
  refine strange_preflight.bind fun status => ?_
  cases status with
  | rejected => exact (strange_ack _).bind fun _ => trivial
  | error => exact strange_doShutdown (by simp)
  | allowed =>
    refine (strange_attempts _).bind fun code => ?_
    match code with
    | none => trivial
    | some true => exact (strange_ack _).bind fun _ => trivial
    | some false => exact strange_doShutdown (by simp)

theorem strange_handleUpsState (h : cmd.command = "ups_state") :
    (handleUpsState suspendMaxRetries cmd.id).Avoids (AgentOp.strange cmd) := by
  refine ⟨rfl, fun choice => ?_⟩
  have hchoose : (choose suspendMaxRetries cmd.id choice).Avoids (AgentOp.strange cmd) := by
    match choice with
    | none => trivial
    | some .sleep => exact strange_doSuspend h
    | some .shutdown =>
      show (doShutdown cmd.id false "ups_state").Avoids (AgentOp.strange cmd)
      exact strange_doShutdown fun _ => h.symm
    | some .cancel => exact (strange_ack _).bind fun _ => trivial
  refine hchoose.bind fun ok => ?_
  split_ifs
  · trivial
  · exact (strange_doShutdown (by simp)).bind fun _ => trivial

/-- **The handler of a pushed command asks about no other command.** -/
theorem strange_doPost {p : Agent Unit} (h : doPost suspendMaxRetries cmd = some p) :
    p.Avoids (AgentOp.strange cmd) := by
  unfold doPost at h
  split_ifs at h with h1 h2
  · rw [← Option.some.inj h]
    exact strange_handleUpsState h1.1
  · rw [← Option.some.inj h]
    exact (strange_doShutdown fun _ => h2.symm).bind fun _ => trivial

end Agent

end UpsOrchestrator

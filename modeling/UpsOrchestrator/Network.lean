import UpsOrchestrator.Agent
import UpsOrchestrator.Commands

/-!
# The desktop agents of a site

The server together with the agents that it pushes commands to. A push that is under way is a
handler thread of the agent that has not taken a step, so it may be late and may be lost; a request
arrives at the server at any time after it was sent, or never.

* `AgentConfig`, `AgentThread`, `Sent`: an agent, its threads and their requests.
* `Network.step`: a step of the server, of an agent's thread, or the arrival of a request;
  `network`: the transition system, and `Network.toSite`: it refines the site.
* **`networkStep`**: what a step can do.
-/

set_option autoImplicit false

namespace UpsOrchestrator

open Lts

variable {s : Site}

/-- `UPS_DEVICE_ID` and `SUSPEND_MAX_RETRIES` of the agent behind a context's `agent_url`. -/
structure AgentConfig (s : Site) where
  upsDeviceId : s.Ix
  suspendMaxRetries : ℕ := 3

/-- A command that a context has pushed. -/
structure Push (s : Site) where
  origin : s.Ix
  cmd : Command

/-- The thread of an agent that handles a push, with the rest of its program. -/
structure AgentThread (s : Site) where
  push : Push s
  prog : Agent Unit

/-- A request of an agent's thread to the routes of the context `ups`, with the response once it has
arrived there. -/
structure Sent (s : Site) where
  thread : ℕ
  ups : s.Ix
  request : Request
  response : Option Response := none
  deriving DecidableEq

/-- The server, the handler threads of all pushes so far and all requests so far. -/
structure Network (s : Site) where
  world : World s
  threads : List (AgentThread s) := []
  requests : List (Sent s) := []

/-- The pushes so far, in order. -/
def Network.pushes (w : Network s) : List (Push s) := w.threads.map (·.push)

/-- What an agent's thread gets from outside: the user's choice, whether it hears the response, and
the exit code. -/
structure AgentEnv where
  choice : Option Choice := none
  heard : Bool := true
  code : Option Bool := some true

/-- **What an operation of the `n`-th thread does** to the requests. Without a response the thread
waits until it times out. -/
def AgentOp.exec (n : ℕ) (ups : s.Ix) : Prog.Exec AgentOp AgentOp.Ans (List (Sent s)) AgentEnv
  | .promptSoftSuspend, e, sent => some (e.choice, sent)
  | .post request, _, sent => some (sent.length, sent ++ [⟨n, ups, request, none⟩])
  | .response m, e, sent =>
    if e.heard then (sent[m]?.bind (·.response)).map fun r => (some r, sent) else some (none, sent)
  | .systemctlSuspend, e, sent => some (e.code, sent)
  | .executeShutdown, e, sent => some (e.code, sent)

variable (agents : s.Ix → AgentConfig s)

/-- The context that the agent of a context asks. -/
abbrev askedBy (i : s.Ix) : s.Ix := (agents i).upsDeviceId

/-- The thread that an effect of context `i` starts, if there is a desktop. -/
def handlerOf (i : s.Ix) : Effect → Option (AgentThread s)
  | .pushCommand cmd =>
    if (s.dev i).desktop.isSome then
      (Agent.doPost (agents i).suspendMaxRetries cmd).map fun p => ⟨⟨i, cmd⟩, p⟩
    else none
  | _ => none

/-- The threads that a step of the server starts. -/
def World.handlers (w : World s) : List (AgentThread s) :=
  (List.finRange s.devices.length).flatMap fun i => (w.ctx i).out.filterMap (handlerOf agents i)

inductive NetAction (s : Site)
  | server (a : Action s)
  /-- a step of the `n`-th thread -/
  | agent (n : ℕ) (e : AgentEnv)
  /-- the `m`-th request arrives, for `preflight` -/
  | preflight (m : ℕ)
  /-- the `m`-th request arrives, for `ack` -/
  | ack (m : ℕ) (i : s.Ix) (e : Env) (id : String) (status : Ctx.AckStatus)

/-- **One step of the server and the agents.** -/
def Network.step (w : Network s) : NetAction s → Option (Network s)
  | .server a => (w.world.step a).map fun v =>
    { w with world := v, threads := w.threads ++ v.handlers agents }
  | .agent n e =>
    match w.threads[n]? with
    | some ⟨push, .op o k⟩ => (o.exec n (askedBy agents push.origin) e w.requests).map fun r =>
      { w with requests := r.2, threads := w.threads.set n ⟨push, k r.1⟩ }
    | _ => none
  | .preflight m =>
    match w.requests[m]? with
    | some ⟨n, i, .preflight id command, none⟩ => some
      { w with requests := w.requests.set m ⟨n, i, .preflight id command,
          some (.preflight ((w.world.ctx i).preflight id command))⟩ }
    | _ => none
  | .ack m i e id status =>
    match w.requests[m]? with
    | some q =>
      if q.ups = i ∧ q.request = .ack id status ∧ q.response = none then
        (w.world.step (.call i e (.ack id status))).map fun v =>
          { w with
            world := v
            requests := w.requests.set m
              { q with response := some (.ack ((w.world.ctx i).command.any (·.id = id))) } }
      else none
    | none => none

/-- **The site with the agents of its desktops.** -/
def network : System (Network s) (NetAction s) where
  init w := (system s).init w.world ∧ w.threads = [] ∧ w.requests = []
  step := Network.step agents

/-- The step of the site that an action makes. -/
def NetAction.base : NetAction s → Option (Action s)
  | .server a => some a
  | .ack _ i e id status => some (.call i e (.ack id status))
  | _ => none

/-- A step of the network, with the states before and after. -/
abbrev NetStep (s : Site) : Type := Transition (Network s) (NetAction s)

variable {agents} {t : NetStep s}

/-- **What a step can do.** -/
inductive NetworkStep (agents : s.Ix → AgentConfig s) (t : NetStep s) : Prop
  | server (a : Action s) (act : t.act = .server a)
      (step : t.pre.world.step a = some t.post.world)
      (threads : t.post.threads = t.pre.threads ++ t.post.world.handlers agents)
      (requests : t.post.requests = t.pre.requests)
  | agent (n : ℕ) (e : AgentEnv) (push : Push s) (o : AgentOp) (k : o.Ans → Agent Unit) (ans : o.Ans)
      (act : t.act = .agent n e) (thread : t.pre.threads[n]? = some ⟨push, .op o k⟩)
      (exec : o.exec n (askedBy agents push.origin) e t.pre.requests = some (ans, t.post.requests))
      (world : t.post.world = t.pre.world)
      (threads : t.post.threads = t.pre.threads.set n ⟨push, k ans⟩)
  | preflight (m : ℕ) (q : Sent s) (id command : String) (act : t.act = .preflight m)
      (request : t.pre.requests[m]? = some q) (asks : q.request = .preflight id command)
      (world : t.post.world = t.pre.world) (threads : t.post.threads = t.pre.threads)
      (requests : t.post.requests = t.pre.requests.set m
        { q with response := some (.preflight ((t.pre.world.ctx q.ups).preflight id command)) })
  | ack (m : ℕ) (q : Sent s) (i : s.Ix) (e : Env) (id : String) (status : Ctx.AckStatus)
      (response : Response) (act : t.act = .ack m i e id status)
      (request : t.pre.requests[m]? = some q)
      (step : t.pre.world.step (.call i e (.ack id status)) = some t.post.world)
      (threads : t.post.threads = t.pre.threads)
      (requests : t.post.requests = t.pre.requests.set m { q with response := some response })

theorem networkStep (ht : (network agents).Takes t) : NetworkStep agents t := by
  obtain ⟨w, a, w'⟩ := t
  change w.step agents a = some w' at ht
  cases a with
  | server a =>
    obtain ⟨v, hv, rfl⟩ := Option.map_eq_some_iff.mp ht
    exact .server a rfl hv rfl rfl
  | agent n e =>
    simp only [Network.step] at ht
    split at ht
    next push o k hth =>
      obtain ⟨⟨ans, sent⟩, hr, rfl⟩ := Option.map_eq_some_iff.mp ht
      exact .agent n e push o k ans rfl hth hr rfl rfl
    · exact absurd ht (by simp)
  | preflight m =>
    simp only [Network.step] at ht
    split at ht
    next n i id command hq =>
      obtain rfl := Option.some.inj ht
      exact .preflight m _ id command rfl hq rfl rfl rfl rfl
    · exact absurd ht (by simp)
  | ack m i e id status =>
    simp only [Network.step] at ht
    split at ht
    next q hq =>
      simp only [Option.ite_none_right_eq_some, Option.map_eq_some_iff] at ht
      obtain ⟨-, v, hv, rfl⟩ := ht
      exact .ack m q i e id status _ rfl hq hv rfl rfl
    · exact absurd ht (by simp)

variable (agents) in
/-- The agents are invisible to the site, but for their acknowledgements. -/
def Network.toSite : Refinement (network agents) (system s) where
  abs := Network.world
  act := NetAction.base
  init _ h := h.1
  step t ht := by
    cases networkStep ht with
    | server a act step =>
      rw [act]
      exact step
    | agent _ _ _ _ _ _ act _ _ world =>
      rw [act]
      exact world
    | preflight _ _ _ _ act _ _ world =>
      rw [act]
      exact world
    | ack _ _ _ _ _ _ _ act _ step =>
      rw [act]
      exact step

end UpsOrchestrator

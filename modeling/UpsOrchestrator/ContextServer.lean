import UpsOrchestrator.Deadlock

/-!
# The server of a context

The threads of one context come and go: requests and polls are handled, timers fire, launched workers
start, and each thread performs one operation at a time, in any order.

* `Turn`, `contextServer`: what can happen next; `ServerStep`, **`serverStep`**: a step, by its turn.
* `WorkerOp.written`, `saved`, `launched`; **`WorkerOp.exec_spec`**: what an operation leaves of the
  record, the command and the launched threads.
* **`run_call`**: a request that is left alone is handled as by itself.
-/

set_option autoImplicit false

namespace UpsOrchestrator

open Lts

/-! ## Operations -/

namespace WorkerOp

/-- The record that the operation writes. -/
def written : WorkerOp → Option OrchState
  | .handler (.saveOrchestratorState orch) => some orch
  | _ => none

/-- The command that the operation saves. -/
def saved : WorkerOp → Option Command
  | .handler (.saveCommand cmd) => some cmd
  | _ => none

/-- The worker that the operation launches. -/
def launched : WorkerOp → Option Pc
  | .handler (.startThread pc) => some pc
  | _ => none

/-- The record, the command and the launched threads after the operation `o`. -/
structure Leaves (o : WorkerOp) (u v : Shared) : Prop where
  orch : v.ctx.orch = o.written.getD u.ctx.orch
  command : v.ctx.command = o.saved.orElse fun _ => u.ctx.command
  threads : v.ctx.threads.map (·.pc) = u.ctx.threads.map (·.pc) ++ o.launched.toList

theorem Leaves.of_eq {o : WorkerOp} {u v : Shared} (hw : o.written = none) (hs : o.saved = none)
    (hl : o.launched = none) (horch : v.ctx.orch = u.ctx.orch)
    (hcommand : v.ctx.command = u.ctx.command) (hthreads : v.ctx.threads = u.ctx.threads) :
    o.Leaves u v := by
  refine ⟨?_, ?_, ?_⟩
  · rw [hw, horch]
    rfl
  · rw [hs, hcommand]
    rfl
  · rw [hl, hthreads, Option.toList_none, List.append_nil]

/-- **What an operation leaves.** -/
theorem exec_spec {o : WorkerOp} {e : Env × Peers} {u v : Shared} {a : o.Ans}
    (h : exec o e u = some (a, v)) : o.Leaves u v := by
  cases o with
  | handler o =>
    cases o with
    | saveOrchestratorState orch =>
      obtain ⟨-, rfl⟩ := Prod.ext_iff.mp (Option.some.inj h)
      exact ⟨rfl, rfl, (List.append_nil _).symm⟩
    | saveCommand cmd =>
      obtain ⟨-, rfl⟩ := Prod.ext_iff.mp (Option.some.inj h)
      exact ⟨rfl, rfl, (List.append_nil _).symm⟩
    | startThread pc =>
      obtain ⟨-, rfl⟩ := Prod.ext_iff.mp (Option.some.inj h)
      exact ⟨rfl, rfl, List.map_append⟩
    | acquire lock =>
      cases lock with
      | action =>
        simp only [exec, Op.exec] at h
        split_ifs at h
        obtain ⟨-, rfl⟩ := Prod.ext_iff.mp (Option.some.inj h)
        exact .of_eq rfl rfl rfl rfl rfl rfl
      | start =>
        simp only [exec, Op.exec] at h
        split_ifs at h
        obtain ⟨-, rfl⟩ := Prod.ext_iff.mp (Option.some.inj h)
        exact .of_eq rfl rfl rfl rfl rfl rfl
    | release lock =>
      cases lock <;>
      · obtain ⟨-, rfl⟩ := Prod.ext_iff.mp (Option.some.inj h)
        exact .of_eq rfl rfl rfl rfl rfl rfl
    | _ =>
      obtain ⟨-, rfl⟩ := Prod.ext_iff.mp (Option.some.inj h)
      exact .of_eq rfl rfl rfl rfl rfl rfl
  | _ =>
    obtain ⟨-, rfl⟩ := Prod.ext_iff.mp (Option.some.inj h)
    exact .of_eq rfl rfl rfl rfl rfl rfl

variable {e : Env × Peers} {u v : Shared}

theorem eq_of_getOrchestratorState {orch : OrchState}
    (h : exec (.handler .getOrchestratorState) e u = some (orch, v)) : orch = u.ctx.orch :=
  (Prod.ext_iff.mp (Option.some.inj h)).1.symm

theorem eq_of_getCommand {cmd : Option Command}
    (h : exec (.handler .getCommand) e u = some (cmd, v)) : cmd = u.ctx.command :=
  (Prod.ext_iff.mp (Option.some.inj h)).1.symm

end WorkerOp

/-! ## Turns -/

/-- The routine is a worker thread. -/
def Routine.isWorker : Routine → Bool
  | .worker _ _ => true
  | _ => false

/-- A context, its locks and its threads. -/
abbrev Crew (ι : Type) : Type := Pool WorkerOp WorkerOp.Ans Shared ι

/-- What happens next. -/
inductive Turn (ι : Type)
  /-- thread `i`, which has nothing to do, begins with a request, a poll or a timer -/
  | call (i : ι) (r : Routine)
  /-- thread `i` begins with a worker that has been launched, over a number of passes -/
  | start (i : ι) (th : Thread) (passes : ℕ)
  /-- thread `i` performs its next operation -/
  | op (i : ι) (e : Env × Peers)
  /-- the server is started anew -/
  | restart (e : Env)

/-- The launched worker has started. -/
def Shared.started (th : Thread) (u : Shared) : Shared :=
  { u with ctx := { u.ctx with threads := u.ctx.threads.erase th } }

namespace Crew

variable {ι : Type}

/-- Nobody has anything to do, and both locks are free. -/
def atRest (c : Ctx) : Crew ι := ⟨⟨c, false, false⟩, fun _ => .ret ()⟩

variable [DecidableEq ι]

/-- Thread `i` goes on with the program `p`, over the shared state `u`. -/
def put (w : Crew ι) (i : ι) (p : Worker Unit) (u : Shared) : Crew ι :=
  ⟨u, Function.update w.threads i p⟩

section Put

variable {w : Crew ι} {i j : ι} {p : Worker Unit} {u : Shared}

@[simp] theorem shared_put : (w.put i p u).shared = u := rfl

@[simp] theorem threads_put_self : (w.put i p u).threads i = p := Function.update_self ..

@[simp] theorem threads_put_of_ne (h : j ≠ i) : (w.put i p u).threads j = w.threads j :=
  Function.update_of_ne h ..

end Put

/-- Thread `i` takes up the program `p` if it has none. -/
def takeUp (i : ι) (p : Worker Unit) (w : Crew ι) (u : Shared) : Option (Crew ι) :=
  match w.threads i with
  | .ret _ => some (w.put i p u)
  | .op _ _ => none

/-- **One step of the server of a context.** A restart ends all threads. -/
def turn (d : UPSDeviceConfig) (w : Crew ι) : Turn ι → Option (Crew ι)
  | .call i r => if r.isWorker then none else w.takeUp i (r.program d) w.shared
  | .start i th passes =>
    if th ∈ w.shared.ctx.threads then
      w.takeUp i (Worker.run d passes th.pc) (w.shared.started th)
    else none
  | .op i e => w.step WorkerOp.exec (i, e)
  | .restart e => some (Crew.atRest (w.shared.ctx.reboot.resetStateOnStartup e))

theorem takeUp_eq_some {i : ι} {p : Worker Unit} {w w' : Crew ι} {u : Shared}
    (h : w.takeUp i p u = some w') :
    w.threads i = .ret () ∧ w' = w.put i p u := by
  unfold takeUp at h
  split at h
  next a ha => exact ⟨ha, (Option.some.inj h).symm⟩
  · cases h

end Crew

variable {ι : Type} [DecidableEq ι] {d : UPSDeviceConfig}

variable (ι d) in
/-- **The server of a context**, from any files. -/
def contextServer : System (Crew ι) (Turn ι) where
  init w := ∃ (e : Env) (disk : Ctx), w =
    Crew.atRest (({ disk.quiet.reboot with spawned := 0 }).resetStateOnStartup e)
  step := Crew.turn d

/-- A step of the server of a context, with the crews before and after. -/
abbrev Crew.Step (ι : Type) : Type := Transition (Crew ι) (Turn ι)

/-- **A step of the server, by its turn.** -/
inductive ServerStep (d : UPSDeviceConfig) (t : Crew.Step ι) : Prop
  | call (i : ι) (r : Routine) (act : t.act = .call i r) (handler : r.isWorker = false)
    (idle : t.pre.threads i = .ret ())
    (post : t.post = t.pre.put i (r.program d) t.pre.shared)
  | start (i : ι) (th : Thread) (passes : ℕ) (act : t.act = .start i th passes)
    (mem : th ∈ t.pre.shared.ctx.threads) (idle : t.pre.threads i = .ret ())
    (post : t.post = t.pre.put i (Worker.run d passes th.pc) (t.pre.shared.started th))
  | op (i : ι) (e : Env × Peers) (o : WorkerOp) (k : o.Ans → Worker Unit) (a : o.Ans) (v : Shared)
    (act : t.act = .op i e) (next : t.pre.threads i = .op o k)
    (exec : o.exec e t.pre.shared = some (a, v))
    (post : t.post = t.pre.put i (k a) v)
  | restart (e : Env) (act : t.act = .restart e)
    (post : t.post = Crew.atRest (t.pre.shared.ctx.reboot.resetStateOnStartup e))

theorem serverStep {t : Crew.Step ι} (h : (contextServer ι d).Takes t) : ServerStep d t := by
  obtain ⟨w, a, w'⟩ := t
  have h : w.turn d a = some w' := h
  cases a with
  | call i r =>
    simp only [Crew.turn, Option.ite_none_left_eq_some] at h
    obtain ⟨idle, post⟩ := Crew.takeUp_eq_some h.2
    exact .call i r rfl (by simpa using h.1) idle post
  | start i th passes =>
    simp only [Crew.turn, Option.ite_none_right_eq_some] at h
    obtain ⟨idle, post⟩ := Crew.takeUp_eq_some h.2
    exact .start i th passes rfl h.1 idle post
  | op i e =>
    obtain ⟨o, k, a, v, next, exec, post⟩ := Pool.of_step h
    exact .op i e o k a v rfl next exec post
  | restart e => exact .restart e rfl (Option.some.inj h).symm

/-! ## Threads that are left alone -/

theorem run_of_pool (d : UPSDeviceConfig) {w₀ w w' : Crew ι}
    {tr : List (Transition (Crew ι) (ι × (Env × Peers)))} (h : Run (pool WorkerOp.exec w₀) w tr w') :
    Run (contextServer ι d) w (tr.map fun t => ⟨t.pre, .op t.act.1 t.act.2, t.post⟩) w' := by
  induction h with
  | nil => exact .nil _
  | @snoc v w tr a _ ha ih =>
    rw [List.map_append]
    have hop : (contextServer ι d).Takes ⟨v, .op a.1 a.2, w⟩ := ha
    exact ih.append (Run.single hop)

/-- **A request that is left alone** is handled as by itself. -/
theorem run_call {r : Routine} (hr : r.isWorker = false) {e : Env × Peers} {u v : Shared} {a : Unit}
    {threads : ι → Worker Unit} {i : ι} (hi : threads i = .ret ())
    (h : (r.program d).solo WorkerOp.exec e u = some (a, v)) :
    ∃ tr, Run (contextServer ι d) ⟨u, threads⟩ tr ⟨v, threads⟩ := by
  have hself : Function.update threads i (r.program d) i = r.program d := Function.update_self ..
  obtain ⟨tr, hrun⟩ : ∃ tr, Run (pool WorkerOp.exec ⟨u, threads⟩)
      ⟨u, Function.update threads i (r.program d)⟩ tr
      ⟨v, Function.update (Function.update threads i (r.program d)) i (.ret a)⟩ :=
    run_of_solo hself h
  have hcall : (contextServer ι d).Takes
      ⟨⟨u, threads⟩, .call i r, ⟨u, Function.update threads i (r.program d)⟩⟩ := by
    show Crew.turn d (⟨u, threads⟩ : Crew ι) (.call i r) = _
    rw [Crew.turn, hr, if_neg Bool.false_ne_true, Crew.takeUp]
    simp only [hi]
    rfl
  have hback : Function.update threads i (.ret a) = threads := by
    rw [Function.update_eq_self_iff]
    exact hi.symm
  rw [Function.update_idem, hback] at hrun
  exact ⟨_, (Run.single hcall).append (run_of_pool d hrun)⟩

end UpsOrchestrator

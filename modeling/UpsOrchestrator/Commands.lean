import UpsOrchestrator.Record

/-!
# The stored command

One command is on file in a context. It is replaced by a newer one, cancelled by a reset or a
restart, and acknowledged by the desktop.

* `Ctx.Filed`: what a call does to the command, and what it says about it outside the context.
* `Call.newCommands`: the commands that a call makes; `StoresCommand`: a step stores one of them.
* `SavesPending`, `ClosesCommand`: a step saves a pending command, or cancels or acknowledges the one
  on file; **`commandStep`**: what is pending after a step was so before, or has just been made.
-/

set_option autoImplicit false

namespace UpsOrchestrator

open Lts

/-- The effect saves or pushes a command. -/
def Effect.aboutCommand : Effect → Bool
  | .saveCommand _ => true
  | .pushCommand _ => true
  | _ => false

/-- A pending command is saved. -/
def Effect.storesCommand : Effect → Bool
  | .saveCommand cmd => cmd.status = .pending
  | _ => false

/-- A command is saved that is no longer pending. -/
def Effect.closesCommand : Effect → Bool
  | .saveCommand cmd => cmd.status ≠ .pending
  | _ => false

/-- The two routes that write the command. -/
def Call.writesCommand : Call → Bool
  | .createCommand _ _ _ => true
  | .ack _ _ => true
  | _ => false

/-- **The commands that a call makes**, with the clock of its step. -/
def Call.newCommands (e : Env) : Call → List Command
  | .createCommand command ev expires =>
    (({} : Ctx).createCommand e command ev expires).command.toList
  | .worker _ => [Ctx.makeCriticalShutdownCommand e]
  | .ack _ _ => []
  | _ => [Ctx.makeUpsStateCommand e]

namespace Ctx

variable {d : UPSDeviceConfig} {p : Peers} {e : Env} {b c c' : Ctx} {k : Call}
  {news : List Command}

/-- What has been said about the command since the effects were last forgotten. -/
def said (c : Ctx) : List Effect := c.out.filter (·.aboutCommand)

theorem said_congr (h : c'.out = c.out) : c'.said = c.said := by rw [said, said, h]

/-- **What a call does to the command** if it is not one of the two routes that write it, and makes
the commands `news`. -/
inductive Filed (news : List Command) (c c' : Ctx) : Prop
  | keep (command : c'.command = c.command) (said : c'.said = c.said)
  | store (cmd : Command) (new : cmd ∈ news) (pending : cmd.status = .pending)
      (command : c'.command = some cmd)
      (said : c'.said = c.said ++ [.saveCommand cmd, .pushCommand cmd])
  | cancel (cmd : Command) (closed : cmd.status ≠ .pending) (command : c'.command = some cmd)
      (said : c'.said = c.said ++ [.saveCommand cmd])

theorem Filed.of_eq (hc : c'.command = c.command) (ho : c'.out = c.out) : Filed news c c' :=
  .keep hc (said_congr ho)

theorem Filed.refl : Filed news c c := .of_eq rfl rfl

theorem Filed.of_append {eff : Effect} (hc : c'.command = c.command) (ho : c'.out = c.out ++ [eff])
    (heff : eff.aboutCommand = false) : Filed news c c' := by
  refine .keep hc ?_
  rw [said, ho, List.filter_append, List.filter_singleton, heff]
  exact List.append_nil _

theorem Filed.congr {b' : Ctx} (h : Filed news b b') (hc : b.command = c.command) (hs : b.said = c.said)
    (hc' : c'.command = b'.command) (hs' : c'.said = b'.said) : Filed news c c' := by
  cases h with
  | keep command said => exact .keep (by rw [hc', command, hc]) (by rw [hs', said, hs])
  | store cmd new pending command said =>
    exact .store cmd new pending (by rw [hc', command]) (by rw [hs', said, hs])
  | cancel cmd closed command said =>
    exact .cancel cmd closed (by rw [hc', command]) (by rw [hs', said, hs])

theorem Filed.after (h : Filed news b c') (hc : b.command = c.command) (ho : b.out = c.out) :
    Filed news c c' :=
  h.congr hc (said_congr ho) rfl rfl

theorem filed_saveAndPush {cmd : Command} (hn : cmd ∈ news) (h : cmd.status = .pending) :
    Filed news c (c.saveAndPush cmd) := by
  refine .store cmd hn h rfl ?_
  simp [said, saveAndPush, saveCommand, emit, Effect.aboutCommand]

theorem filed_saveCommand {cmd : Command} (h : cmd.status ≠ .pending) :
    Filed news c (c.saveCommand cmd) := by
  refine .cancel cmd h rfl ?_
  simp [said, saveCommand, Effect.aboutCommand]

theorem filed_startBatteryMonitoring (hn : makeUpsStateCommand e ∈ news) :
    Filed news c (c.startBatteryMonitoring d e) := by
  obtain ⟨log, st, h⟩ := startBatteryMonitoring_eq (c := c) (d := d) (e := e)
  rw [h, notifyDesktop]
  split_ifs
  · exact (filed_saveAndPush hn rfl).after rfl rfl
  · exact .of_eq rfl rfl

theorem executePhaseAction_command (r : Reason) :
    (c.executePhaseAction d e r).command = c.command ∧
      (c.executePhaseAction d e r).said = c.said := by
  by_cases h : c.mode = .monitoring
  · rw [executePhaseAction_eq r h]
    refine ⟨rfl, ?_⟩
    simp [said, Effect.aboutCommand]
  · rw [executePhaseAction_of_ne r h]
    exact ⟨rfl, rfl⟩

theorem filed_executePhaseAction (r : Reason) : Filed news c (c.executePhaseAction d e r) :=
  let ⟨h1, h2⟩ := executePhaseAction_command r
  .keep h1 h2

theorem filed_resetToIdle (r : String) : Filed news c (c.resetToIdle e r) := by
  unfold resetToIdle cancelPending
  split
  · exact .of_eq rfl rfl
  · split_ifs
    · exact (filed_saveCommand (by simp)).after rfl rfl
    · exact .of_eq rfl rfl

/-- **Every call of a handler other than the two command routes.** -/
theorem filed_handler (hk : ∀ id, k ≠ .worker id) (hr : k.writesCommand = false)
    (h : k.exec d p e c = some c') : Filed (k.newCommands e) c c' := by
  have hnew : makeUpsStateCommand e ∈ k.newCommands e := by
    cases k with
    | worker id => exact absurd rfl (hk id)
    | createCommand => exact absurd hr (by simp [Call.writesCommand])
    | ack => exact absurd hr (by simp [Call.writesCommand])
    | _ => exact List.mem_singleton_self _
  apply Filed.after (b := c.noteReport e k) _ command_noteReport out_noteReport
  cases performs_handler hk h with
  | nothing => exact .refl
  | fetch =>
    rw [fetchStateFromDesktop_fst]
    exact .of_eq rfl rfl
  | start => exact filed_startBatteryMonitoring hnew
  | strike r => exact filed_executePhaseAction r
  | expire => exact (filed_executePhaseAction _).after rfl rfl
  | startStrike r =>
    obtain ⟨h1, h2⟩ := executePhaseAction_command (d := d) (e := e)
      (c := (c.noteReport e k).startBatteryMonitoring d e) r
    exact (filed_startBatteryMonitoring hnew).congr rfl rfl h1 h2
  | reset reason => exact filed_resetToIdle reason
  | ignore => exact .of_eq rfl rfl
  | confirm => exact .of_eq rfl rfl
  | suspend => exact .of_eq rfl rfl
  | createCommand _ _ _ call => exact absurd hr (by simp [call, Call.writesCommand])
  | ack _ _ call => exact absurd hr (by simp [call, Call.writesCommand])

theorem filed_resetStateOnStartup : Filed news c (c.resetStateOnStartup e) := by
  simp only [resetStateOnStartup, cancelShutdownOnStartup]
  split
  · exact .of_eq rfl rfl
  · split_ifs
    · exact (filed_saveCommand (by simp)).after rfl rfl
    · exact .of_eq rfl rfl

theorem SegmentOutcome.filed {pc : Pc} {pc' : Option Pc} (h : SegmentOutcome d p e c pc c' pc') :
    Filed [makeCriticalShutdownCommand e] c c' := by
  cases h with
  | wait _ _ _ command out =>
    rcases out with out | ⟨out, -⟩
    · exact .of_eq command out
    · exact .of_append command out rfl
  | abort _ _ _ command out => exact .of_eq command out
  | push _ _ _ _ command out =>
    refine .store _ (List.mem_singleton_self _) rfl command ?_
    simp [said, out, Effect.aboutCommand]
  | shutdown _ _ _ _ _ command out => exact .of_append command out rfl
  | powerOff _ _ _ _ command out => exact .of_append command out rfl
  | handled _ _ _ _ _ command out => exact .of_eq command out

theorem preflight_eq_allow {id command : String} : c.preflight id command = .allow ↔
    ∃ cmd, c.command = some cmd ∧ cmd.status = .pending ∧ cmd.id = id ∧ cmd.command = command := by
  unfold preflight
  split
  next h => simp [h]
  next cmd hc =>
    rw [hc]
    split_ifs with h1 h2 h3
    · simp [h1]
    · simp [h2]
    · simp [h3]
    · simp [not_not.mp h1, not_not.mp h2, not_not.mp h3]

/-! ## Effects -/

theorem any_said {f : Effect → Bool} (hf : ∀ eff, f eff = true → eff.aboutCommand = true) :
    c.out.any f = c.said.any f := by
  rw [said, List.any_filter]
  congr 1
  funext eff
  cases h : f eff with
  | false => simp
  | true => simp [hf eff h]

theorem any_storesCommand : c.out.any (·.storesCommand) = c.said.any (·.storesCommand) :=
  any_said fun eff h => by cases eff <;> first | rfl | exact absurd h (by simp [Effect.storesCommand])

theorem any_closesCommand : c.out.any (·.closesCommand) = c.said.any (·.closesCommand) :=
  any_said fun eff h => by cases eff <;> first | rfl | exact absurd h (by simp [Effect.closesCommand])

theorem mem_said {cmd : Command} : Effect.pushCommand cmd ∈ c.out ↔ Effect.pushCommand cmd ∈ c.said := by
  simp [said, Effect.aboutCommand]

end Ctx

/-! ## Steps -/

variable {s : Site} {t : Step s} {i : s.Ix}

/-- The `command` route of context `i`. -/
def Action.createsCommand (i : s.Ix) : Action s → Bool
  | .call j _ (.createCommand _ _ _) => j = i
  | _ => false

/-- The `ack` route of context `i`, for the command that is on file. -/
def Action.acknowledges (i : s.Ix) (stored : Option Command) : Action s → Bool
  | .call j _ (.ack id _) => j = i ∧ stored.any (·.id = id)
  | _ => false

/-- The commands that the action makes in context `i`. -/
def Action.newCommands (i : s.Ix) : Action s → List Command
  | .call j e k => if j = i then k.newCommands e else []
  | .restart _ => []

@[simp] theorem Action.newCommands_call {e : Env} {k : Call} :
    (Action.call i e k : Action s).newCommands i = k.newCommands e := if_pos rfl

/-- **The step stores a new command** in context `i`: one that it has just made. -/
def StoresCommand (i : s.Ix) (t : Step s) : Prop :=
  ∃ cmd ∈ t.act.newCommands i, (t.post.ctx i).command = some cmd ∧
    (Effect.saveCommand cmd ∈ (t.post.ctx i).out ∨ t.act.createsCommand i = true)

/-- The step saves a pending command in context `i`. -/
def SavesPending (i : s.Ix) (t : Step s) : Prop :=
  (t.post.ctx i).out.any (·.storesCommand) = true ∨ t.act.createsCommand i = true

/-- The step cancels or acknowledges the command on file in context `i`. -/
def ClosesCommand (i : s.Ix) (t : Step s) : Prop :=
  (t.post.ctx i).out.any (·.closesCommand) = true ∨
    t.act.acknowledges i (t.pre.ctx i).command = true

instance : Decidable (StoresCommand i t) := inferInstanceAs (Decidable (∃ cmd ∈ _, _ ∧ (_ ∨ _)))

instance : Decidable (SavesPending i t) := inferInstanceAs (Decidable (_ ∨ _))

instance : Decidable (ClosesCommand i t) := inferInstanceAs (Decidable (_ ∨ _))

/-- What a step does to the command on file in context `i`. -/
inductive CommandStep (i : s.Ix) (t : Step s) : Prop
  | keep (command : (t.post.ctx i).command = (t.pre.ctx i).command) (saves : ¬SavesPending i t)
      (closes : ¬ClosesCommand i t) (pushes : ∀ x, .pushCommand x ∉ (t.post.ctx i).out)
  | store (cmd : Command) (pending : cmd.status = .pending)
      (command : (t.post.ctx i).command = some cmd) (saves : SavesPending i t)
      (stores : StoresCommand i t) (pushes : ∀ x, .pushCommand x ∈ (t.post.ctx i).out → x = cmd)
  | close (cmd : Command) (closed : cmd.status ≠ .pending)
      (command : (t.post.ctx i).command = some cmd) (saves : ¬SavesPending i t)
      (pushes : ∀ x, .pushCommand x ∉ (t.post.ctx i).out)

theorem CommandStep.of_filed (news : List Command)
    (h : Ctx.Filed news (t.pre.ctx i).quiet (t.post.ctx i))
    (hn : ∀ cmd ∈ news, cmd ∈ t.act.newCommands i) (hc : t.act.createsCommand i = false)
    (ha : t.act.acknowledges i (t.pre.ctx i).command = false) : CommandStep i t := by
  have hquiet : (t.pre.ctx i).quiet.said = [] := rfl
  cases h with
  | keep command said =>
    rw [hquiet] at said
    refine .keep command ?_ ?_ fun x => ?_
    · rw [SavesPending, Ctx.any_storesCommand, said, hc]
      simp
    · rw [ClosesCommand, Ctx.any_closesCommand, said, ha]
      simp
    · simp [Ctx.mem_said, said]
  | store cmd new pending command said =>
    rw [hquiet, List.nil_append] at said
    have hsave : Effect.saveCommand cmd ∈ (t.post.ctx i).said := by simp [said]
    refine .store cmd pending command (.inl ?_) ⟨cmd, hn cmd new, command, .inl ?_⟩ fun x hx => ?_
    · rw [Ctx.any_storesCommand, said]
      simp [Effect.storesCommand, pending]
    · exact List.mem_of_mem_filter hsave
    · simpa [Ctx.mem_said, said] using hx
  | cancel cmd closed command said =>
    rw [hquiet] at said
    refine .close cmd closed command ?_ fun x => ?_
    · rw [SavesPending, Ctx.any_storesCommand, said, hc]
      simp [Effect.storesCommand, closed]
    · simp [Ctx.mem_said, said]

theorem CommandStep.of_ack {e : Env} {id : String} {status : Ctx.AckStatus}
    (hact : t.act = .call i e (.ack id status))
    (h : t.post.ctx i = (t.pre.ctx i).quiet.ack id status) : CommandStep i t := by
  have hcreates : t.act.createsCommand i = false := by
    rw [hact]
    rfl
  rcases Ctx.ack_cases (c := (t.pre.ctx i).quiet) id status with ⟨cmd, hc, hid, he⟩ | ⟨hany, he⟩
  · rw [he] at h
    refine .close { cmd with status := status.toStatus } status.toStatus_ne_pending ?_ ?_ fun x => ?_
    · rw [h]
    · rw [SavesPending, h, hcreates]
      simp [Ctx.quiet]
    · rw [h]
      exact List.not_mem_nil
  · refine .of_filed [] ?_ (by simp) hcreates ?_
    · rw [h, he]
      exact .refl
    · rw [hact, Action.acknowledges, show (t.pre.ctx i).command.any (·.id = id) = false from hany]
      simp

/-- **What a step does to the command**: a new one is stored, or the one on file is no longer
pending, or nothing happens to it. -/
theorem commandStep (ht : (system s).Takes t) (i : s.Ix) : CommandStep i t := by
  cases ctxStep ht i with
  | handler e k act hk exec =>
    cases k with
    | createCommand name ev expires =>
      obtain h := Option.some.inj exec
      have hc : (t.post.ctx i).command = _ := congrArg Ctx.command h.symm
      have hcreates : t.act.createsCommand i = true := by
        rw [act]
        simp [Action.createsCommand]
      refine .store _ rfl hc (.inr hcreates) ⟨_, ?_, hc, .inr hcreates⟩ fun x hx => ?_
      · rw [act, Action.newCommands_call]
        exact List.mem_singleton_self _
      · rw [← h] at hx
        exact absurd hx List.not_mem_nil
    | ack id status =>
      exact .of_ack act (Option.some.inj exec).symm
    | _ =>
      refine .of_filed _ (Ctx.filed_handler hk rfl exec) ?_ ?_ ?_
      · rw [act, Action.newCommands_call]
        exact fun _ => id
      · rw [act]
        rfl
      · rw [act]
        rfl
  | worker e th c pc step =>
    refine .of_filed [Ctx.makeCriticalShutdownCommand e] ?_ ?_ ?_ ?_
    · rw [step.post]
      exact step.outcome.filed.congr rfl rfl rfl rfl
    · rw [step.act, Action.newCommands_call]
      exact fun _ => id
    · rw [step.act]
      rfl
    · rw [step.act]
      rfl
  | other j e k act hj post =>
    refine .keep (by rw [post]; rfl) ?_ ?_ fun x => ?_
    · rw [SavesPending, post, act]
      cases k <;> simp [Action.createsCommand, Ctx.quiet, Ne.symm hj]
    · rw [ClosesCommand, post, act]
      cases k <;> simp [Action.acknowledges, Ctx.quiet, Ne.symm hj]
    · rw [post]
      exact List.not_mem_nil
  | restart e act post =>
    refine .of_filed [] ?_ (by simp) ?_ ?_
    · rw [post]
      exact Ctx.filed_resetStateOnStartup.after rfl rfl
    · rw [act]
      rfl
    · rw [act]
      rfl

end UpsOrchestrator

import UpsOrchestrator.CommandText
import UpsOrchestrator.Commands

/-!
# The texts of the command channel along runs

What a step of the whole system does to the command of a context, one call does to `command.json`.

* `Writes`, `Call.mayWrite`: the call by which a step writes the command, if any; those that its own
  call and environment admit; **`exists_writes`**: there is one.
* **`commandTextsFollow`**: the texts follow every run of the system.
-/

set_option autoImplicit false

namespace UpsOrchestrator

open Json Lts

/-! ## Requests -/

/-- A request that creates a command. -/
def createBody (command : String) (event : Option String) (expiresAt : Option (Option Int)) :
    String :=
  dumps {} (.obj (("command", .str command) ::
    ("payload", .obj (event.toList.map fun ev => ("event", .str ev))) ::
    expiresAt.toList.map fun expires => ("expires_at", match expires with
      | none => .null
      | some n => .int n)))

variable {command : String} {event : Option String} {expiresAt : Option (Option Int)}

theorem loads_createBody : loads (createBody command event expiresAt) =
    some (.obj (("command", .str command) ::
      ("payload", .obj (event.toList.map fun ev => ("event", .str ev))) ::
      expiresAt.toList.map fun expires => ("expires_at", match expires with
        | none => .null
        | some n => .int n))) := by
  refine loads_dumps {} ?_
  rcases event with _ | ev <;> rcases expiresAt with _ | _ | n <;>
    simp [distinct, distinctMembers]

theorem creation_createBody :
    (loads (createBody command event expiresAt)).bind creation = some (command, event, expiresAt) := by
  rw [loads_createBody]
  rcases event with _ | ev <;> rcases expiresAt with _ | _ | n <;> rfl

theorem understood_createBody (e : Env) :
    (CommandCall.create e (createBody command event expiresAt)).Understood := by
  intro payload hl v hv
  obtain rfl := Option.some.inj (loads_createBody.symm.trans hl)
  obtain rfl : Json.str command = v := Option.some.inj hv
  rfl

/-! ## One step -/

theorem CommandCall.ctx_congr (k : CommandCall) {c c' : Ctx} (h : c.command = c'.command) :
    (k.ctx c).command = (k.ctx c').command := by
  cases k with
  | notify e => rfl
  | critical e => rfl
  | create e body =>
    simp only [ctx]
    split
    · exact h
    · rfl
  | ack body =>
    simp only [ctx]
    split
    · exact h
    · simp only [Ctx.ack, h]
      split
      · exact h
      · split_ifs
        · rfl
        · exact h
  | cancelPending e reason =>
    simp only [ctx, Ctx.cancelPending, h]
    split
    · exact h
    · split_ifs
      · rfl
      · exact h
  | cancelShutdownOnStartup =>
    simp only [ctx, Ctx.cancelShutdownOnStartup, h]
    split
    · exact h
    · split_ifs
      · rfl
      · exact h

/-- The command `k` of a context becomes that of another, by one call or by none. -/
inductive Writes (c c' : Ctx) : Option CommandCall → Prop
  | none (command : c'.command = c.command) : Writes c c' none
  | call (k : CommandCall) (understood : k.Understood)
      (command : c'.command = (k.ctx c).command) : Writes c c' (some k)

/-- **The writes that a call admits**, with the environment of its step. -/
def Call.mayWrite (e : Env) : Call → CommandCall → Prop
  | .createCommand command event expiresAt, w => w = .create e (createBody command event expiresAt)
  | .ack id status, w => w = .ack (ackBody id status [])
  | .worker _, w => w = .critical e
  | _, w => w = .notify e ∨ ∃ reason, w = .cancelPending e reason

variable {d : UPSDeviceConfig} {p : Peers} {e : Env} {b c c' : Ctx} {k : Call}

theorem Call.mayWrite_of_handler (hk : ∀ id, k ≠ .worker id) (hr : k.writesCommand = false)
    {w : CommandCall} (h : w = .notify e ∨ ∃ reason, w = .cancelPending e reason) :
    k.mayWrite e w := by
  cases k with
  | worker id => exact absurd rfl (hk id)
  | createCommand => exact absurd hr (by simp [writesCommand])
  | ack => exact absurd hr (by simp [writesCommand])
  | _ => exact h

theorem Writes.congr {b' : Ctx} {k? : Option CommandCall} (h : Writes b b' k?)
    (hc : b.command = c.command) (hc' : c'.command = b'.command) : Writes c c' k? := by
  cases h with
  | none command => exact .none (by rw [hc', command, hc])
  | call k understood command =>
    exact .call k understood (by rw [hc', command, k.ctx_congr hc])

theorem exists_writes_start :
    ∃ k?, Writes c (c.startBatteryMonitoring d e) k? ∧ ∀ w ∈ k?, w = .notify e := by
  obtain ⟨log, st, h⟩ := Ctx.startBatteryMonitoring_eq (c := c) (d := d) (e := e)
  rw [h, Ctx.notifyDesktop]
  split_ifs
  · exact ⟨_, .call (.notify e) trivial rfl, by simp⟩
  · exact ⟨_, .none rfl, by simp⟩

theorem writes_resetToIdle (reason : String) :
    Writes c (c.resetToIdle e reason) (some (.cancelPending e reason)) := by
  have hleft : ((c.recordEnd .powerRestored (e.clock .resetEnd)).leaveMonitoring .idle
    (some "ONLINE")).command = c.command := rfl
  exact .call _ trivial ((CommandCall.cancelPending e reason).ctx_congr hleft)

theorem writes_resetStateOnStartup :
    Writes c (c.resetStateOnStartup e) (some .cancelShutdownOnStartup) := by
  have hleft : (({ c with outageLog := c.outageLog.resolveOnStartup (e.clock .resetEnd) } :
    Ctx).leaveMonitoring .idle (some "ONLINE")).command = c.command := rfl
  exact .call _ trivial (CommandCall.cancelShutdownOnStartup.ctx_congr hleft)

theorem exists_writes_handler (hk : ∀ id, k ≠ .worker id) (hr : k.writesCommand = false)
    (h : k.exec d p e c = some c') : ∃ k?, Writes c c' k? ∧ ∀ w ∈ k?, k.mayWrite e w := by
  have hmay : ∀ w : CommandCall, w = .notify e ∨ (∃ reason, w = .cancelPending e reason) →
      k.mayWrite e w := fun w => Call.mayWrite_of_handler hk hr
  suffices ∃ k?, Writes (c.noteReport e k) c' k? ∧ ∀ w ∈ k?, k.mayWrite e w by
    obtain ⟨k?, hw, hown⟩ := this
    exact ⟨k?, hw.congr Ctx.command_noteReport rfl, hown⟩
  cases Ctx.performs_handler hk h with
  | nothing => exact ⟨_, .none rfl, by simp⟩
  | fetch =>
    rw [Ctx.fetchStateFromDesktop_fst]
    exact ⟨_, .none rfl, by simp⟩
  | start =>
    obtain ⟨k?, hw, hown⟩ := exists_writes_start (c := c.noteReport e k) (d := d) (e := e)
    exact ⟨k?, hw, fun w h => hmay w (.inl (hown w h))⟩
  | strike r => exact ⟨_, .none (Ctx.executePhaseAction_command r).1, by simp⟩
  | expire => exact ⟨_, .none (Ctx.executePhaseAction_command _).1, by simp⟩
  | startStrike r =>
    obtain ⟨k?, hw, hown⟩ := exists_writes_start (c := c.noteReport e k) (d := d) (e := e)
    exact ⟨k?, hw.congr rfl (Ctx.executePhaseAction_command r).1, fun w h => hmay w (.inl (hown w h))⟩
  | reset reason =>
    refine ⟨_, writes_resetToIdle reason, fun w h => hmay w (.inr ⟨reason, ?_⟩)⟩
    exact (Option.mem_some_iff.mp h).symm
  | ignore => exact ⟨_, .none rfl, by simp⟩
  | confirm => exact ⟨_, .none rfl, by simp⟩
  | suspend => exact ⟨_, .none rfl, by simp⟩
  | createCommand _ _ _ call => exact absurd hr (by simp [call, Call.writesCommand])
  | ack _ _ call => exact absurd hr (by simp [call, Call.writesCommand])

theorem exists_writes_route (hr : k.writesCommand = true) (h : k.exec d p e c = some c') :
    ∃ k?, Writes c c' k? ∧ ∀ w ∈ k?, k.mayWrite e w := by
  cases k with
  | createCommand name ev expires =>
    obtain rfl := Option.some.inj h
    refine ⟨_, .call (.create e (createBody name ev expires)) (understood_createBody e) ?_, ?_⟩
    · simp only [CommandCall.ctx, creation_createBody]
    · exact fun w hw => (Option.mem_some_iff.mp hw).symm
  | ack id status =>
    obtain rfl := Option.some.inj h
    have hr : (([] : List (String × String)).map (·.1)).Nodup := List.nodup_nil
    refine ⟨_, .call (.ack (ackBody id status [])) (understood_ackBody id status hr) ?_, ?_⟩
    · rw [ctx_ackBody id status hr]
    · exact fun w hw => (Option.mem_some_iff.mp hw).symm
  | _ => exact absurd hr (by simp [Call.writesCommand])

theorem exists_writes_segment {pc : Pc} {pc' : Option Pc}
    (h : Ctx.SegmentOutcome d p e c pc c' pc') : ∃ k?, Writes c c' k? ∧ ∀ w ∈ k?, w = .critical e := by
  cases h with
  | wait _ _ _ command => exact ⟨_, .none command, by simp⟩
  | abort _ _ _ command => exact ⟨_, .none command, by simp⟩
  | push _ _ _ _ command => exact ⟨_, .call (.critical e) trivial command, by simp⟩
  | shutdown _ _ _ _ _ command => exact ⟨_, .none command, by simp⟩
  | powerOff _ _ _ _ command => exact ⟨_, .none command, by simp⟩
  | handled _ _ _ _ _ command => exact ⟨_, .none command, by simp⟩

variable {s : Site} {t : Step s}

/-- The writes to the command of context `i` that an action admits. -/
def Action.mayWrite (i : s.Ix) : Action s → CommandCall → Prop
  | .call j e k, w => j = i ∧ k.mayWrite e w
  | .restart _, w => w = .cancelShutdownOnStartup

/-- The call by which the step writes the command of context `i`, one that its action admits. -/
def WritesOf (i : s.Ix) (t : Step s) (k? : Option CommandCall) : Prop :=
  Writes (t.pre.ctx i) (t.post.ctx i) k? ∧ ∀ w ∈ k?, t.act.mayWrite i w

/-- **A step writes the command once at most**, by a call of its own. -/
theorem exists_writes (ht : (system s).Takes t) (i : s.Ix) : ∃ k?, WritesOf i t k? := by
  cases ctxStep ht i with
  | handler e k act hk exec =>
    have hwrites : ∃ k?, Writes (t.pre.ctx i).quiet (t.post.ctx i) k? ∧ ∀ w ∈ k?, k.mayWrite e w := by
      by_cases hr : k.writesCommand = true
      · exact exists_writes_route hr exec
      · exact exists_writes_handler hk (Bool.eq_false_iff.mpr hr) exec
    obtain ⟨k?, hw, hown⟩ := hwrites
    refine ⟨k?, hw.congr rfl rfl, fun w h => ?_⟩
    rw [act]
    exact ⟨rfl, hown w h⟩
  | worker e th c pc step =>
    obtain ⟨k?, hw, hown⟩ := exists_writes_segment step.outcome
    refine ⟨k?, hw.congr rfl (by rw [step.post]; rfl), fun w h => ?_⟩
    rw [step.act]
    exact ⟨rfl, hown w h⟩
  | other j e k act hj post => exact ⟨_, .none (by rw [post]; rfl), by simp⟩
  | restart e act post =>
    have hw := writes_resetStateOnStartup (c := (t.pre.ctx i).quiet.reboot) (e := e)
    rw [← post] at hw
    refine ⟨_, hw.congr rfl rfl, fun w h => ?_⟩
    rw [act]
    exact (Option.mem_some_iff.mp h).symm

/-! ## Runs -/

variable (other : Json → String) {i : s.Ix} {u w : World s} {tr : List (Step s)}
  {file : CommandFile} {last : Option (List (String × Json))}

theorem CommandKept.congr (h : CommandKept last file c) (hc : c'.command = c.command) :
    CommandKept last file c' :=
  ⟨hc ▸ h.stands, h.members⟩

theorem CommandKept.writes {k? : Option CommandCall} (h : CommandKept last file c)
    (hw : Writes c c' k?) :
    CommandKept (lastStored other k?.toList last)
      (k?.toList.foldl (fun f k => k.file other f) file) c' := by
  cases hw with
  | none command => exact h.congr command
  | call k understood command => exact (h.call other understood).congr command

theorem CommandKept.run (hr : Run (system s) u tr w) (h : CommandKept last file (u.ctx i)) :
    ∃ ks, List.Forall₂ (WritesOf i) tr ks ∧
      CommandKept (lastStored other (ks.flatMap Option.toList) last)
        ((ks.flatMap Option.toList).foldl (fun f k => k.file other f) file) (w.ctx i) := by
  induction hr with
  | nil => exact ⟨[], .nil, h⟩
  | @snoc v w tr a hr ht ih =>
    obtain ⟨ks, hall, hkept⟩ := ih
    obtain ⟨k?, hw⟩ := exists_writes (t := ⟨v, a, w⟩) ht i
    refine ⟨ks ++ [k?], List.rel_append hall (.cons hw .nil), ?_⟩
    rw [List.flatMap_append, lastStored, List.foldl_append, List.foldl_append, List.flatMap_singleton]
    exact hkept.writes other hw.1

/-- **The texts follow every run of the whole system**: there is a call for each step, or none, after
which the file and what is read of it agree with the context. -/
theorem commandTextsFollow (other : Json → String) (x : Execution (system s)) (i : s.Ix)
    {file : CommandFile} (hs : Stands file (x.start.ctx i).command) :
    ∃ ks, List.Forall₂ (WritesOf i) x.steps ks ∧ CommandTexts other (ks.flatMap Option.toList)
      ((ks.flatMap Option.toList).foldl (fun f k => k.file other f) file) (x.last.ctx i) := by
  obtain ⟨ks, hall, hkept⟩ := (CommandKept.start hs).run other x.run
  exact ⟨ks, hall, hkept.commandTexts⟩

/-- A command is created, and its desktop acknowledges it. -/
theorem commandTextsFollow_acknowledged :
    ∃ x : Execution (system deskSite), x.steps.length = 2 ∧
      ∃ ks, List.Forall₂ (WritesOf mainUps) x.steps ks ∧
        CommandTexts (fun _ => "") (ks.flatMap Option.toList)
          ((ks.flatMap Option.toList).foldl (fun f k => k.file (fun _ => "") f) none)
          (x.last.ctx mainUps) := by
  let x := Execution.ofLabels (system deskSite) (World.boot (.at 0) fun _ => {})
    [.call mainUps (.at 2000) (.createCommand "ups_state" (some "ONBATT") none),
      .call mainUps (.at 2001) (.ack "ups_state-2000" .cancelled)] ⟨_, _, rfl⟩ (by decide)
  exact ⟨x, by decide, commandTextsFollow _ x mainUps (by rfl)⟩

end UpsOrchestrator

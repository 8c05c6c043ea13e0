import UpsOrchestrator.Commands

/-!
# The contract of the command store

Five writers share the command on file, and two readers, `preflight` and the `command` route, decide
by it.

* `Ctx.getCommandApi`: the `command` route.
* `CommandContract`: what the readers may answer and what the writers may change.
* `Expired`: the command on file is pending and its `expires_at` has passed, which no reader looks
  at; **`commandContract_iff`**.
-/

set_option autoImplicit false

namespace UpsOrchestrator

open Lts

/-- `get_command_api` -/
def Ctx.getCommandApi (c : Ctx) : Option Command :=
  match c.command with
  | none => none
  | some cmd => if cmd.status ≠ .pending then none else some cmd

/-- The command may be acted on at the time `now`. -/
def Command.Acceptable (now : ℤ) (cmd : Command) : Prop :=
  cmd.status = .pending ∧ ∀ expires ∈ cmd.expiresAt, now ≤ expires

/-- The command is pending, and its `expires_at` has passed at the time `now`. -/
def Command.Expired (now : ℤ) (cmd : Command) : Prop :=
  cmd.status = .pending ∧ ∃ expires ∈ cmd.expiresAt, expires < now

variable {s : Site}

/-- **The contract of the command store** of context `i`: in its runs, and for the requests that come
after the run `x` at the time `now`. -/
structure CommandContract (i : s.Ix) (now : ℤ) (x : Execution (system s)) : Prop where
  preflight : ∀ id command, (x.last.ctx i).preflight id command = .allow ↔
    ∃ cmd, (x.last.ctx i).command = some cmd ∧ cmd.id = id ∧ cmd.command = command ∧
      cmd.Acceptable now
  get : ∀ cmd, (x.last.ctx i).getCommandApi = some cmd ↔
    (x.last.ctx i).command = some cmd ∧ (x.last.ctx i).preflight cmd.id cmd.command = .allow
  ack : ∀ t ∈ x.steps, ∀ e id status, t.act = .call i e (.ack id status) →
    (t.post.ctx i).command ≠ (t.pre.ctx i).command →
    ∃ cmd, (t.pre.ctx i).command = some cmd ∧ cmd.id = id
  /-- as long as no new command is stored -/
  closed : ∀ tr₁ t tr₂ cmd, x.steps = tr₁ ++ t :: tr₂ → (t.pre.ctx i).command = some cmd →
    cmd.status ≠ .pending → (∀ t' ∈ t :: tr₂, ¬StoresCommand i t') →
    ∃ cmd', (x.last.ctx i).command = some cmd' ∧ cmd'.status ≠ .pending

/-! ## The readers -/

variable {c : Ctx} {cmd : Command} {now : ℤ}

theorem Command.acceptable_iff (hp : cmd.status = .pending) : cmd.Acceptable now ↔ ¬cmd.Expired now := by
  constructor
  · rintro ⟨-, hnow⟩ ⟨-, expires, he, hlt⟩
    have hle := hnow expires he
    omega
  · intro hexp
    refine ⟨hp, fun expires he => ?_⟩
    by_contra hlt
    exact hexp ⟨hp, expires, he, by omega⟩

theorem Ctx.getCommandApi_eq_some :
    c.getCommandApi = some cmd ↔ c.command = some cmd ∧ cmd.status = .pending := by
  unfold getCommandApi
  split
  next hc => simp [hc]
  next cmd' hc =>
    rw [hc, Option.some.injEq]
    by_cases hp : cmd'.status = .pending
    · rw [if_neg (not_not.mpr hp), Option.some.injEq]
      constructor
      · rintro rfl
        exact ⟨rfl, hp⟩
      · exact And.left
    · rw [if_pos hp]
      constructor
      · exact nofun
      · rintro ⟨rfl, h⟩
        exact absurd h hp

/-- **The two readers agree.** -/
theorem Ctx.getCommandApi_iff_preflight : c.getCommandApi = some cmd ↔
    c.command = some cmd ∧ c.preflight cmd.id cmd.command = .allow := by
  rw [getCommandApi_eq_some, preflight_eq_allow]
  constructor
  · rintro ⟨hc, hp⟩
    exact ⟨hc, cmd, hc, hp, rfl, rfl⟩
  · rintro ⟨hc, cmd', hc', hp, -, -⟩
    rw [hc, Option.some.injEq] at hc'
    rw [hc']
    exact ⟨hc' ▸ hc, hp⟩

/-! ## The writers -/

variable {i : s.Ix} {t : Step s} {u w : World s} {tr : List (Step s)}

theorem id_of_ack (ht : (system s).Takes t) {e : Env} {id : String} {status : Ctx.AckStatus}
    (hact : t.act = .call i e (.ack id status))
    (hne : (t.post.ctx i).command ≠ (t.pre.ctx i).command) :
    ∃ cmd, (t.pre.ctx i).command = some cmd ∧ cmd.id = id := by
  have hpost := Option.some.inj (exec_of_act ht hact)
  rcases Ctx.ack_cases (c := (t.pre.ctx i).quiet) id status with ⟨cmd, hc, hid, -⟩ | ⟨-, hsame⟩
  · exact ⟨cmd, hc, hid⟩
  · rw [← hpost, hsame] at hne
    exact absurd rfl hne

/-- The command on file is no longer pending. -/
def Ctx.HasClosed (c : Ctx) : Prop := ∃ cmd, c.command = some cmd ∧ cmd.status ≠ .pending

/-- Only a new command is pending again. -/
theorem Ctx.HasClosed.step (ht : (system s).Takes t) (hn : ¬StoresCommand i t)
    (h : (t.pre.ctx i).HasClosed) : (t.post.ctx i).HasClosed := by
  cases commandStep ht i with
  | keep command =>
    rw [HasClosed, command]
    exact h
  | store _ _ _ _ stores => exact absurd stores hn
  | close cmd closed command => exact ⟨cmd, command, closed⟩

theorem Ctx.HasClosed.run (hr : Run (system s) u tr w) (hn : ∀ t ∈ tr, ¬StoresCommand i t)
    (h : (u.ctx i).HasClosed) : (w.ctx i).HasClosed :=
  hr.invWhen (I := fun w => (w.ctx i).HasClosed) (fun _ ht hn hpre => hpre.step ht hn) h hn

/-- **The contract holds** at the end of a run unless the command on file has expired. -/
theorem commandContract_iff (i : s.Ix) (now : ℤ) (x : Execution (system s)) :
    CommandContract i now x ↔ ∀ cmd ∈ (x.last.ctx i).command, ¬cmd.Expired now := by
  constructor
  · intro h cmd hc hexp
    have hallow : (x.last.ctx i).preflight cmd.id cmd.command = .allow :=
      Ctx.preflight_eq_allow.mpr ⟨cmd, hc, hexp.1, rfl, rfl⟩
    obtain ⟨cmd', hc', -, -, hacc⟩ := (h.preflight cmd.id cmd.command).mp hallow
    obtain rfl : cmd = cmd' := Option.some.inj (hc.symm.trans hc')
    exact (Command.acceptable_iff hexp.1).mp hacc hexp
  · intro hexp
    refine ⟨fun id command => ?_, fun cmd => Ctx.getCommandApi_iff_preflight,
      fun t ht e id status hact hne => id_of_ack (x.takes ht) hact hne,
      fun tr₁ t tr₂ cmd hx hc hclosed hn => ?_⟩
    · rw [Ctx.preflight_eq_allow]
      constructor
      · rintro ⟨cmd, hc, hp, hid, hname⟩
        exact ⟨cmd, hc, hid, hname, (Command.acceptable_iff hp).mpr (hexp cmd hc)⟩
      · rintro ⟨cmd, hc, hid, hname, hacc⟩
        exact ⟨cmd, hc, hacc.1, hid, hname⟩
    · obtain ⟨-, ht, hr⟩ := (hx ▸ x.run).around
      have hpost : (t.post.ctx i).HasClosed :=
        Ctx.HasClosed.step ht (hn t List.mem_cons_self) ⟨cmd, hc, hclosed⟩
      exact hpost.run hr fun t' ht' => hn t' (List.mem_cons_of_mem t ht')

/-! ## A command that has expired -/

/-- A command that expires at 1000 is stored at 2000, and asked for a second later. -/
theorem not_commandContract_of_expired : deskSite.Loaded ∧
    ∃ x : Execution (system deskSite), x.last.now ≤ 2001 ∧ ¬CommandContract mainUps 2001 x := by
  refine ⟨deskSite_loaded, ?_⟩
  obtain ⟨x, hnow, hallow, hcmd⟩ := exists_execution_at (S := system deskSite)
    (P := fun _ w => w.now ≤ 2001 ∧
      (w.ctx mainUps).preflight "ups_state-2000" "ups_state" = .allow ∧
      ∀ cmd ∈ (w.ctx mainUps).command, cmd.expiresAt = some 1000)
    [.call mainUps (.at 2000) (.createCommand "ups_state" (some "ONBATT") (some (some 1000)))]
    (u := World.boot (.at 0) fun _ => {}) ⟨_, _, rfl⟩ (by decide)
  refine ⟨x, hnow, fun h => ?_⟩
  obtain ⟨cmd, hc, -, -, -, hexp⟩ := (h.preflight _ _).mp hallow
  exact absurd (hexp 1000 (hcmd cmd hc)) (by decide)

end UpsOrchestrator

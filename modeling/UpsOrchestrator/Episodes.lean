import UpsOrchestrator.Steps

/-!
# Shutdown episodes

An episode is a stretch of a run in which the mode of a context is `shutting_down`.

* **`attended`**: in an episode a worker of it is running or has had its terminal effect, and in
  monitoring the timer is armed.
* `pushes`, `terminals`: what a step spends; `ability`: what the worker of the episode may still
  spend; **`spends_le`**.
* `Leftover`: a worker of an earlier outage takes a step in an episode;
  **`episodesHaveOneWorker`**: without such steps one worker acts in an episode, and once.
-/

set_option autoImplicit false

namespace UpsOrchestrator

open Lts

variable {s : Site} {t : Step s} {i : s.Ix} {u w : World s} {tr : List (Step s)}

/-- The step takes context `i` into an episode. -/
def Enters (i : s.Ix) (t : Step s) : Prop :=
  (t.pre.ctx i).mode ≠ .shuttingDown ∧ (t.post.ctx i).mode = .shuttingDown

instance : Decidable (Enters i t) := by unfold Enters; infer_instance

theorem launch_of_enters (ht : (system s).Takes t) (he : Enters i t) :
    (∃ pc, (t.post.ctx i).threads = (t.pre.ctx i).threads ++ [⟨(t.pre.ctx i).spawned, pc⟩]) ∧
      (t.post.ctx i).spawned = (t.pre.ctx i).spawned + 1 := by
  obtain ⟨hm, hm'⟩ := he
  cases ctxStep ht i with
  | handler e k act hk exec =>
    cases Ctx.move_handler hk exec with
    | keep mode => exact absurd (mode.symm.trans hm') hm
    | start _ mode' => exact absurd (mode'.symm.trans hm') (by decide)
    | strike pc _ _ threads spawned => exact ⟨⟨pc, threads⟩, spawned⟩
    | standDown _ mode' => exact absurd (mode'.symm.trans hm') (by decide)
  | worker e th c pc step =>
    rw [step.post] at hm'
    rcases step.outcome.orch_eq with ⟨ho, -⟩ | ⟨hsd, -⟩
    · exact absurd ((congrArg OrchState.mode ho).symm.trans hm') hm
    · exact absurd hsd hm
  | other j e k act hj post =>
    rw [post] at hm'
    exact absurd hm' hm
  | restart e act post =>
    rw [post] at hm'
    exact absurd ((Ctx.reset_frame e).1.symm.trans hm') (by decide)

/-! ## No outage is left unattended -/

/-- The step shuts the server down or powers the UPS of context `i` off. -/
def TerminalEffect (i : s.Ix) (t : Step s) : Prop :=
  .selfShutdown ∈ (t.post.ctx i).out ∨ .powerOffUps ∈ (t.post.ctx i).out

theorem worker_stays (ht : (system s).Takes t) (hm : (t.pre.ctx i).mode = .shuttingDown)
    (hm' : (t.post.ctx i).mode = .shuttingDown) {th : Thread} (hth : th ∈ (t.pre.ctx i).threads) :
    (∃ th' ∈ (t.post.ctx i).threads, th'.id = th.id) ∨ TerminalEffect i t := by
  cases ctxStep ht i with
  | handler e k act hk exec =>
    cases Ctx.move_handler hk exec with
    | keep _ threads => exact .inl ⟨th, by rw [threads]; exact hth, rfl⟩
    | start mode =>
      rcases mode with mode | mode
      · exact absurd (hm.symm.trans mode) (by decide)
      · exact absurd (hm.symm.trans mode) (by decide)
    | strike _ mode => exact absurd hm mode
    | standDown _ mode' => exact absurd (mode'.symm.trans hm') (by decide)
  | other j e k act hj post =>
    rw [post]
    exact .inl ⟨th, hth, rfl⟩
  | restart e act post =>
    rw [post] at hm'
    exact absurd ((Ctx.reset_frame e).1.symm.trans hm') (by decide)
  | worker e th' c pc step =>
    have hmem : th ∈ c.threads := step.threads ▸ hth
    by_cases hid : th.id = th'.id
    · have hself : ∀ pc', pc = some pc' → ∃ th'' ∈ (t.post.ctx i).threads, th''.id = th.id := by
        rintro pc' rfl
        rw [step.post, ← hid]
        exact ⟨_, Ctx.mem_resume_self hmem, rfl⟩
      rw [TerminalEffect, step.post]
      rw [step.post] at hself hm'
      cases step.outcome with
      | wait pc' => exact .inl (hself pc' rfl)
      | push => exact .inl (hself _ rfl)
      | abort mode => exact absurd hm mode
      | shutdown _ _ _ _ _ _ out =>
        exact .inr (.inl (out ▸ List.mem_append_right _ (List.mem_singleton_self _)))
      | powerOff _ _ _ _ _ out =>
        exact .inr (.inr (out ▸ List.mem_append_right _ (List.mem_singleton_self _)))
      | handled _ _ _ orch => exact absurd (orch.symm.trans hm') (by decide)
    · rw [step.post]
      exact .inl ⟨th, Ctx.mem_resume_of_ne hmem hid, rfl⟩

/-- The worker launched by the step `t` is still there after the steps `ep`, or a terminal effect
has been attempted in them. -/
def Tended (i : s.Ix) (t : Step s) (ep : List (Step s)) (w : World s) : Prop :=
  (∃ th ∈ (w.ctx i).threads, (t.pre.ctx i).spawned ≤ th.id) ∨ ∃ t' ∈ ep, TerminalEffect i t'

/-- Context `i` is in an episode that began with the step `t` and is tended. -/
def InEpisode (i : s.Ix) (tr : List (Step s)) (w : World s) : Prop :=
  ∃ tr₁ t ep, tr = tr₁ ++ t :: ep ∧ Enters i t ∧
    (∀ t' ∈ ep, (t'.post.ctx i).mode = .shuttingDown) ∧ Tended i t ep w

theorem inEpisode_snoc (ht : (system s).Takes t) (hm' : (t.post.ctx i).mode = .shuttingDown)
    (ih : (t.pre.ctx i).mode = .shuttingDown → InEpisode i tr t.pre) :
    InEpisode i (tr ++ [t]) t.post := by
  by_cases hm : (t.pre.ctx i).mode = .shuttingDown
  · obtain ⟨tr₁, t₀, ep, rfl, he, hep, htend⟩ := ih hm
    refine ⟨tr₁, t₀, ep ++ [t], by simp, he, ?_, ?_⟩
    · exact List.forall_mem_append.mpr ⟨hep, List.forall_mem_singleton.mpr hm'⟩
    · rcases htend with ⟨th, hth, hid⟩ | ⟨t', ht', heff⟩
      · rcases worker_stays ht hm hm' hth with ⟨th', hth', hid'⟩ | heff
        · exact .inl ⟨th', hth', hid' ▸ hid⟩
        · exact .inr ⟨t, by simp, heff⟩
      · exact .inr ⟨t', List.mem_append_left _ ht', heff⟩
  · obtain ⟨⟨pc, hth⟩, -⟩ := launch_of_enters ht ⟨hm, hm'⟩
    refine ⟨tr, t, [], rfl, ⟨hm, hm'⟩, by simp, .inl ⟨⟨_, pc⟩, ?_, le_rfl⟩⟩
    rw [hth]
    exact List.mem_append_right _ (List.mem_singleton_self _)

theorem inEpisode_of_run (hu : (system s).init u) (h : Run (system s) u tr w)
    (hm : (w.ctx i).mode = .shuttingDown) : InEpisode i tr w := by
  induction h with
  | nil => exact absurd ((idle_of_init hu i).1.symm.trans hm) (by decide)
  | @snoc v w tr a hr ha ih => exact inEpisode_snoc (t := ⟨v, a, w⟩) ha hm ih

/-- No outage is left unattended at the end of the execution. -/
structure Attended (x : Execution (system s)) : Prop where
  monitoring : ∀ i, (x.last.ctx i).mode = .monitoring → (x.last.ctx i).Armed
  shuttingDown : ∀ i, (x.last.ctx i).mode = .shuttingDown → InEpisode i x.steps x.last

/-- **No outage is left unattended.** -/
theorem attended (x : Execution (system s)) : Attended x :=
  ⟨fun i => (Reachable.sound x.reachable i).armed, fun _ => inEpisode_of_run x.init x.run⟩

/-! ## What an episode spends -/

/-- The effect is a push of `critical_shutdown`. -/
def Effect.pushesShutdown : Effect → Bool
  | .pushCommand cmd => cmd.command = "critical_shutdown"
  | _ => false

/-- The effect is terminal. -/
def Effect.isTerminal : Effect → Bool
  | .selfShutdown => true
  | .powerOffUps => true
  | _ => false

/-- How often context `i` pushes `critical_shutdown` in the step. -/
def pushes (i : s.Ix) (t : Step s) : ℕ := (t.post.ctx i).out.countP (·.pushesShutdown)

/-- How many terminal effects context `i` has in the step, the move to `desktop_handled` included. -/
def terminals (i : s.Ix) (t : Step s) : ℕ :=
  (t.post.ctx i).out.countP (·.isTerminal) +
    if (t.post.ctx i).mode = .desktopHandled then 1 else 0

/-- Whether the worker `n` is at a position from which it is able to spend. -/
def ability (able : Pc → Bool) (n : ℕ) (c : Ctx) : ℕ :=
  (c.threads.any fun th => th.id = n && able th.pc).toNat

theorem ability_eq_one {able : Pc → Bool} {n : ℕ} {c : Ctx} {th : Thread} (hth : th ∈ c.threads)
    (hid : th.id = n) (ha : able th.pc = true) : ability able n c = 1 := by
  have h : (c.threads.any fun th => th.id = n && able th.pc) = true :=
    List.any_eq_true.mpr ⟨th, hth, by simp [hid, ha]⟩
  rw [ability, h]
  rfl

theorem ability_resume {able : Pc → Bool} {c : Ctx} {n : ℕ} {pc : Option Pc} :
    ability able n (c.resume n pc) ≤ (pc.any able).toNat := by
  unfold ability
  refine Bool.toNat_le_toNat fun h => ?_
  obtain ⟨th, hth, ha⟩ := List.any_eq_true.mp h
  rw [Bool.and_eq_true, decide_eq_true_eq] at ha
  rcases Ctx.mem_resume hth with ⟨-, hne⟩ | ⟨pc', rfl, rfl⟩
  · exact absurd ha.1 hne
  · exact ha.2

/-- How a worker spends: once, and where it was able to. -/
structure Spends (able : Pc → Bool) (cost : Step s → ℕ) (i : s.Ix) : Prop where
  /-- nobody else spends -/
  worker : ∀ t, (system s).Takes t → (t.pre.ctx i).mode = .shuttingDown →
    t.act.workerOf i = none → cost t = 0
  /-- spending takes the ability away, and nothing brings it back -/
  once : ∀ t e th c pc, (t.pre.ctx i).mode = .shuttingDown → WorkerStep t i e th c pc →
    cost t + (pc.any able).toNat ≤ (able th.pc).toNat

theorem episode_of_workerOf (ht : (system s).Takes t) (hm : (t.pre.ctx i).mode = .shuttingDown)
    (hw : t.act.workerOf i = none) :
    ((t.post.ctx i).mode = .shuttingDown ∨ (t.post.ctx i).mode = .idle) ∧
      ((t.post.ctx i).threads = (t.pre.ctx i).threads ∨ (t.post.ctx i).threads = []) ∧
      (t.post.ctx i).spawned = (t.pre.ctx i).spawned := by
  cases ctxStep ht i with
  | handler e k act hk exec =>
    cases Ctx.move_handler hk exec with
    | keep mode threads spawned => exact ⟨.inl (mode.trans hm), .inl threads, spawned⟩
    | start mode =>
      rcases mode with mode | mode
      · exact absurd (hm.symm.trans mode) (by decide)
      · exact absurd (hm.symm.trans mode) (by decide)
    | strike _ mode => exact absurd hm mode
    | standDown _ mode' threads spawned => exact ⟨.inr mode', .inl threads, spawned⟩
  | other j e k act hj post => rw [post]; exact ⟨.inl hm, .inl rfl, rfl⟩
  | restart e act post =>
    obtain ⟨hmode, hth, hsp, -⟩ := Ctx.reset_frame (c := (t.pre.ctx i).quiet) e
    rw [post]
    exact ⟨.inr hmode, .inr hth, hsp⟩
  | worker e th c pc step => exact absurd (hw.symm.trans step.workerOf) (by simp)

/-- **What the worker `n` spends in a step it pays out of its ability.** -/
theorem spends_le {able : Pc → Bool} {cost : Step s → ℕ} (hc : Spends able cost i)
    (ht : (system s).Takes t) (hm : (t.pre.ctx i).mode = .shuttingDown) {n : ℕ}
    (hn : ∀ id, t.act.workerOf i = some id → id = n) :
    cost t + ability able n (t.post.ctx i) ≤ ability able n (t.pre.ctx i) := by
  by_cases hw : t.act.workerOf i = none
  · rw [hc.worker t ht hm hw, Nat.zero_add]
    rcases (episode_of_workerOf ht hm hw).2.1 with hth | hth
    · rw [ability, ability, hth]
    · rw [ability, hth]
      exact Nat.zero_le _
  cases ctxStep ht i with
  | worker e th c pc step =>
    obtain rfl := hn th.id step.workerOf
    have hcost := hc.once t e th c pc hm step
    have hpost : ability able th.id (t.post.ctx i) ≤ (pc.any able).toNat := by
      rw [step.post]
      exact ability_resume
    cases ha : able th.pc with
    | true =>
      rw [ability_eq_one step.mem rfl ha]
      rw [ha, Bool.toNat_true] at hcost
      omega
    | false =>
      rw [ha, Bool.toNat_false] at hcost
      omega
  | handler e k act hk => exact absurd (workerOf_handler act hk) hw
  | other j e k act hj => exact absurd (workerOf_other act hj) hw
  | restart e act => exact absurd (by rw [act]; rfl) hw

theorem Effect.ByHandler.spends_nothing {d : UPSDeviceConfig} {eff : Effect} (h : eff.ByHandler d) :
    eff.pushesShutdown = false ∧ eff.isTerminal = false := by
  cases eff with
  | saveCommand cmd => exact ⟨rfl, rfl⟩
  | pushCommand cmd => simp [pushesShutdown, isTerminal, h.2]
  | phaseAction => exact ⟨rfl, rfl⟩
  | _ => exact h.elim

theorem byHandler_of_workerOf (ht : (system s).Takes t) (hw : t.act.workerOf i = none) {eff : Effect}
    (heff : eff ∈ (t.post.ctx i).out) : eff.ByHandler (s.dev i) := by
  rcases effect_cases ht heff with h | ⟨e, th, c, pc, step, -⟩
  · exact h
  · exact absurd (hw.symm.trans step.workerOf) (by simp)

theorem spends_pushes (i : s.Ix) : Spends Pc.unpushed (pushes i) i := by
  refine ⟨fun t ht hm hw => ?_, fun t e th c pc hm step => ?_⟩
  · refine List.countP_eq_zero.mpr fun eff heff => ?_
    rw [(byHandler_of_workerOf ht hw heff).spends_nothing.1]
    decide
  · have hout : pushes i t = c.out.countP (·.pushesShutdown) := by rw [pushes, step.post]; rfl
    rw [hout]
    cases step.outcome with
    | wait pc' _ _ _ out _ unpushed =>
      have hzero : c.out.countP (·.pushesShutdown) = 0 := by
        rcases out with out | ⟨out, -⟩
        · rw [out]; rfl
        · rw [out]; rfl
      rw [hzero, Nat.zero_add]
      exact Bool.toNat_le_toNat unpushed
    | abort _ _ _ _ out => rw [out]; exact Nat.zero_le _
    | push unpushed _ _ _ _ out => rw [out, unpushed]; exact le_rfl
    | shutdown _ _ _ _ _ _ out => rw [out]; exact Nat.zero_le _
    | powerOff _ _ _ _ _ out => rw [out]; exact Nat.zero_le _
    | handled _ _ _ _ _ _ out => rw [out]; exact Nat.zero_le _

theorem spends_terminals (i : s.Ix) : Spends (fun _ => true) (terminals i) i := by
  refine ⟨fun t ht hm hw => ?_, fun t e th c pc hm step => ?_⟩
  · have hout : (t.post.ctx i).out.countP (·.isTerminal) = 0 := by
      refine List.countP_eq_zero.mpr fun eff heff => ?_
      rw [(byHandler_of_workerOf ht hw heff).spends_nothing.2]
      decide
    have hmode : (t.post.ctx i).mode ≠ .desktopHandled := by
      rcases (episode_of_workerOf ht hm hw).1 with h | h
      · rw [h]; decide
      · rw [h]; decide
    rw [terminals, hout, if_neg hmode]
  · have hout : terminals i t = c.out.countP (·.isTerminal) +
        if c.mode = .desktopHandled then 1 else 0 := by rw [terminals, step.post]; rfl
    have hmode : c.orch = (t.pre.ctx i).orch → (if c.mode = .desktopHandled then 1 else 0) = 0 :=
      fun ho => if_neg fun hd =>
        absurd (((congrArg OrchState.mode ho).trans hm).symm.trans hd) (by decide)
    rw [hout]
    cases step.outcome with
    | wait pc' orch _ _ out =>
      have hzero : c.out.countP (·.isTerminal) = 0 := by
        rcases out with out | ⟨out, -⟩
        · rw [out]; rfl
        · rw [out]; rfl
      rw [hzero, hmode orch]
      exact le_rfl
    | abort mode => exact absurd hm mode
    | push _ _ orch _ _ out => rw [out, hmode orch]; exact le_rfl
    | shutdown _ _ _ orch _ _ out => rw [out, hmode orch]; exact le_rfl
    | powerOff _ _ orch _ _ out => rw [out, hmode orch]; exact le_rfl
    | handled _ _ _ orch _ _ out => rw [out, if_pos orch]; exact le_rfl

/-! ## Episodes with one worker -/

/-- **One worker acts in an episode**, the one launched at its start: it pushes at most one
`critical_shutdown` and has at most one terminal effect. -/
structure OneWorkerActs (i : s.Ix) (t₀ : Step s) (ep : List (Step s)) : Prop where
  pushes : (ep.map (pushes i)).sum ≤ 1
  terminals : (ep.map (terminals i)).sum ≤ 1
  worker : ∀ t ∈ ep, 0 < UpsOrchestrator.pushes i t + UpsOrchestrator.terminals i t →
    t.act.workerOf i = some (t₀.pre.ctx i).spawned

/-- It does in all episodes of the execution. -/
def EpisodesHaveOneWorker (x : Execution (system s)) : Prop :=
  ∀ i tr₁ t₀ ep tr₂, x.steps = tr₁ ++ t₀ :: (ep ++ tr₂) → Enters i t₀ →
    (∀ t ∈ ep, (t.pre.ctx i).mode = .shuttingDown) → OneWorkerActs i t₀ ep

/-- A worker takes a step in an episode that it was not launched for: it is not the latest one. -/
def Leftover (i : s.Ix) (t : Step s) : Prop :=
  (t.pre.ctx i).mode = .shuttingDown ∧
    ∃ id ∈ t.act.workerOf i, id + 1 ≠ (t.pre.ctx i).spawned

instance : Decidable (Leftover i t) := by unfold Leftover; infer_instance

theorem spawned_in_episode (ht : (system s).Takes t) (hm : (t.pre.ctx i).mode = .shuttingDown) :
    (t.post.ctx i).spawned = (t.pre.ctx i).spawned := by
  by_cases hw : t.act.workerOf i = none
  · exact (episode_of_workerOf ht hm hw).2.2
  cases ctxStep ht i with
  | worker e th c pc step => rw [step.post]; exact step.spawned
  | handler e k act hk => exact absurd (workerOf_handler act hk) hw
  | other j e k act hj => exact absurd (workerOf_other act hj) hw
  | restart e act => exact absurd (by rw [act]; rfl) hw

/-- What an episode spends, if only the worker launched at its start takes steps in it. -/
theorem episode_spends {able : Pc → Bool} {cost : Step s → ℕ} (hc : Spends able cost i) {n : ℕ}
    {ep : List (Step s)} (h : Run (system s) u ep w) (hu : (u.ctx i).spawned = n + 1)
    (hm : ∀ t ∈ ep, (t.pre.ctx i).mode = .shuttingDown) (hl : ∀ t ∈ ep, ¬Leftover i t) :
    (ep.map cost).sum ≤ 1 := by
  have hsum := h.sum_le (I := fun w => (w.ctx i).spawned = n + 1)
    (C := fun t => (t.pre.ctx i).mode = .shuttingDown ∧ ¬Leftover i t) cost
    (fun w => ability able n (w.ctx i))
    (fun t ht hC hI => (spawned_in_episode ht hC.1).trans hI)
    (fun t ht hC hI => spends_le hc ht hC.1 fun id hid => by
      by_contra hne
      exact hC.2 ⟨hC.1, id, hid, by omega⟩)
    hu fun t ht => ⟨hm t ht, hl t ht⟩
  have hone : ability able n (u.ctx i) ≤ 1 := Bool.toNat_le _
  omega

/-- **Without leftover workers one worker acts in an episode, and once.** -/
theorem episodesHaveOneWorker (x : Execution (system s))
    (h : ∀ t ∈ x.steps, ∀ i, ¬Leftover i t) : EpisodesHaveOneWorker x := by
  intro i tr₁ t₀ ep tr₂ hx he hm
  obtain ⟨-, ht₀, hrun⟩ := (hx ▸ x.run).around
  obtain ⟨v, hep, -⟩ := hrun.split
  have hl : ∀ t ∈ ep, ¬Leftover i t := fun t ht => h t (by rw [hx]; simp [ht]) i
  have hsp := (launch_of_enters ht₀ he).2
  refine ⟨episode_spends (spends_pushes i) hep hsp hm hl,
    episode_spends (spends_terminals i) hep hsp hm hl, fun t ht hpos => ?_⟩
  obtain ⟨ep₁, ep₂, rfl, h₁, ha, -⟩ := hep.of_mem ht
  have hspt : (t.pre.ctx i).spawned = (t₀.pre.ctx i).spawned + 1 :=
    h₁.invWhen (I := fun w => (w.ctx i).spawned = (t₀.pre.ctx i).spawned + 1)
      (C := fun t => (t.pre.ctx i).mode = .shuttingDown)
      (fun t ht hC hI => (spawned_in_episode ht hC).trans hI) hsp
      fun t' ht' => hm t' (List.mem_append_left _ ht')
  cases hw : t.act.workerOf i with
  | none =>
    rw [(spends_pushes i).worker t ha (hm t ht) hw, (spends_terminals i).worker t ha (hm t ht) hw]
      at hpos
    exact absurd hpos (lt_irrefl 0)
  | some id =>
    by_contra hne
    refine hl t ht ⟨hm t ht, id, hw, fun hid => hne (congrArg some ?_)⟩
    omega

/-! ## A worker that sleeps through a restore -/

/-- Low battery with the desktop online: the worker pushes, waits and shuts the server down. -/
def lowBatteryRun : List (Action deskSite) :=
  [.call mainUps (.at 0 online) (.event .lowbatt), .call mainUps (.at 0) (.worker 0),
    .call mainUps (.at 1) (.worker 0), .call mainUps (.at 61) (.worker 0)]

theorem episodesHaveOneWorker_lowBatteryRun : EpisodesHaveOneWorker (Execution.ofLabels
    (system deskSite) (.boot (.at 0) fun _ => {}) lowBatteryRun ⟨_, _, rfl⟩ (by decide)) :=
  episodesHaveOneWorker _ (by decide)

/-- The restore and the next low battery fall into one sleep of the first worker, which then takes
the desktop's report in the second outage for its own. -/
def flapInOneSleep : List (Action deskSite) :=
  [.call mainUps (.at 0 online) (.event .lowbatt), .call mainUps (.at 0) (.worker 0),
    .call mainUps (.at 1) (.worker 0), .call mainUps (.at 2) (.event .online),
    .call mainUps (.at 3 online) (.event .lowbatt),
    .call mainUps (.at 4) (.updateState (some .shuttingDown)), .call mainUps (.at 6) (.worker 0)]

/-- The last of seven steps shuts the server down in the second episode, and is not of its worker. -/
def shutDownByLeftover : List (Step deskSite) → Bool
  | [_, _, _, _, t₀, t₁, t] => Enters mainUps t₀ ∧ (t₁.pre.ctx mainUps).mode = .shuttingDown ∧
      (t.pre.ctx mainUps).mode = .shuttingDown ∧ 0 < terminals mainUps t ∧
      t.act.workerOf mainUps ≠ some (t₀.pre.ctx mainUps).spawned
  | _ => false

theorem not_episodesHaveOneWorker : deskSite.Loaded ∧
    ∃ x : Execution (system deskSite), ¬EpisodesHaveOneWorker x := by
  refine ⟨deskSite_loaded, ?_⟩
  obtain ⟨x, hx⟩ := exists_execution (S := system deskSite) flapInOneSleep
    (P := fun tr => shutDownByLeftover tr = true) ⟨.at 0, fun _ => {}, rfl⟩ (by decide)
  refine ⟨x, fun h => ?_⟩
  unfold shutDownByLeftover at hx
  split at hx
  next a b c d t₀ t₁ t hsteps =>
    obtain ⟨he, hm₁, hm, hpos, hne⟩ := of_decide_eq_true hx
    have hone := h mainUps [a, b, c, d] t₀ [t₁, t] [] hsteps he (by simpa using ⟨hm₁, hm⟩)
    exact hne (hone.worker t (by simp) (by omega))
  · exact absurd hx (by decide)

end UpsOrchestrator

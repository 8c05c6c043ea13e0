import UpsOrchestrator.Interleaved

/-!
# Concurrent battery calls on one context

Any number of calls of `handle_event` and `handle_ups_status_transition` that report an outage run
on one context, one operation at a time in any order.

* `BatteryCall`, `race`: the calls and their interleaved runs.
* `NeverUndone`: `shutting_down` is never left, and monitoring starts once.
* `starting`, `Fits`, **`keeps_starting`**: the protocol by which at most one call may write the
  record of a start, and the relation between the calls and the record that it keeps.
* **`neverUndone_iff`**: the race is safe unless a low-battery call and another call meet in a mode
  in which monitoring can start; **`exists_undone`**: then the start of the other call may overwrite
  `shutting_down`, as in `lowbattDuringFetch_undone`.
-/

set_option autoImplicit false

namespace UpsOrchestrator

open Lts

/-! ## Calls -/

/-- A call that reports an outage: `ONBATT`, `LOWBATT`, or a status with `OB` or `LB`. -/
inductive BatteryCall
  | onbatt
  | lowbatt
  | status (text : String) (h : hasFlag "OB" text || hasFlag "LB" text)

namespace BatteryCall

/-- The call takes the low-battery branch. -/
def isLow : BatteryCall → Bool
  | onbatt => false
  | lowbatt => true
  | status text _ => hasFlag "LB" text

/-- The handler that the call runs. -/
def program (d : UPSDeviceConfig) : BatteryCall → Handler Unit
  | onbatt => Handler.handleEvent d .onbatt
  | lowbatt => Handler.handleEvent d .lowbatt
  | status text _ => Handler.handleUpsStatusTransition d text

end BatteryCall

section Race

variable {ι : Type} [DecidableEq ι] (d : UPSDeviceConfig) (c : Ctx) (calls : ι → BatteryCall)

/-- All calls at their beginning. -/
def atStart : Pool Op Op.Ans Shared ι where
  shared := { ctx := c }
  threads i := (calls i).program d

/-- **The interleaved runs** of the calls on the context `c`. -/
def race : System (Pool Op Op.Ans Shared ι) (ι × Answers) := pool Op.exec (atStart d c calls)

end Race

/-- The operation writes a record in mode `monitoring`. -/
def Op.startsMonitoring : Op → Bool
  | .saveOrchestratorState orch => orch.mode = .monitoring
  | _ => false

variable {ι : Type} [DecidableEq ι] {d : UPSDeviceConfig} {c : Ctx} {calls : ι → BatteryCall}

/-- How many starts of monitoring are written in the step. -/
def starts (t : Transition (Pool Op Op.Ans Shared ι) (ι × Answers)) : ℕ :=
  ((t.pre.threads t.act.1).head.any Op.startsMonitoring).toNat

/-- **A launched action is not undone**: no write leaves `shutting_down`, and monitoring is started
once. -/
structure NeverUndone (x : Execution (race d c calls)) : Prop where
  stays : ∀ t ∈ x.steps, t.pre.shared.ctx.mode = .shuttingDown →
    t.post.shared.ctx.mode = .shuttingDown
  once : (x.steps.map starts).sum ≤ 1

/-! ## The protocol of a start -/

/-- `ONBATT` starts monitoring in this mode. -/
def Mode.canStart (mode : Mode) : Bool := mode ∈ [Mode.idle, Mode.desktopHandled]

/-- What a call knows about the record. -/
inductive Knowledge
  | nothing
  /-- it has read a mode that can start, and no other call will start -/
  | committed
  /-- monitoring has been started -/
  | late
  deriving DecidableEq

/-- What a call knows, and whether it holds `_start_lock`. -/
structure Stage where
  knows : Knowledge
  holds : Bool

/-- The operations that depend on the stage of a call. -/
def Op.decisive : Op → Bool
  | .getOrchestratorState => true
  | .saveOrchestratorState _ => true
  | .acquire .start => true
  | .release .start => true
  | _ => false

/-- **The protocol.** A call commits to a start when it reads the record under `_start_lock`, or
when it is the only call; only then does it write mode `monitoring`. A call that has read a later
mode writes `shutting_down` only. -/
def starting (lone : Bool) : Discipline Op Op.Ans Stage where
  allowed q
    | .saveOrchestratorState orch =>
      (q.knows = .committed ∧ orch.mode = .monitoring) ∨
        (q.knows = .late ∧ orch.mode = .shuttingDown)
    | .release .start => q.holds = true ∧ q.knows ≠ .committed
    | _ => True
  possible q
    | .getOrchestratorState, orch =>
      (q.knows = .committed → orch.mode.canStart = true) ∧
        (q.knows = .late → orch.mode.canStart = false)
    | _, _ => True
  next q
    | .getOrchestratorState, orch =>
      if orch.mode.canStart = false then { q with knows := .late }
      else if q.holds || lone then { q with knows := .committed }
      else q
    | .saveOrchestratorState _, _ => { q with knows := .late }
    | .acquire .start, _ => { q with holds := true }
    | .release .start, _ => { q with holds := false }
    | _, _ => q

/-- The stages of the calls fit the record and the lock. -/
structure Fits (lone : Bool) (q : ι → Stage) (u : Shared) : Prop where
  unique : ∀ i j, (q i).holds = true → (q j).holds = true → i = j
  locked : ∀ i, (q i).holds = true → u.start = true
  committed : ∀ i, (q i).knows = .committed →
    u.ctx.mode.canStart = true ∧ ((q i).holds = true ∨ lone = true)
  late : ∀ i, (q i).knows = .late → u.ctx.mode.canStart = false

/-- One start at most, and `shutting_down` stays. -/
structure Steady (o : Op) (u v : Shared) : Prop where
  stays : u.ctx.mode = .shuttingDown → v.ctx.mode = .shuttingDown
  pays : o.startsMonitoring.toNat + v.ctx.mode.canStart.toNat ≤ u.ctx.mode.canStart.toNat

variable {lone : Bool} {q : ι → Stage} {u v : Shared} {o : Op} {e : Answers}

theorem exec_frame {a : o.Ans} (ho : o.decisive = false) (h : o.exec e u = some (a, v)) :
    v.ctx.orch = u.ctx.orch ∧ v.start = u.start := by
  cases o with
  | acquire lock =>
    cases lock with
    | action =>
      simp only [Op.exec] at h
      split_ifs at h
      obtain ⟨-, rfl⟩ := Prod.ext_iff.mp (Option.some.inj h)
      exact ⟨rfl, rfl⟩
    | start => exact absurd ho (by decide)
  | release lock =>
    cases lock with
    | action =>
      obtain ⟨-, rfl⟩ := Prod.ext_iff.mp (Option.some.inj h)
      exact ⟨rfl, rfl⟩
    | start => exact absurd ho (by decide)
  | getOrchestratorState => exact absurd ho (by decide)
  | saveOrchestratorState => exact absurd ho (by simp [Op.decisive])
  | _ =>
    obtain ⟨-, rfl⟩ := Prod.ext_iff.mp (Option.some.inj h)
    exact ⟨rfl, rfl⟩

theorem decisive_of_not_coordinates (ho : o.coordinates = false) : o.decisive = false := by
  cases o with
  | getOrchestratorState => exact ho
  | saveOrchestratorState => exact ho
  | acquire => exact absurd ho (by simp [Op.coordinates, Op.steers])
  | release => exact absurd ho (by simp [Op.coordinates, Op.steers])
  | _ => rfl

theorem startsMonitoring_of_not_steers (ho : o.steers = false) : o.startsMonitoring = false := by
  cases o with
  | saveOrchestratorState => exact absurd ho (by simp [Op.steers])
  | _ => rfl

theorem startsMonitoring_of_not_decisive (ho : o.decisive = false) :
    o.startsMonitoring = false := by
  cases o with
  | saveOrchestratorState => exact absurd ho (by simp [Op.decisive])
  | _ => rfl

theorem starting_of_not_decisive (lone : Bool) (ho : o.decisive = false) (q : Stage) :
    (starting lone).allowed q o ∧ (∀ a, (starting lone).possible q o a) ∧
      ∀ a, (starting lone).next q o a = q := by
  cases o with
  | acquire lock =>
    cases lock with
    | action => exact ⟨trivial, fun _ => trivial, fun _ => rfl⟩
    | start => exact absurd ho (by decide)
  | release lock =>
    cases lock with
    | action => exact ⟨trivial, fun _ => trivial, fun _ => rfl⟩
    | start => exact absurd ho (by decide)
  | getOrchestratorState => exact absurd ho (by decide)
  | saveOrchestratorState => exact absurd ho (by simp [Op.decisive])
  | _ => exact ⟨trivial, fun _ => trivial, fun _ => rfl⟩

/-! ### Every operation keeps the fit -/

omit [DecidableEq ι] in
theorem Fits.frame (hf : Fits lone q u) (ho : v.ctx.orch = u.ctx.orch) (hs : v.start = u.start) :
    Fits lone q v where
  unique := hf.unique
  locked i h := hs ▸ hf.locked i h
  committed i h := by rw [Ctx.mode, ho]; exact hf.committed i h
  late i h := by rw [Ctx.mode, ho]; exact hf.late i h

theorem Steady.frame (ho : v.ctx.orch = u.ctx.orch) (hw : o.startsMonitoring = false) :
    Steady o u v where
  stays h := by rw [Ctx.mode, ho]; exact h
  pays := by rw [hw, Ctx.mode, ho]; exact (Nat.zero_add _).le

theorem apply_update_stage {β : Type} (f : Stage → β) {i : ι} {x : Stage} (h : f x = f (q i))
    (j : ι) : f (Function.update q i x j) = f (q j) := by
  by_cases hj : j = i
  · rw [hj, Function.update_self, h]
  · rw [Function.update_of_ne hj]

theorem Fits.read (hf : Fits lone q u) (i : ι) :
    Fits lone (Function.update q i ((starting lone).next (q i) .getOrchestratorState u.ctx.orch))
      u := by
  have hholds := apply_update_stage (q := q) Stage.holds (i := i)
    (x := (starting lone).next (q i) .getOrchestratorState u.ctx.orch) (by
      simp only [starting]
      split_ifs <;> rfl)
  refine ⟨fun j k hj hk => ?_, fun j hj => ?_, fun j hj => ?_, fun j hj => ?_⟩
  · rw [hholds] at hj hk
    exact hf.unique j k hj hk
  · rw [hholds] at hj
    exact hf.locked j hj
  · rw [hholds]
    by_cases hji : j = i
    · subst hji
      rw [Function.update_self] at hj
      simp only [starting] at hj
      split_ifs at hj with hm hl
      · exact ⟨by simpa using hm, by simpa using hl⟩
      · exact hf.committed j hj
    · rw [Function.update_of_ne hji] at hj
      exact hf.committed j hj
  · by_cases hji : j = i
    · subst hji
      rw [Function.update_self] at hj
      simp only [starting] at hj
      split_ifs at hj with hm
      · exact hm
      · exact hf.late j hj
    · rw [Function.update_of_ne hji] at hj
      exact hf.late j hj

theorem Fits.save (hl : lone = true → Subsingleton ι) (hf : Fits lone q u) (i : ι)
    (orch : OrchState) (h : (starting lone).allowed (q i) (.saveOrchestratorState orch)) :
    Fits lone (Function.update q i { q i with knows := .late })
      { u with ctx := u.ctx.saveOrchestratorState orch } := by
  have hmode : orch.mode.canStart = false := by
    rcases h with ⟨-, h⟩ | ⟨-, h⟩
    · rw [h]; rfl
    · rw [h]; rfl
  have hholds := apply_update_stage (q := q) Stage.holds (i := i)
    (x := { q i with knows := .late }) rfl
  refine ⟨fun j k hj hk => ?_, fun j hj => ?_, fun j hj => ?_, fun j hj => hmode⟩
  · rw [hholds] at hj hk
    exact hf.unique j k hj hk
  · rw [hholds] at hj
    exact hf.locked j hj
  · exfalso
    have hji : j ≠ i := by
      rintro rfl
      rw [Function.update_self] at hj
      cases hj
    rw [Function.update_of_ne hji] at hj
    obtain ⟨hcan, hown⟩ := hf.committed j hj
    rcases h with ⟨hi, -⟩ | ⟨hi, -⟩
    · -- two committed calls would both hold the lock or be one
      rcases hown with hown | hown
      · rcases (hf.committed i hi).2 with hi' | hi'
        · exact hji (hf.unique j i hown hi')
        · exact hji ((hl hi').elim j i)
      · exact hji ((hl hown).elim j i)
    · rw [hf.late i hi] at hcan
      cases hcan

theorem Fits.acquire (hf : Fits lone q u) (i : ι) (h : u.start = false) :
    Fits lone (Function.update q i { q i with holds := true }) { u with start := true } := by
  have hfree : ∀ j, (q j).holds = false := by
    intro j
    by_contra hj
    rw [hf.locked j (by simpa using hj)] at h
    cases h
  have hknows := apply_update_stage (q := q) Stage.knows (i := i)
    (x := { q i with holds := true }) rfl
  have hi : ∀ j, (Function.update q i { q i with holds := true } j).holds = true → j = i := by
    intro j hj
    by_contra hji
    rw [Function.update_of_ne hji, hfree j] at hj
    cases hj
  refine ⟨fun j k hj hk => (hi j hj).trans (hi k hk).symm, fun _ _ => rfl, fun j hj => ?_,
    fun j hj => ?_⟩
  · rw [hknows] at hj
    obtain ⟨hcan, hown⟩ := hf.committed j hj
    rw [hfree j] at hown
    exact ⟨hcan, .inr (hown.resolve_left Bool.false_ne_true)⟩
  · rw [hknows] at hj
    exact hf.late j hj

theorem Fits.release (hf : Fits lone q u) (i : ι) (h : (q i).holds = true)
    (hn : (q i).knows ≠ .committed) :
    Fits lone (Function.update q i { q i with holds := false }) { u with start := false } := by
  have hknows := apply_update_stage (q := q) Stage.knows (i := i)
    (x := { q i with holds := false }) rfl
  have hfree : ∀ j, (Function.update q i { q i with holds := false } j).holds ≠ true := by
    intro j hj
    by_cases hji : j = i
    · subst hji
      rw [Function.update_self] at hj
      cases hj
    · rw [Function.update_of_ne hji] at hj
      exact hji (hf.unique j i hj h)
  refine ⟨fun j k hj _ => absurd hj (hfree j), fun j hj => absurd hj (hfree j), fun j hj => ?_,
    fun j hj => ?_⟩
  · rw [hknows] at hj
    have hji : j ≠ i := by rintro rfl; exact hn hj
    rw [Function.update_of_ne hji]
    exact hf.committed j hj
  · rw [hknows] at hj
    exact hf.late j hj

/-- **Whatever the calls do in turn**, their stages fit the record and the lock. -/
theorem keeps_starting (hl : lone = true → Subsingleton ι) :
    (starting lone).Keeps Op.exec (fun q : ι → Stage => Fits lone q) Steady := by
  rintro q u i o e a v hf ho h
  by_cases hd : o.decisive = false
  · obtain ⟨-, hposs, hnext⟩ := starting_of_not_decisive lone hd (q i)
    obtain ⟨horch, hstart⟩ := exec_frame hd h
    rw [hnext, Function.update_eq_self]
    exact ⟨hposs a, hf.frame horch hstart, .frame horch (startsMonitoring_of_not_decisive hd)⟩
  cases o with
  | getOrchestratorState =>
    obtain ⟨rfl, rfl⟩ := Prod.ext_iff.mp (Option.some.inj h)
    exact ⟨⟨fun hk => (hf.committed i hk).1, hf.late i⟩, hf.read i, .frame rfl rfl⟩
  | saveOrchestratorState orch =>
    obtain ⟨-, rfl⟩ := Prod.ext_iff.mp (Option.some.inj h)
    refine ⟨trivial, hf.save hl i orch ho, ?_⟩
    rcases ho with ⟨hk, hm⟩ | ⟨hk, hm⟩
    · have hcan := (hf.committed i hk).1
      refine ⟨fun hsd => ?_, ?_⟩
      · rw [hsd] at hcan
        cases hcan
      · rw [hcan]
        show (decide (orch.mode = .monitoring)).toNat + orch.mode.canStart.toNat ≤ 1
        rw [hm]
        decide
    · refine ⟨fun _ => hm, ?_⟩
      show (decide (orch.mode = .monitoring)).toNat + orch.mode.canStart.toNat ≤ _
      rw [hm]
      exact Nat.zero_le _
  | acquire lock =>
    cases lock with
    | action => exact absurd rfl hd
    | start =>
      simp only [Op.exec] at h
      split_ifs at h with hs
      obtain ⟨-, rfl⟩ := Prod.ext_iff.mp (Option.some.inj h)
      exact ⟨trivial, hf.acquire i (by simpa using hs), .frame rfl rfl⟩
  | release lock =>
    cases lock with
    | action => exact absurd rfl hd
    | start =>
      obtain ⟨-, rfl⟩ := Prod.ext_iff.mp (Option.some.inj h)
      exact ⟨trivial, hf.release i ho.1 ho.2, .frame rfl rfl⟩
  | _ => exact absurd rfl hd

/-! ### The handlers keep to the protocol -/

namespace Handler

theorem follows_of_avoids {α : Type} {p : Handler α} {s : Stage} {Q : Stage → α → Prop}
    (hp : p.Avoids Op.coordinates) (hQ : ∀ a, Q s a) : Follows (starting lone) s p Q := by
  refine .of_avoids hp (fun o ho => ?_) hQ
  obtain ⟨hallowed, -, hnext⟩ := starting_of_not_decisive lone (decisive_of_not_coordinates ho) s
  exact ⟨hallowed, hnext⟩

/-! A call that is committed or late stays so when it reads the record again. -/

theorem read_committed {b : Bool} {orch : OrchState}
    (h : (starting lone).possible ⟨.committed, b⟩ .getOrchestratorState orch) :
    (starting lone).next ⟨.committed, b⟩ .getOrchestratorState orch = ⟨.committed, b⟩ := by
  have hcan : orch.mode.canStart = true := h.1 rfl
  simp only [starting, hcan, Bool.true_eq_false, if_false]
  split_ifs <;> rfl

theorem read_late {b : Bool} {orch : OrchState}
    (h : (starting lone).possible ⟨.late, b⟩ .getOrchestratorState orch) :
    (starting lone).next ⟨.late, b⟩ .getOrchestratorState orch = ⟨.late, b⟩ :=
  if_pos (h.2 rfl)

theorem follows_prepareMonitoring {b : Bool} :
    Follows (starting lone) ⟨.committed, b⟩ (prepareMonitoring d) fun s r =>
      s = ⟨.committed, b⟩ ∧ r.1.mode = .monitoring := by
  refine ⟨trivial, fun orch horch => ?_⟩
  rw [read_committed horch]
  refine ⟨trivial, fun ts _ => ⟨trivial, fun onBattery _ => ?_⟩⟩
  cases onBattery with
  | false =>
    change Follows (starting lone) ⟨.committed, b⟩ ((startPhase d).bind _) _
    refine Follows.bind (follows_of_avoids avoids_startPhase fun phase => ?_)
    exact ⟨trivial, fun _ _ => ⟨rfl, rfl⟩⟩
  | true =>
    refine ⟨trivial, fun _ _ => ?_⟩
    change Follows (starting lone) ⟨.committed, b⟩ ((startPhase d).bind _) _
    refine Follows.bind (follows_of_avoids avoids_startPhase fun phase => ?_)
    exact ⟨trivial, fun _ _ => ⟨rfl, rfl⟩⟩

/-- **A committed call starts monitoring** and is late then. -/
theorem follows_startBatteryMonitoring {b : Bool} :
    Follows (starting lone) ⟨.committed, b⟩ (startBatteryMonitoring d) fun s _ =>
      s = ⟨.late, b⟩ := by
  refine Follows.bind (follows_prepareMonitoring.mono ?_)
  rintro s ⟨orch, phase⟩ ⟨rfl, hm⟩
  refine ⟨.inl ⟨rfl, hm⟩, fun _ _ => ?_⟩
  exact follows_of_avoids (avoids_finishMonitoring orch phase) fun _ => rfl

theorem follows_executePhaseAction {b : Bool} (reason : Reason) :
    Follows (starting lone) ⟨.late, b⟩ (executePhaseAction d reason) fun _ _ => True := by
  refine ⟨trivial, fun _ _ => ⟨trivial, fun orch horch => ?_⟩⟩
  change Follows _ ((starting lone).next ⟨.late, b⟩ .getOrchestratorState orch) _ _
  rw [read_late horch]
  simp only [Prog.ret_bind]
  split_ifs
  · exact ⟨trivial, fun _ _ => trivial⟩
  · refine ⟨trivial, fun _ _ => ⟨.inr ⟨rfl, rfl⟩, fun _ _ => ?_⟩⟩
    exact ⟨trivial, fun _ _ => ⟨trivial, fun _ _ => ⟨trivial, fun _ _ => trivial⟩⟩⟩

theorem follows_checkPhaseDeadline {b : Bool} :
    Follows (starting lone) ⟨.late, b⟩ (checkPhaseDeadline d) fun _ _ => True := by
  refine ⟨trivial, fun orch horch => ?_⟩
  rw [read_late horch]
  refine ⟨trivial, fun now _ => ?_⟩
  simp only [Prog.ret_bind]
  split_ifs
  · trivial
  · exact follows_executePhaseAction _

/-- **Under the lock** a call that reads a mode that can start is committed. -/
theorem follows_startMonitoringIfMode {k : Knowledge} :
    Follows (starting lone) ⟨k, false⟩ (startMonitoringIfMode d [.idle, .desktopHandled])
      fun _ _ => True := by
  refine ⟨trivial, fun _ _ => ⟨trivial, fun orch _ => ?_⟩⟩
  change Follows _ ((starting lone).next ⟨k, true⟩ .getOrchestratorState orch) _ _
  by_cases hm : orch.mode ∈ [Mode.idle, Mode.desktopHandled]
  · have hnext : (starting lone).next ⟨k, true⟩ .getOrchestratorState orch = ⟨.committed, true⟩ := by
      simp [starting, show orch.mode.canStart = true from decide_eq_true hm]
    rw [hnext]
    simp only [Prog.ret_bind, if_pos hm]
    refine Follows.bind (follows_startBatteryMonitoring.mono ?_)
    rintro s _ rfl
    exact ⟨⟨rfl, by simp⟩, fun _ _ => trivial⟩
  · have hnext : (starting lone).next ⟨k, true⟩ .getOrchestratorState orch = ⟨.late, true⟩ := by
      simp [starting, show orch.mode.canStart = false from decide_eq_false hm]
    rw [hnext]
    simp only [Prog.ret_bind, if_neg hm]
    exact ⟨⟨rfl, by simp⟩, fun _ _ => trivial⟩

theorem follows_lowBatteryAction_late {b : Bool} {mode : Mode} (reason : Reason)
    (hm : mode.canStart = false) :
    Follows (starting lone) ⟨.late, b⟩ (lowBatteryAction d mode reason) fun _ _ => True := by
  unfold lowBatteryAction
  cases mode with
  | idle => exact absurd hm (by decide)
  | desktopHandled => exact absurd hm (by decide)
  | monitoring => exact follows_executePhaseAction reason
  | shuttingDown => trivial

theorem lowBatteryAction_of_canStart {mode : Mode} (reason : Reason) (hm : mode.canStart = true) :
    lowBatteryAction d mode reason =
      (startBatteryMonitoring d).bind fun _ => executePhaseAction d reason := by
  cases mode with
  | idle => rfl
  | desktopHandled => rfl
  | monitoring => exact absurd hm (by decide)
  | shuttingDown => exact absurd hm (by decide)

theorem follows_lowBatteryAction_committed {b : Bool} {mode : Mode} (reason : Reason)
    (hm : mode.canStart = true) :
    Follows (starting lone) ⟨.committed, b⟩ (lowBatteryAction d mode reason) fun _ _ => True := by
  rw [lowBatteryAction_of_canStart reason hm]
  refine Follows.bind (follows_startBatteryMonitoring.mono ?_)
  rintro s _ rfl
  exact follows_executePhaseAction reason

/-- The stages of a call before its branches: it holds no lock, and with nothing known it is neither
alone nor a low-battery call. -/
inductive Beginning (lone low : Bool) : Stage → Prop
  | late : Beginning lone low ⟨.late, false⟩
  | committed (h : lone = true) : Beginning lone low ⟨.committed, false⟩
  | nothing (h : lone = false) (hlow : low = false) : Beginning lone low ⟨.nothing, false⟩

variable {low : Bool} {s : Stage}

theorem Beginning.read (hs : Beginning lone low s) {orch : OrchState}
    (h : (starting lone).possible s .getOrchestratorState orch) :
    Beginning lone low ((starting lone).next s .getOrchestratorState orch) ∧
      (orch.mode.canStart = false →
        (starting lone).next s .getOrchestratorState orch = ⟨.late, false⟩) ∧
      (orch.mode.canStart = true →
        (starting lone).next s .getOrchestratorState orch = s ∧ s ≠ ⟨.late, false⟩) := by
  cases hs with
  | late =>
    rw [read_late h]
    refine ⟨.late, fun _ => rfl, fun hcan => ?_⟩
    rw [h.2 rfl] at hcan
    cases hcan
  | committed hl =>
    rw [read_committed h]
    refine ⟨.committed hl, fun hcan => ?_, fun _ => ⟨rfl, by simp⟩⟩
    rw [h.1 rfl] at hcan
    cases hcan
  | nothing hl hlow =>
    by_cases hcan : orch.mode.canStart = true
    · have hnext : (starting lone).next ⟨.nothing, false⟩ .getOrchestratorState orch =
          ⟨.nothing, false⟩ := by simp [starting, hcan, hl]
      rw [hnext]
      exact ⟨.nothing hl hlow, fun h' => absurd hcan (by simp [h']), fun _ => ⟨rfl, by simp⟩⟩
    · have hnext : (starting lone).next ⟨.nothing, false⟩ .getOrchestratorState orch =
          ⟨.late, false⟩ := by simp [starting, hcan]
      rw [hnext]
      exact ⟨.late, fun _ => rfl, fun h' => absurd h' hcan⟩

theorem follows_noteOwnPower (hs : Beginning lone low s) (b : Bool) :
    Follows (starting lone) s (noteOwnPower b) fun s _ => Beginning lone low s := by
  refine ⟨trivial, fun onBattery _ => ?_⟩
  simp only [Prog.ret_bind]
  split_ifs
  · exact hs
  · exact ⟨trivial, fun _ _ => ⟨trivial, fun _ _ => hs⟩⟩
  · refine ⟨trivial, fun _ _ => ⟨trivial, fun orch horch => ?_⟩⟩
    have hread := (hs.read horch).1
    simp only [Prog.ret_bind]
    split_ifs
    · exact ⟨trivial, fun _ _ => ⟨trivial, fun _ _ => hread⟩⟩
    · exact hread

theorem follows_readLowBattery (hs : Beginning lone true s) (reason : Reason) :
    Follows (starting lone) s
      (getOrchestratorState.bind fun orch => lowBatteryAction d orch.mode reason)
      fun _ _ => True := by
  refine ⟨trivial, fun orch horch => ?_⟩
  obtain ⟨-, hlate, hcan⟩ := hs.read horch
  by_cases hm : orch.mode.canStart = true
  · obtain ⟨hnext, hne⟩ := hcan hm
    rw [hnext]
    cases hs with
    | late => exact absurd rfl hne
    | committed => exact follows_lowBatteryAction_committed reason hm
    | nothing _ hlow => cases hlow
  · rw [hlate (by simpa using hm)]
    exact follows_lowBatteryAction_late reason (by simpa using hm)

/-- **Every battery call keeps to the protocol.** -/
theorem follows_program (call : BatteryCall) (hs : Beginning lone call.isLow s) :
    Follows (starting lone) s (call.program d) fun _ _ => True := by
  have hstart : ∀ s', Beginning lone call.isLow s' → Follows (starting lone) s'
      (startMonitoringIfMode d [.idle, .desktopHandled]) fun _ _ => True := by
    rintro s' (_ | _ | _) <;> exact follows_startMonitoringIfMode
  cases call with
  | lowbatt =>
    refine Follows.bind ((follows_noteOwnPower hs true).mono fun s' _ hs' => ?_)
    exact follows_readLowBattery hs' .lowBatteryEvent
  | onbatt =>
    refine Follows.bind ((follows_noteOwnPower hs true).mono fun s' _ hs' => ?_)
    refine ⟨trivial, fun orch horch => ?_⟩
    have hread := (hs'.read horch).1
    simp only [Prog.ret_bind]
    split_ifs
    · exact hstart _ hread
    · trivial
  | status text h =>
    have hnote : Follows (starting lone) s (noteUpsStatus text) fun s' _ =>
        Beginning lone (hasFlag "LB" text) s' := by
      rw [noteUpsStatus, if_pos h]
      exact follows_noteOwnPower hs true
    refine Follows.bind (hnote.mono fun s' _ hs' => ?_)
    by_cases hl : hasFlag "LB" text = true
    · simp only [hl, if_true]
      rw [hl] at hs'
      exact follows_readLowBattery hs' .lowBattery
    have hb : hasFlag "OB" text = true := by simpa [hl] using h
    refine ⟨trivial, fun orch horch => ?_⟩
    obtain ⟨hread, hlate, -⟩ := hs'.read horch
    simp only [Prog.ret_bind]
    rw [if_neg hl, if_pos hb]
    split_ifs with h1 h2
    · exact hstart _ hread
    · rw [hlate (by rw [h2]; rfl)]
      exact follows_checkPhaseDeadline
    · trivial

end Handler

/-! ## When the race is safe -/

omit [DecidableEq ι] in
theorem disciplined_atStart (hl : lone = true → Subsingleton ι)
    (hc : c.mode.canStart = true → lone = false → ∀ i, (calls i).isLow = false) :
    Disciplined (starting lone) (Fits lone) (atStart d c calls) := by
  by_cases hm : c.mode.canStart = true
  · cases lone with
    | true =>
      refine ⟨fun _ => ⟨.committed, false⟩, ⟨?_, ?_, ?_, ?_⟩, fun i => ?_⟩
      · simp
      · simp
      · exact fun _ _ => ⟨hm, .inr rfl⟩
      · simp
      · exact Handler.follows_program (calls i) (.committed rfl)
    | false =>
      refine ⟨fun _ => ⟨.nothing, false⟩, ⟨?_, ?_, ?_, ?_⟩, fun i => ?_⟩
      · simp
      · simp
      · simp
      · simp
      · exact Handler.follows_program (calls i) (.nothing rfl (hc hm rfl i))
  · refine ⟨fun _ => ⟨.late, false⟩, ⟨?_, ?_, ?_, ?_⟩, fun i => ?_⟩
    · simp
    · simp
    · simp
    · exact fun _ _ => Bool.eq_false_of_not_eq_true hm
    · exact Handler.follows_program (calls i) .late

/-- **Runs that keep to the protocol** undo nothing. -/
theorem neverUndone_of_disciplined (lone : Bool) (hl : lone = true → Subsingleton ι)
    (h : Disciplined (starting lone) (Fits lone) (atStart d c calls))
    (x : Execution (race d c calls)) : NeverUndone x := by
  have hstep : ∀ t : Transition (Pool Op Op.Ans Shared ι) (ι × Answers),
      (race d c calls).Takes t → Disciplined (starting lone) (Fits lone) t.pre →
        Disciplined (starting lone) (Fits lone) t.post ∧ ∃ o,
          (t.pre.threads t.act.1).head = some o ∧ Steady o t.pre.shared t.post.shared :=
    fun t ht hpre => hpre.step (keeps_starting hl) ht
  have hstart : Disciplined (starting lone) (Fits lone) x.start := by rw [x.init]; exact h
  refine ⟨fun t ht => ?_, ?_⟩
  · obtain ⟨o, -, hsteady⟩ := hstart.run (keeps_starting hl) x.run t ht
    exact hsteady.stays
  · have hsum := x.run.sum_le (C := fun _ => True) starts
      (fun w => w.shared.ctx.mode.canStart.toNat) (fun t ht _ hI => (hstep t ht hI).1)
      (fun t ht _ hI => ?_) hstart fun _ _ => trivial
    · have hle : x.start.shared.ctx.mode.canStart.toNat ≤ 1 := Bool.toNat_le _
      omega
    · obtain ⟨-, o, ho, hsteady⟩ := hstep t ht hI
      rw [starts, ho]
      exact hsteady.pays

/-! ## When it is not -/

namespace Handler

theorem starts_nothing {α : Type} {p : Handler α} (hp : p.Avoids Op.steers) :
    p.Avoids Op.startsMonitoring := hp.mono fun _ => startsMonitoring_of_not_steers

/-- The handler alone comes to the write of a start, in the mode it began in. -/
def ComesToStart (e : Answers) (p : Handler Unit) (u : Shared) : Prop :=
  ∃ orch k v, p.upTo Op.exec e Op.startsMonitoring u = some (.op (.saveOrchestratorState orch) k, v) ∧
    orch.mode = .monitoring ∧ v.ctx.mode = u.ctx.mode ∧ v.action = u.action

theorem ComesToStart.bind {p f} (h : ComesToStart e p u) : ComesToStart e (p.bind f) u := by
  obtain ⟨orch, k, v, hp, h⟩ := h
  exact ⟨orch, _, v, Prog.upTo_bind_op hp, h⟩

theorem comesToStart_bind {α : Type} {p : Handler α} {f : α → Handler Unit} {a : α}
    (hp : p.Avoids Op.startsMonitoring) (h : p.solo Op.exec e u = some (a, v))
    (hm : v.ctx.mode = u.ctx.mode) (hv : v.action = u.action) (hf : ComesToStart e (f a) v) :
    ComesToStart e (p.bind f) u := by
  obtain ⟨orch, k, w, hw, h1, h2, h3⟩ := hf
  refine ⟨orch, k, w, ?_, h1, h2.trans hm, h3.trans hv⟩
  rw [Prog.upTo_bind hp h, hw]

theorem comesToStart_startBatteryMonitoring : ComesToStart e (startBatteryMonitoring d) u := by
  obtain ⟨env, b⟩ := e
  obtain ⟨c, a, s⟩ := u
  obtain ⟨log, h1⟩ := Ctx.logOwnOutage_eq (c := c) (e := env)
  obtain ⟨st, h2⟩ := Ctx.fetchAtStart_eq (c := c.logOwnOutage env) (d := d) (e := env)
  refine comesToStart_bind (starts_nothing avoids_prepareMonitoring) solo_prepareMonitoring ?_ rfl ?_
  · rw [h2, h1]
  · exact ⟨_, _, _, Prog.upTo_perform_bind rfl, rfl, rfl, rfl⟩

theorem comesToStart_startMonitoringIfMode {allowed : List Mode} (hm : u.ctx.mode ∈ allowed)
    (hs : u.start = false) : ComesToStart e (startMonitoringIfMode d allowed) u := by
  obtain ⟨env, b⟩ := e
  obtain ⟨c, a, s⟩ := u
  obtain rfl : s = false := hs
  refine comesToStart_bind (Prog.avoids_perform.mpr rfl) rfl rfl rfl ?_
  refine comesToStart_bind (Prog.avoids_perform.mpr rfl) rfl rfl rfl ?_
  change ComesToStart _ (if c.mode ∈ allowed then _ else _) _
  rw [if_pos hm]
  exact comesToStart_startBatteryMonitoring.bind

theorem comesToStart_lowBatteryAction {mode : Mode} (reason : Reason) (hm : mode.canStart = true) :
    ComesToStart e (lowBatteryAction d mode reason) u := by
  rw [lowBatteryAction_of_canStart reason hm]
  exact comesToStart_startBatteryMonitoring.bind

/-- **Every battery call** that finds the lock free comes to the write of a start. -/
theorem comesToStart_program (call : BatteryCall) (hm : u.ctx.mode.canStart = true)
    (hs : u.start = false) : ComesToStart e (call.program d) u := by
  obtain ⟨env, b⟩ := e
  obtain ⟨c, a, s⟩ := u
  obtain ⟨log, hnote⟩ := Ctx.noteOwnPower_eq (c := c) (e := env) true
  have hmode : (c.noteOwnPower env true).mode = c.mode := by rw [hnote]
  have hcan : (c.noteOwnPower env true).mode.canStart = true := (congrArg _ hmode).trans hm
  have hmem : (c.noteOwnPower env true).mode ∈ [Mode.idle, Mode.desktopHandled] :=
    of_decide_eq_true hcan
  have hin : (c.noteOwnPower env true).mode = .idle ∨
      (c.noteOwnPower env true).mode = .desktopHandled := by simpa using hmem
  cases call with
  | lowbatt =>
    refine comesToStart_bind (starts_nothing (avoids_noteOwnPower true)) (solo_noteOwnPower true)
      hmode rfl ?_
    refine comesToStart_bind (Prog.avoids_perform.mpr rfl) rfl rfl rfl ?_
    exact comesToStart_lowBatteryAction _ hcan
  | onbatt =>
    refine comesToStart_bind (starts_nothing (avoids_noteOwnPower true)) (solo_noteOwnPower true)
      hmode rfl ?_
    refine comesToStart_bind (Prog.avoids_perform.mpr rfl) rfl rfl rfl ?_
    dsimp only
    rw [if_pos hin]
    exact comesToStart_startMonitoringIfMode hmem hs
  | status text h =>
    have htext : noteUpsStatus text = noteOwnPower true := if_pos h
    simp only [BatteryCall.program, handleUpsStatusTransition, htext]
    refine comesToStart_bind (starts_nothing (avoids_noteOwnPower true)) (solo_noteOwnPower true)
      hmode rfl ?_
    refine comesToStart_bind (Prog.avoids_perform.mpr rfl) rfl rfl rfl ?_
    dsimp only
    by_cases hl : hasFlag "LB" text = true
    · rw [if_pos hl]
      exact comesToStart_lowBatteryAction _ hcan
    · rw [if_neg hl, if_pos (by simpa [hl] using h), if_pos hin]
      exact comesToStart_startMonitoringIfMode hmem hs

/-- **A low-battery call** that finds `_action_lock` free ends in `shutting_down`. -/
theorem solo_program_low {call : BatteryCall} (hlow : call.isLow = true)
    (ha : u.action = false) : ∃ v, (call.program d).solo Op.exec e u = some ((), v) ∧
      v.ctx.mode = .shuttingDown := by
  obtain ⟨env, b⟩ := e
  obtain ⟨c, a, s⟩ := u
  obtain rfl : a = false := ha
  cases call with
  | onbatt => cases hlow
  | lowbatt =>
    exact ⟨_, solo_handleEvent .lowbatt fun h => absurd rfl h, Ctx.lowBatteryAction_mode _⟩
  | status text h =>
    have hl : hasFlag "LB" text = true := hlow
    refine ⟨_, solo_handleUpsStatusTransition text fun h => absurd hl (by simp [h]), ?_⟩
    simp only [Ctx.handleUpsStatusTransition, Ctx.upsStatusAction, hl, if_true]
    exact Ctx.lowBatteryAction_mode _

end Handler

/-- **The start of one call overwrites the action of another.** -/
theorem exists_undone (calls : ι → BatteryCall) (hm : c.mode.canStart = true) {i j : ι} (hij : i ≠ j)
    (hi : (calls i).isLow = true) : ∃ x : Execution (race d c calls), ∃ t ∈ x.steps,
      t.pre.shared.ctx.mode = .shuttingDown ∧ t.post.shared.ctx.mode = .monitoring := by
  let e : Answers := (Env.at 0, false)
  obtain ⟨orch, k, v, hj, horch, hvm, hva⟩ := Handler.comesToStart_program (e := e) (d := d)
    (u := { ctx := c }) (calls j) hm rfl
  obtain ⟨w, hlow, hwm⟩ := Handler.solo_program_low (e := e) (d := d) (u := v) hi hva
  -- `j` waits before its write while `i` runs to its end
  let waiting := Function.update (fun i => (calls i).program d) j
    (.op (.saveOrchestratorState orch) k)
  have hi' : waiting i = (calls i).program d := Function.update_of_ne hij _ _
  have hj' : Function.update waiting i (.ret ()) j = .op (.saveOrchestratorState orch) k :=
    (Function.update_of_ne hij.symm _ _).trans (Function.update_self ..)
  obtain ⟨tr₁, h₁⟩ : ∃ tr, Run (race d c calls) (atStart d c calls) tr ⟨v, waiting⟩ :=
    run_of_upTo rfl hj
  obtain ⟨tr₂, h₂⟩ : ∃ tr, Run (race d c calls) ⟨v, waiting⟩ tr
      ⟨w, Function.update waiting i (.ret ())⟩ := run_of_solo hi' hlow
  have h₃ : (race d c calls).step ⟨w, Function.update waiting i (.ret ())⟩ (j, e) =
      some ⟨{ w with ctx := w.ctx.saveOrchestratorState orch }, _⟩ := Pool.step_op hj' rfl
  exact ⟨⟨_, _, _, rfl, (h₁.append h₂).snoc h₃⟩, _,
    List.mem_append_right _ (List.mem_singleton.mpr rfl), hwm, horch⟩

/-- **When the race is safe.** -/
theorem neverUndone_iff (d : UPSDeviceConfig) (c : Ctx) (calls : ι → BatteryCall) :
    (∀ x : Execution (race d c calls), NeverUndone x) ↔
      (c.mode = .monitoring ∨ c.mode = .shuttingDown) ∨ (∀ i, (calls i).isLow = false) ∨
        Subsingleton ι := by
  constructor
  · intro h
    by_contra hne
    obtain ⟨hm, hne⟩ := not_or.mp hne
    obtain ⟨hlow, hι⟩ := not_or.mp hne
    obtain ⟨i, hi⟩ := not_forall.mp hlow
    have : Nontrivial ι := not_subsingleton_iff_nontrivial.mp hι
    obtain ⟨j, hji⟩ := exists_ne i
    have hcan : c.mode.canStart = true := by
      revert hm
      cases c.mode <;> decide
    obtain ⟨x, t, ht, hpre, hpost⟩ :=
      exists_undone calls hcan hji.symm (by simpa using hi)
    rw [(h x).stays t ht hpre] at hpost
    cases hpost
  · intro h x
    by_cases hι : Subsingleton ι
    · exact neverUndone_of_disciplined true (fun _ => hι)
        (disciplined_atStart (fun _ => hι) fun _ h => by cases h) x
    · refine neverUndone_of_disciplined false (fun h => by cases h)
        (disciplined_atStart (fun h => by cases h) fun hm _ => ?_) x
      rcases h with (h | h) | h | h
      · rw [h] at hm; cases hm
      · rw [h] at hm; cases hm
      · exact h
      · exact absurd h hι

/-! ### A lost update -/

/-- A primary whose desktop does not answer. -/
def homeUps : UPSDeviceConfig where
  id := "main"
  nutName := "main@localhost"
  desktop := some { agentUrl := "http://desktop:8080" }

/-- Call `false` is `ONBATT`, call `true` is `LOWBATT`. -/
def bothEvents : Bool → BatteryCall
  | false => .onbatt
  | true => .lowbatt

/-- `LOWBATT` is handled while `ONBATT` waits for the desktop's answer. -/
def lowbattDuringFetch : List (Bool × Answers) :=
  .replicate 11 (false, .at 0, false) ++ .replicate 19 (true, .at 1, false) ++
    .replicate 3 (false, .at 5, false)

theorem lowbattDuringFetch_undone : ∃ x : Execution (race homeUps {} bothEvents), ∃ t ∈ x.steps,
    t.pre.shared.ctx.mode = .shuttingDown ∧
      t.pre.shared.ctx.threads.map (·.pc) = [.wakeThenShutdown] ∧
        t.post.shared.ctx.mode = .monitoring :=
  exists_execution (S := race homeUps {} bothEvents) lowbattDuringFetch
    (P := fun tr => ∃ t ∈ tr, t.pre.shared.ctx.mode = .shuttingDown ∧
      t.pre.shared.ctx.threads.map (·.pc) = [.wakeThenShutdown] ∧
        t.post.shared.ctx.mode = .monitoring) rfl (by decide)

end UpsOrchestrator

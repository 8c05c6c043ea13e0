import UpsOrchestrator.RecordDuties
import UpsOrchestrator.Steps
import Mathlib.Data.Set.Finite.Basic

/-!
# The desktop shutdown after a recovery

`critical_shutdown` is stored and pushed by two workers, without a lock. `_action_wake_then_shutdown`
looks at the record right before, `_action_force_shutdown_desktop` does not look at it at all.

* `OvertakesPush`: a step takes the record out of `shutting_down` while a push is under way.
* `Guarded`: threads that can push without another look do so in `shutting_down`; `guarded_step`.
* `Cancels`: the thread that wrote an idle record cancels what is pending before it returns.
* **`recoveryCancelsShutdown`**: a recovery cancels the desktop shutdown if no step overtakes a push;
  **`canPushLate_of_overtakesPush`**: every such step can be followed by a push that comes too late.
-/

set_option autoImplicit false

namespace UpsOrchestrator

open Lts

namespace Ctx

variable {c : Ctx} {e : Env}

/-- A pending `critical_shutdown` of the state machine is on file. -/
def StoresShutdown (c : Ctx) : Prop := ∃ cmd, c.command = some cmd ∧ cmd.Shuts

theorem preflight_ne_allow (h : ¬c.StoresShutdown) (ts : Int) :
    c.preflight ("shutdown-" ++ toString ts) "critical_shutdown" ≠ .allow := by
  unfold preflight
  split
  · simp
  next cmd hc =>
    split_ifs with h1 h2 h3
    · simp
    · simp
    · simp
    · exact absurd ⟨cmd, hc, not_not.mp h1, not_not.mp h3, ts, not_not.mp h2⟩ h

theorem not_storesShutdown_reset : ¬(c.resetStateOnStartup e).StoresShutdown := by
  rintro ⟨cmd, hcmd, hp, hname, -⟩
  simp only [resetStateOnStartup, cancelShutdownOnStartup] at hcmd
  split at hcmd
  next hnone => exact absurd (hnone.symm.trans hcmd) (by simp)
  next cmd' hsome =>
    split_ifs at hcmd with hc
    · obtain rfl := Option.some.inj hcmd
      exact absurd hp (by simp)
    · obtain rfl := Option.some.inj (hsome.symm.trans hcmd)
      exact hc ⟨hname, hp⟩

end Ctx

/-! ## What is at stake -/

variable {ι : Type}

/-- The mode of the record. -/
abbrev Crew.mode (w : Crew ι) : Mode := w.shared.ctx.mode

/-- Thread `i` performs `o` in the step. -/
def Performs (t : Crew.Step ι) (i : ι) (o : WorkerOp) : Prop :=
  (∃ e, t.act = .op i e) ∧ (t.pre.threads i).head = some o

/-- In the step a pending `critical_shutdown` is stored, or one is pushed. -/
def ShutsDesktop (t : Crew.Step ι) : Prop := ∃ i o, Performs t i o ∧ o.ShutsDesktop

/-- **A `_reset_to_idle` has returned**, and no outage has been started since it wrote the record. -/
def ResetReturned (tr : List (Crew.Step ι)) : Prop :=
  ∃ i o tr₁ t tr₂ u tr₃, tr = tr₁ ++ t :: (tr₂ ++ u :: tr₃) ∧ Performs t i o ∧ o.WritesIdle ∧
    (∀ t' ∈ t :: (tr₂ ++ u :: tr₃), t'.post.mode = .idle) ∧ u.post.threads i = .ret ()

/-- **The step overtakes a push**: it takes the record out of `shutting_down` while another thread may
still push without looking at it, or a launched worker will. -/
def OvertakesPush (t : Crew.Step ι) : Prop :=
  t.pre.mode = .shuttingDown ∧ ∃ i o orch, Performs t i o ∧ o.written = some orch ∧
    orch.mode ≠ .shuttingDown ∧ ((∃ j, j ≠ i ∧ Unguarded (t.pre.threads j)) ∨
      ∃ th ∈ t.pre.shared.ctx.threads, th.pc = .forceShutdownDesktop)

variable [DecidableEq ι] {d : UPSDeviceConfig}

/-- **Recovery cancels the desktop shutdown.** A `critical_shutdown` is stored and pushed in
`shutting_down` only. A `_reset_to_idle` that returns has written an idle record; then, until a new
outage, none is stored or pushed and preflight allows none of the state machine's. -/
structure RecoveryCancelsShutdown (x : Execution (contextServer ι d)) : Prop where
  outage : ∀ t ∈ x.steps, ShutsDesktop t → t.pre.mode = .shuttingDown
  resets : ∀ tr₁ t tr₂ u tr₃ i reason, x.steps = tr₁ ++ t :: (tr₂ ++ u :: tr₃) →
    t.act = .call i (.power (.reset reason)) → (∀ t' ∈ tr₂ ++ [u], ∀ e, t'.act ≠ .restart e) →
      u.post.threads i = .ret () → ∃ t' ∈ tr₂ ++ [u], ∃ o, Performs t' i o ∧ o.WritesIdle
  quiet : ∀ tr₁ t tr₂, x.steps = tr₁ ++ t :: tr₂ → ResetReturned tr₁ → ¬ShutsDesktop t
  preflight : ∀ tr₁ tr₂ w, x.steps = tr₁ ++ tr₂ → Run (contextServer ι d) x.start tr₁ w →
    ResetReturned tr₁ → ∀ ts : Int,
      w.shared.ctx.preflight ("shutdown-" ++ toString ts) "critical_shutdown" ≠ .allow

/-! ## Who may push -/

variable {i j : ι} {w w' : Crew ι} {t : Crew.Step ι} {q : ι → Duty}

/-- What is left of a thread keeps to the protocol from the stage `q`. -/
def KeepsDuties (q : Duty) (p : Worker Unit) : Prop := Follows duties q p fun q' _ => q'.Done ∧ True

/-- Threads know `shutting_down`, and launched workers count on it, only where it is true. -/
structure GuardedBy (q : ι → Duty) (w : Crew ι) : Prop where
  keeps : ∀ i, KeepsDuties (q i) (w.threads i)
  sure : ∀ i, q i = .sure → w.mode = .shuttingDown
  launched : .forceShutdownDesktop ∈ w.shared.ctx.threads.map (·.pc) → w.mode = .shuttingDown

/-- The threads keep to the protocol. -/
def Guarded (w : Crew ι) : Prop := ∃ q, GuardedBy q w

omit [DecidableEq ι] in
/-- A push, or the launch of one, is made in `shutting_down` only. -/
theorem GuardedBy.mode_of_allowed (h : GuardedBy q w) {o : WorkerOp}
    (ha : duties.allowed (q i) o) (ho : o.ShutsDesktop ∨ o.LaunchesPush) :
    w.mode = .shuttingDown := by
  rcases ha with hs | ⟨hs, hl⟩
  · exact h.sure i hs
  · exact absurd ho (not_or.mpr ⟨hs, hl⟩)

theorem KeepsDuties.unsure {q : Duty} {p : Worker Unit} (h : KeepsDuties q p)
    (hp : q = .sure → ¬Unguarded p) : KeepsDuties q.unsure p := by
  cases q with
  | sure => exact follows_blind_of_not_unguarded h (fun _ h => ⟨trivial, h.2⟩) (hp rfl)
  | _ => exact h

theorem keepsDuties_put {qi : Duty} {p : Worker Unit} {u : Shared}
    (h : ∀ i, KeepsDuties (q i) (w.threads i)) (hp : KeepsDuties qi p) (j : ι) :
    KeepsDuties (Function.update q i qi j) ((w.put i p u).threads j) := by
  by_cases hj : j = i
  · rw [hj, Function.update_self, Crew.threads_put_self]
    exact hp
  · rw [Function.update_of_ne hj, Crew.threads_put_of_ne hj]
    exact h j

theorem sure_update {qi : Duty} {m : Mode} (h : ∀ i, q i = .sure → m = .shuttingDown)
    (hi : qi = .sure → m = .shuttingDown) (j : ι) (hj : Function.update q i qi j = .sure) :
    m = .shuttingDown := by
  by_cases hji : j = i
  · rw [hji, Function.update_self] at hj
    exact hi hj
  · rw [Function.update_of_ne hji] at hj
    exact h j hj

omit [DecidableEq ι] in
theorem guarded_atRest {c : Ctx} (h : c.threads = []) : Guarded (Crew.atRest c : Crew ι) := by
  refine ⟨fun _ => .blind, fun _ => ⟨trivial, trivial⟩, by simp, ?_⟩
  show _ ∈ c.threads.map _ → _
  simp [h]

theorem guarded_of_init (h : (contextServer ι d).init w) : Guarded w := by
  obtain ⟨e, disk, rfl⟩ := h
  exact guarded_atRest (Ctx.reset_frame (c := { disk.quiet with spawned := 0 }) e).2.1

/-- **An operation that overtakes no push.** -/
theorem guarded_op {e : Env × Peers} {o : WorkerOp} {k : o.Ans → Worker Unit} {a : o.Ans} {v : Shared}
    (act : t.act = .op i e) (next : t.pre.threads i = .op o k)
    (exec : o.exec e t.pre.shared = some (a, v)) (hg : GuardedBy q t.pre) (ht : ¬OvertakesPush t) :
    Guarded (t.pre.put i (k a) v) := by
  have hspec := WorkerOp.exec_spec exec
  have hkeeps : KeepsDuties (q i) (.op o k) := next ▸ hg.keeps i
  have hknows : Duty.next (q i) o a = .sure → v.ctx.mode = .shuttingDown :=
    Duty.mode_of_next_sure exec (hg.sure i)
  cases hw : o.written with
  | none =>
    have hmode : v.ctx.mode = t.pre.mode := by
      rw [Ctx.mode, hspec.orch, hw]
      rfl
    refine ⟨_, keepsDuties_put hg.keeps (hkeeps.2 a trivial), ?_, fun hth => ?_⟩
    · exact sure_update (fun j hj => hmode.trans (hg.sure j hj)) hknows
    · rw [Crew.shared_put, hspec.threads] at hth
      rcases List.mem_append.mp hth with hth | hth
      · exact hmode.trans (hg.launched hth)
      · have hpush := WorkerOp.launchesPush_of_launched (Option.mem_toList.mp hth)
        exact hmode.trans (hg.mode_of_allowed hkeeps.1 (.inr hpush))
  | some orch =>
    have hpost : v.ctx.orch = orch := by
      rw [hspec.orch, hw]
      rfl
    by_cases hm : orch.mode = .shuttingDown
    · have hmode : v.ctx.mode = .shuttingDown := by rw [Ctx.mode, hpost, hm]
      exact ⟨_, keepsDuties_put hg.keeps (hkeeps.2 a trivial), fun _ _ => hmode, fun _ => hmode⟩
    · -- nobody else may push without looking
      have hleaves : t.pre.mode = .shuttingDown → ¬((∃ j, j ≠ i ∧ Unguarded (t.pre.threads j)) ∨
          ∃ th ∈ t.pre.shared.ctx.threads, th.pc = .forceShutdownDesktop) := fun hpre hpush =>
        ht ⟨hpre, i, o, orch, ⟨⟨e, act⟩, by rw [next]; rfl⟩, hw, hm, hpush⟩
      refine ⟨Function.update (fun j => (q j).unsure) i (Duty.next (q i) o a), fun j => ?_, ?_,
        fun hth => ?_⟩
      · by_cases hj : j = i
        · rw [hj, Function.update_self, Crew.threads_put_self]
          exact hkeeps.2 a trivial
        · rw [Function.update_of_ne hj, Crew.threads_put_of_ne hj]
          exact (hg.keeps j).unsure fun hs hun => hleaves (hg.sure j hs) (.inl ⟨j, hj, hun⟩)
      · exact sure_update (fun j hj => absurd hj (Duty.unsure_ne_sure _)) hknows
      · have hlaunched : o.launched = none := WorkerOp.launched_of_written hw
        rw [Crew.shared_put, hspec.threads, hlaunched, Option.toList_none, List.append_nil] at hth
        obtain ⟨th, hmem, hpc⟩ := List.mem_map.mp hth
        exact absurd (.inr ⟨th, hmem, hpc⟩) (hleaves (hg.launched hth))

/-- **Every step that overtakes no push** keeps the threads to the protocol. -/
theorem guarded_step (h : (contextServer ι d).Takes t) (ht : ¬OvertakesPush t)
    (hg : Guarded t.pre) : Guarded t.post := by
  obtain ⟨q, hg⟩ := hg
  cases serverStep h with
  | call i r act handler idle post =>
    rw [post]
    refine ⟨_, keepsDuties_put hg.keeps (Routine.mindful_program handler), ?_, hg.launched⟩
    exact sure_update hg.sure (by simp)
  | start i th passes act mem idle post =>
    rw [post]
    have hlaunched : ∀ pc ∈ (t.pre.shared.ctx.threads.erase th).map (·.pc),
        pc ∈ t.pre.shared.ctx.threads.map (·.pc) := fun _ hpc =>
      List.map_subset _ List.erase_subset hpc
    by_cases hpc : th.pc = .forceShutdownDesktop
    · rw [hpc]
      refine ⟨_, keepsDuties_put hg.keeps (Worker.follows_run_force passes), ?_,
        fun hth => hg.launched (hlaunched _ hth)⟩
      exact sure_update hg.sure fun _ => hg.launched (List.mem_map.mpr ⟨th, mem, hpc⟩)
    · refine ⟨_, keepsDuties_put hg.keeps (Worker.mindful_run passes hpc), ?_,
        fun hth => hg.launched (hlaunched _ hth)⟩
      exact sure_update hg.sure (by simp)
  | op i e o k a v act next exec post =>
    rw [post]
    exact guarded_op act next exec hg ht
  | restart e act post =>
    rw [post]
    exact guarded_atRest (Ctx.reset_frame e).2.1

omit [DecidableEq ι] in
/-- **A push is made in `shutting_down`.** -/
theorem Guarded.mode_of_shutsDesktop (hg : Guarded t.pre) (hs : ShutsDesktop t) :
    t.pre.mode = .shuttingDown := by
  obtain ⟨q, hg⟩ := hg
  obtain ⟨i, o, ⟨-, hhead⟩, ho⟩ := hs
  have hkeeps := hg.keeps i
  cases hp : t.pre.threads i with
  | ret a => rw [hp] at hhead; cases hhead
  | op o' k =>
    rw [hp] at hhead hkeeps
    obtain rfl := Option.some.inj hhead
    exact hg.mode_of_allowed hkeeps.1 (.inl ho)

/-! ## Who cancels -/

/-- A `critical_shutdown` on file is still to be cancelled by thread `i`. -/
def Cancels (i : ι) (w : Crew ι) : Prop :=
  w.shared.ctx.StoresShutdown → ∃ q : Duty, q.Owes ∧ KeepsDuties q (w.threads i)

omit [DecidableEq ι] in
theorem Cancels.not_storesShutdown (h : Cancels i w) (hi : w.threads i = .ret ()) :
    ¬w.shared.ctx.StoresShutdown := by
  intro hs
  obtain ⟨q, hq, hkeeps⟩ := h hs
  rw [hi] at hkeeps
  exact hq.not_done hkeeps.1

/-- **In idle no `critical_shutdown` is stored.** -/
theorem storesShutdown_of_step (h : (contextServer ι d).Takes t) (hg : Guarded t.pre)
    (hm : t.pre.mode = .idle) (hs : t.post.shared.ctx.StoresShutdown) :
    t.pre.shared.ctx.StoresShutdown := by
  cases serverStep h with
  | call i r act handler idle post =>
    rw [post] at hs
    exact hs
  | start i th passes act mem idle post =>
    rw [post] at hs
    exact hs
  | op i e o k a v act next exec post =>
    obtain ⟨cmd, hcmd, hshuts⟩ := hs
    have hcommand := (WorkerOp.exec_spec exec).command
    rw [post, Crew.shared_put] at hcmd
    cases ho : o.saved with
    | none => exact ⟨cmd, by rw [← hcmd, hcommand, ho]; rfl, hshuts⟩
    | some cmd' =>
      obtain rfl : cmd' = cmd := by
        rw [ho] at hcommand
        exact Option.some.inj (hcommand.symm.trans hcmd)
      have hpush : ShutsDesktop t :=
        ⟨i, o, ⟨⟨e, act⟩, by rw [next]; rfl⟩, WorkerOp.shutsDesktop_of_saved ho hshuts⟩
      exact absurd (hm.symm.trans (hg.mode_of_shutsDesktop hpush)) (by decide)
  | restart e act post =>
    rw [post] at hs
    exact absurd hs Ctx.not_storesShutdown_reset

theorem cancels_step (h : (contextServer ι d).Takes t) (hg : Guarded t.pre)
    (hm : t.pre.mode = .idle) (hm' : t.post.mode = .idle) (hc : Cancels i t.pre) :
    Cancels i t.post := by
  intro hs
  have hpre := storesShutdown_of_step h hg hm hs
  obtain ⟨q, hq, hkeeps⟩ := hc hpre
  have hbusy : t.pre.threads i ≠ .ret () := fun hi => hc.not_storesShutdown hi hpre
  cases serverStep h with
  | call j r act handler idle post =>
    have hij : i ≠ j := fun hij => hbusy (hij ▸ idle)
    exact ⟨q, hq, by rwa [post, Crew.threads_put_of_ne hij]⟩
  | start j th passes act mem idle post =>
    have hij : i ≠ j := fun hij => hbusy (hij ▸ idle)
    exact ⟨q, hq, by rwa [post, Crew.threads_put_of_ne hij]⟩
  | op j e o k a v act next exec post =>
    by_cases hij : i = j
    · subst hij
      rw [next] at hkeeps
      rw [post] at hs hm' ⊢
      have hsaved : o.saved = none := by
        cases ho : o.saved with
        | none => rfl
        | some cmd =>
          -- a thread that owes a cancellation saves no `critical_shutdown`
          obtain ⟨cmd', hcmd, hshuts⟩ := hs
          have hcommand : v.ctx.command = some cmd := by
            rw [(WorkerOp.exec_spec exec).command, ho]
            rfl
          obtain rfl := Option.some.inj (hcommand.symm.trans hcmd)
          refine absurd (WorkerOp.shutsDesktop_of_saved ho hshuts) (hkeeps.1.resolve_left ?_).1
          rcases hq with rfl | rfl <;> simp
      obtain ⟨cmd, hcmd, hshuts⟩ := hpre
      have howes : (Duty.next q o a).Owes :=
        Duty.owes_next exec hq hm hm' ⟨cmd, hcmd, hshuts.1⟩ hsaved
      refine ⟨_, howes, ?_⟩
      rw [Crew.threads_put_self]
      exact hkeeps.2 a trivial
    · exact ⟨q, hq, by rwa [post, Crew.threads_put_of_ne hij]⟩
  | restart e act post =>
    rw [post] at hs
    exact absurd hs Ctx.not_storesShutdown_reset

/-- **Once the idle record is written**, its thread cancels. -/
theorem cancels_of_writesIdle {o : WorkerOp} (h : (contextServer ι d).Takes t)
    (hg : Guarded t.pre) (hp : Performs t i o) (ho : o.WritesIdle) : Cancels i t.post := by
  obtain ⟨q, hg⟩ := hg
  obtain ⟨⟨e, act⟩, hhead⟩ := hp
  intro _
  cases serverStep h with
  | call j r act' => cases act'.symm.trans act
  | start j th passes act' => cases act'.symm.trans act
  | restart e' act' => cases act'.symm.trans act
  | op j e' o' k a v act' next exec post =>
    obtain ⟨rfl, -⟩ := Turn.op.inj (act'.symm.trans act)
    rw [next] at hhead
    obtain rfl := Option.some.inj hhead
    have hkeeps : KeepsDuties (q j) (.op o' k) := next ▸ hg.keeps j
    refine ⟨.toRead, .inl rfl, ?_⟩
    rw [post, Crew.threads_put_self, ← Duty.next_of_writesIdle (a := a) ho]
    exact hkeeps.2 a trivial

theorem reaches_step {P : WorkerOp → Prop} (h : (contextServer ι d).Takes t)
    (he : ∀ e, t.act ≠ .restart e) (hP : ∀ o, Performs t i o → ¬P o)
    (hr : (t.pre.threads i).Reaches P) : (t.post.threads i).Reaches P := by
  have hbusy : t.pre.threads i ≠ .ret () := fun hi => by rwa [hi] at hr
  have hother : ∀ {j p u}, i ≠ j → ((t.pre.put j p u).threads i).Reaches P := fun hij => by
    rwa [Crew.threads_put_of_ne hij]
  cases serverStep h with
  | call j r act handler idle post =>
    rw [post]
    exact hother fun hij => hbusy (hij ▸ idle)
  | start j th passes act mem idle post =>
    rw [post]
    exact hother fun hij => hbusy (hij ▸ idle)
  | op j e o k a v act next exec post =>
    rw [post]
    by_cases hij : i = j
    · subst hij
      rw [next] at hr
      rw [Crew.threads_put_self]
      exact hr.resolve_left (hP o ⟨⟨e, act⟩, by rw [next]; rfl⟩) a
    · exact hother hij
  | restart e act post => exact absurd act (he e)

theorem reaches_resetToIdle (reason : String) :
    (Handler.asWorker (Handler.resetToIdle reason)).Reaches WorkerOp.WritesIdle :=
  .inr fun _ => .inr fun _ => .inr fun _ => .inr fun _ => .inl rfl

/-- **A `_reset_to_idle` that returns** has written an idle record. -/
theorem writesIdle_of_reset {tr : List (Crew.Step ι)} {reason : String}
    (h : (contextServer ι d).Takes t) (act : t.act = .call i (.power (.reset reason)))
    (hr : Run (contextServer ι d) t.post tr w) (he : ∀ t' ∈ tr, ∀ e, t'.act ≠ .restart e)
    (hi : w.threads i = .ret ()) : ∃ t' ∈ tr, ∃ o, Performs t' i o ∧ o.WritesIdle := by
  by_contra hnone
  have hstart : (t.post.threads i).Reaches WorkerOp.WritesIdle := by
    cases serverStep h with
    | call j r act' handler idle post =>
      obtain ⟨rfl, rfl⟩ := Turn.call.inj (act'.symm.trans act)
      rw [post, Crew.threads_put_self]
      exact reaches_resetToIdle reason
    | start j th passes act' => cases act'.symm.trans act
    | op j e o k a v act' => cases act'.symm.trans act
    | restart e act' => cases act'.symm.trans act
  have hlast : (w.threads i).Reaches WorkerOp.WritesIdle := hr.invWhen
    (I := fun w => (w.threads i).Reaches WorkerOp.WritesIdle)
    (C := fun t => (∀ e, t.act ≠ .restart e) ∧ ∀ o, Performs t i o → ¬o.WritesIdle)
    (fun _ ht hC => reaches_step ht hC.1 hC.2) hstart
    fun t' ht' => ⟨he t' ht', fun o hp ho => hnone ⟨t', ht', o, hp, ho⟩⟩
  rw [hi] at hlast
  exact hlast

/-- In idle, with the threads keeping to the protocol, what thread `i` has to cancel stays so. -/
theorem cancels_run {tr : List (Crew.Step ι)} (h : Run (contextServer ι d) w tr w')
    (hn : ∀ t ∈ tr, ¬OvertakesPush t) (hidle : ∀ t ∈ tr, t.post.mode = .idle)
    (hw : Guarded w ∧ w.mode = .idle ∧ Cancels i w) :
    Guarded w' ∧ w'.mode = .idle ∧ Cancels i w' := by
  refine h.invWhen (I := fun w => Guarded w ∧ w.mode = .idle ∧ Cancels i w)
    (C := fun t => ¬OvertakesPush t ∧ t.post.mode = .idle) ?_ hw fun t ht => ⟨hn t ht, hidle t ht⟩
  rintro t ht ⟨hn, hidle⟩ ⟨hg, hm, hc⟩
  exact ⟨guarded_step ht hn hg, hidle, cancels_step ht hg hm hidle hc⟩

/-- **Nothing is stored once the reset has returned.** -/
theorem not_storesShutdown_of_resetReturned {u : Crew ι} {tr : List (Crew.Step ι)}
    (h : Run (contextServer ι d) u tr w) (hu : Guarded u) (hn : ∀ t ∈ tr, ¬OvertakesPush t)
    (hr : ResetReturned tr) : w.mode = .idle ∧ ¬w.shared.ctx.StoresShutdown := by
  obtain ⟨i, o, tr₁, t, tr₂, t', tr₃, rfl, hp, ho, hidle, hret⟩ := hr
  obtain ⟨h₁, ht, h'⟩ := h.around
  obtain ⟨h₂, ht', h₃⟩ := h'.around
  simp only [List.mem_append, List.mem_cons] at hn hidle
  have hpre : Guarded t.pre := h₁.invWhen (I := Guarded) (C := fun t => ¬OvertakesPush t)
    (fun _ ht hn => guarded_step ht hn) hu fun t ht => hn t (.inl ht)
  -- the thread of the reset cancels from its write to its return
  have hwrite : Guarded t.post ∧ t.post.mode = .idle ∧ Cancels i t.post :=
    ⟨guarded_step ht (hn t (by simp)) hpre, hidle t (by simp), cancels_of_writesIdle ht hpre hp ho⟩
  obtain ⟨hg₂, hm₂, hc₂⟩ := cancels_run h₂ (fun t h => hn t (by simp [h]))
    (fun t h => hidle t (by simp [h])) hwrite
  have hm' : t'.post.mode = .idle := hidle t' (by simp)
  have hc' : Cancels i t'.post := cancels_step ht' hg₂ hm₂ hm' hc₂
  have hnone : ¬t'.post.shared.ctx.StoresShutdown := hc'.not_storesShutdown hret
  have hg' : Guarded t'.post := guarded_step ht' (hn t' (by simp)) hg₂
  -- and then nobody stores one in idle
  obtain ⟨-, hm, hnone⟩ := h₃.invWhen
    (I := fun w => Guarded w ∧ w.mode = .idle ∧ ¬w.shared.ctx.StoresShutdown)
    (C := fun t => ¬OvertakesPush t ∧ t.post.mode = .idle)
    (fun t ht hC hI => ⟨guarded_step ht hC.1 hI.1, hC.2,
      fun hs => hI.2.2 (storesShutdown_of_step ht hI.1 hI.2.1 hs)⟩)
    ⟨hg', hm', hnone⟩ fun t h => ⟨hn t (by simp [h]), hidle t (by simp [h])⟩
  exact ⟨hm, hnone⟩

/-- **A recovery cancels the desktop shutdown**, in every run without a step that overtakes a push. -/
theorem recoveryCancelsShutdown (x : Execution (contextServer ι d))
    (hx : ∀ t ∈ x.steps, ¬OvertakesPush t) : RecoveryCancelsShutdown x := by
  have hstart : Guarded x.start := guarded_of_init x.init
  have houtage : ∀ t ∈ x.steps, ShutsDesktop t → t.pre.mode = .shuttingDown := fun t ht =>
    x.run.forall_of_inv (I := Guarded) (C := fun t => ¬OvertakesPush t)
      (fun _ ht hn => guarded_step ht hn) (fun _ _ _ hg => hg.mode_of_shutsDesktop) hstart hx t ht
  have hpast : ∀ {tr₁ tr₂ w}, x.steps = tr₁ ++ tr₂ → Run (contextServer ι d) x.start tr₁ w →
      ResetReturned tr₁ → w.mode = .idle ∧ ¬w.shared.ctx.StoresShutdown := fun htr hrun =>
    not_storesShutdown_of_resetReturned hrun hstart fun t ht =>
      hx t (htr ▸ List.mem_append_left _ ht)
  refine ⟨houtage, fun tr₁ t tr₂ u tr₃ i reason htr act he hi => ?_, fun tr₁ t tr₂ htr hr hs => ?_,
    fun tr₁ tr₂ w htr hrun hr ts => ?_⟩
  · have hrun := x.run
    rw [htr] at hrun
    obtain ⟨-, ht, hrun⟩ := hrun.around
    obtain ⟨h₂, hu, -⟩ := hrun.around
    exact writesIdle_of_reset ht act (h₂.append (Run.single hu)) he hi
  · have hrun := x.run
    rw [htr] at hrun
    have hidle := (hpast htr hrun.around.1 hr).1
    have hmode := houtage t (htr ▸ List.mem_append_right _ List.mem_cons_self) hs
    exact absurd (hidle.symm.trans hmode) (by decide)
  · exact Ctx.preflight_ne_allow (hpast htr hrun hr).2 ts

/-- The clock and the desktop's answer, without other contexts. -/
def alone (now : Int) (agent : Option DesktopState := none) : Env × Peers :=
  (.at now agent, ⟨false, []⟩)

/-- What a worker saves when the clock says `ts`. -/
def shutdownAt (ts : Int) : Command where
  id := "shutdown-" ++ toString ts
  command := "critical_shutdown"
  issuedAt := ts

/-- The server over empty files. -/
def freshServer : Crew Bool := Crew.atRest (({} : Ctx).resetStateOnStartup (.at 0))

/-- Nobody but the thread of the step is at work, and no push has been launched. -/
def undisturbed (t : Crew.Step Bool) : Bool :=
  match t.act with
  | .op i _ => (t.pre.threads !i).head.isNone &&
      t.pre.shared.ctx.threads.all (·.pc ≠ .forceShutdownDesktop)
  | _ => true

theorem not_overtakesPush_of_undisturbed {t : Crew.Step Bool} (h : undisturbed t = true) :
    ¬OvertakesPush t := by
  rintro ⟨-, i, o, orch, ⟨⟨e, act⟩, -⟩, -, -, hpush⟩
  rw [undisturbed, act, Bool.and_eq_true, List.all_eq_true] at h
  rcases hpush with ⟨j, hj, hun⟩ | ⟨th, hth, hpc⟩
  · obtain rfl : j = !i := Bool.eq_not.mpr hj
    have hhead := Option.isNone_iff_eq_none.mp h.1
    cases hp : t.pre.threads !i with
    | ret a => rw [hp] at hun; exact hun
    | op o k => rw [hp] at hhead; cases hhead
  · exact absurd hpc (by simpa using h.2 th hth)

/-- Low battery with the desktop online: `ONLINE` is handled after the push. -/
def restoreAfterPush : List (Turn Bool) :=
  .call false (.power (.event .lowbatt)) :: .replicate 26 (.op false (alone 0 online)) ++
    .start true ⟨0, .forceShutdownDesktop⟩ 1 :: .replicate 4 (.op true (alone 1)) ++
    .call false (.power (.event .online)) :: .replicate 14 (.op false (alone 2))

theorem recoveryCancelsShutdown_afterPush : ∃ x : Execution (contextServer Bool homeUps),
    .pushCommand (shutdownAt 1) ∈ x.last.shared.ctx.out ∧ x.last.mode = .idle ∧
      RecoveryCancelsShutdown x := by
  obtain ⟨x, hx, hpushed, hidle⟩ := exists_execution_at (S := contextServer Bool homeUps)
    (u := freshServer) restoreAfterPush (P := fun tr w => (∀ t ∈ tr, undisturbed t = true) ∧
      .pushCommand (shutdownAt 1) ∈ w.shared.ctx.out ∧ w.mode = .idle)
    ⟨.at 0, {}, rfl⟩ (by decide)
  exact ⟨x, hpushed, hidle,
    recoveryCancelsShutdown x fun t ht => not_overtakesPush_of_undisturbed (hx t ht)⟩

/-! ## Power comes back while a push is under way -/

theorem exists_not_cancelled {turns : List (Turn Bool)} {now : Int} (ts : Int)
    (h : ((exec (contextServer Bool homeUps) freshServer (turns ++ [.op true (alone now)])).any
      fun r => r.1.getLast?.any fun t => decide (t.pre.mode = .idle ∧
        (t.pre.threads true).head.bind WorkerOp.saved = some (shutdownAt ts))) = true) :
    ∃ x : Execution (contextServer Bool homeUps),
      x.steps.map (·.act) = turns ++ [.op true (alone now)] ∧ ¬RecoveryCancelsShutdown x := by
  obtain ⟨x, tr, t, hx, hacts, hact, hm, hsaved⟩ := exists_execution_last
    (S := contextServer Bool homeUps) turns _
    (P := fun _ t => t.pre.mode = .idle ∧
      (t.pre.threads true).head.bind WorkerOp.saved = some (shutdownAt ts))
    ⟨.at 0, {}, rfl⟩ h
  obtain ⟨o, hhead, hsaved⟩ := Option.bind_eq_some_iff.mp hsaved
  refine ⟨x, by rw [hx, List.map_append, hacts, List.map_singleton, hact], fun hr => ?_⟩
  have hpush : ShutsDesktop t :=
    ⟨true, o, ⟨⟨_, hact⟩, hhead⟩, WorkerOp.shutsDesktop_of_saved hsaved ⟨rfl, rfl, ts, rfl⟩⟩
  exact absurd (hm.symm.trans (hr.outage t (hx ▸ by simp) hpush)) (by decide)

/-- Low battery with the desktop online: `ONLINE` is handled before the worker starts. -/
def restoreBeforeStart : List (Turn Bool) :=
  .call false (.power (.event .lowbatt)) :: .replicate 26 (.op false (alone 0 online)) ++
    .call false (.power (.event .online)) :: .replicate 14 (.op false (alone 1)) ++
    .start true ⟨0, .forceShutdownDesktop⟩ 1 :: .replicate 2 (.op true (alone 2))

/-- Low battery with the desktop asleep: `ONLINE` is handled after the worker's last check. -/
def restoreAfterCheck : List (Turn Bool) :=
  .call false (.power (.event .lowbatt)) :: .replicate 21 (.op false (alone 0)) ++
    .start true ⟨0, .wakeThenShutdown⟩ 2 :: .replicate 3 (.op true (alone 0)) ++
    .replicate 2 (.op true (alone 900)) ++
    .call false (.power (.event .online)) :: .replicate 12 (.op false (alone 901)) ++
    .replicate 2 (.op true (alone 902))

theorem not_recoveryCancelsShutdown :
    (∃ x : Execution (contextServer Bool homeUps),
      x.steps.map (·.act) = restoreBeforeStart ++ [.op true (alone 2)] ∧
        ¬RecoveryCancelsShutdown x) ∧
    ∃ x : Execution (contextServer Bool homeUps),
      x.steps.map (·.act) = restoreAfterCheck ++ [.op true (alone 902)] ∧
        ¬RecoveryCancelsShutdown x :=
  ⟨exists_not_cancelled 2 (by decide), exists_not_cancelled 902 (by decide)⟩

/-! ## Every overtaken push can come late -/

theorem WorkerOp.exists_exec {o : WorkerOp} (h : o.passes = true) (a : o.Ans) (u : Shared) :
    ∃ e v, o.exec e u = some (a, v) := by
  cases o with
  | handler o =>
    cases o with
    | getOrchestratorState => cases h
    | saveOrchestratorState orch => cases h
    | getDesktopState => cases h
    | getCommand => cases h
    | getUpsOnBattery => cases h
    | acquire lock => cases h
    | requestState => exact ⟨alone 0 a, u, rfl⟩
    | desktopUpsOnBattery => exact ⟨(.at 0, ⟨a, []⟩), u, rfl⟩
    | nowTs r => exact ⟨alone a, u, rfl⟩
    | release lock => cases lock <;> exact ⟨alone 0, _, rfl⟩
    | _ => exact ⟨alone 0, _, rfl⟩
  | ownerless => exact ⟨(.at 0, ⟨false, if a then [] else [⟨a, a⟩]⟩), u, by cases a <;> rfl⟩
  | reportsDesktopDown => exact ⟨(.at 0, ⟨false, [⟨a, false⟩]⟩), u, by cases a <;> rfl⟩
  | finishedDesktopHandling => exact ⟨(.at 0, ⟨false, [⟨false, a⟩]⟩), u, by cases a <;> rfl⟩
  | readUpsStatus => exact ⟨(.at 0 none a, ⟨false, []⟩), u, rfl⟩
  | _ => exact ⟨alone 0, _, rfl⟩

variable (d) in
/-- `critical_shutdown` can still be stored or pushed outside `shutting_down`. -/
def CanPushLate (w : Crew ι) : Prop := ∃ tr w', Run (contextServer ι d) w tr w' ∧
  ∃ t ∈ tr, ShutsDesktop t ∧ t.pre.mode ≠ .shuttingDown

theorem CanPushLate.of_step (h : (contextServer ι d).Takes t) (hc : CanPushLate d t.post) :
    CanPushLate d t.pre := by
  obtain ⟨tr, w, hr, t', ht', hpush⟩ := hc
  exact ⟨_, w, (Run.single h).append hr, t', List.mem_append_right _ ht', hpush⟩

theorem takes_op {e : Env × Peers} {o : WorkerOp} {k : o.Ans → Worker Unit} {a : o.Ans} {v : Shared}
    (next : w.threads i = .op o k) (exec : o.exec e w.shared = some (a, v)) :
    (contextServer ι d).Takes ⟨w, .op i e, w.put i (k a) v⟩ :=
  Pool.step_op next exec

theorem canPushLate_of_shutsDesktop {o : WorkerOp} {k : o.Ans → Worker Unit}
    (hm : w.mode ≠ .shuttingDown) (next : w.threads i = .op o k) (ho : o.ShutsDesktop) :
    CanPushLate d w := by
  have hexec : ∃ a e v, o.exec e w.shared = some (a, v) := by
    unfold WorkerOp.ShutsDesktop at ho
    split at ho
    · exact ⟨(), alone 0, _, rfl⟩
    · exact ⟨(), alone 0, _, rfl⟩
    · exact ho.elim
  obtain ⟨a, e, v, hexec⟩ := hexec
  have ht := takes_op (d := d) next hexec
  have hperforms : Performs ⟨w, .op i e, w.put i (k a) v⟩ i o := ⟨⟨e, rfl⟩, by rw [next]; rfl⟩
  exact ⟨_, _, Run.single ht, _, List.mem_singleton_self _, ⟨i, o, hperforms, ho⟩, hm⟩

theorem canPushLate_of_passes {o : WorkerOp} {k : o.Ans → Worker Unit} (a : o.Ans)
    (hm : w.mode ≠ .shuttingDown) (next : w.threads i = .op o k) (ho : o.passes = true)
    (h : ∀ v : Shared, v.ctx.mode ≠ .shuttingDown → v.ctx.threads.map (·.pc) =
      w.shared.ctx.threads.map (·.pc) ++ o.launched.toList → CanPushLate d (w.put i (k a) v)) :
    CanPushLate d w := by
  obtain ⟨e, v, hexec⟩ := WorkerOp.exists_exec ho a w.shared
  have hspec := WorkerOp.exec_spec hexec
  have hmode : v.ctx.mode = w.mode := by
    rw [Ctx.mode, hspec.orch, WorkerOp.written_of_passes ho]
    rfl
  exact .of_step (takes_op next hexec) (h v (hmode ▸ hm) hspec.threads)

theorem canPushLate_of_launched {th : Thread} (hm : w.mode ≠ .shuttingDown)
    (hth : th ∈ w.shared.ctx.threads) (hpc : th.pc = .forceShutdownDesktop)
    (hj : w.threads j = .ret ()) : CanPushLate d w := by
  have hstart : (contextServer ι d).Takes ⟨w, .start j th 1,
      w.put j (Worker.run d 1 th.pc) (w.shared.started th)⟩ := by
    show Crew.turn d w (.start j th 1) = _
    rw [Crew.turn, if_pos hth, Crew.takeUp]
    simp only [hj]
  refine .of_step hstart ?_
  show CanPushLate d (w.put j (Worker.run d 1 th.pc) (w.shared.started th))
  rw [hpc]
  refine canPushLate_of_passes (0 : Int) hm Crew.threads_put_self rfl fun v hv _ => ?_
  refine canPushLate_of_passes (0 : Int) hv Crew.threads_put_self rfl fun v hv _ => ?_
  exact canPushLate_of_shutsDesktop hv Crew.threads_put_self ⟨rfl, rfl, 0, rfl⟩

/-- The threads at work. -/
def Crew.busy (w : Crew ι) : Set ι := {i | w.threads i ≠ .ret ()}

theorem Crew.finite_busy_put {p : Worker Unit} {u : Shared} (h : w.busy.Finite) :
    (w.put i p u).busy.Finite := by
  refine (h.insert i).subset fun j hj => ?_
  by_cases hji : j = i
  · exact .inl hji
  · exact .inr fun hret => hj ((Crew.threads_put_of_ne hji).trans hret)

theorem finite_busy (h : (contextServer ι d).Reachable w) : w.busy.Finite := by
  have hrest : ∀ c : Ctx, (Crew.atRest c : Crew ι).busy.Finite := fun c => by
    simp [Crew.busy, Crew.atRest]
  refine h.inv (I := fun w => w.busy.Finite) ?_ fun t ht hI => ?_
  · rintro u ⟨e, disk, rfl⟩
    exact hrest _
  · cases serverStep ht with
    | call i r act handler idle post => rw [post]; exact Crew.finite_busy_put hI
    | start i th passes act mem idle post => rw [post]; exact Crew.finite_busy_put hI
    | op i e o k a v act next exec post => rw [post]; exact Crew.finite_busy_put hI
    | restart e act post => rw [post]; exact hrest _

variable [Infinite ι]

omit [DecidableEq ι] in
theorem exists_idle (h : w.busy.Finite) : ∃ j, w.threads j = .ret () := by
  obtain ⟨j, hj⟩ := h.infinite_compl.nonempty
  exact ⟨j, not_not.mp hj⟩

/-- **A thread that is unguarded outside `shutting_down`** can push. -/
theorem canPushLate_of_unguarded {p : Worker Unit} (hp : Unguarded p) :
    ∀ w : Crew ι, w.threads i = p → w.mode ≠ .shuttingDown → w.busy.Finite → CanPushLate d w := by
  induction p with
  | ret a => exact hp.elim
  | op o k ih =>
    intro w next hm hfin
    rcases hp with hs | hl | ⟨ho, a, ha⟩
    · exact canPushLate_of_shutsDesktop hm next hs
    · obtain rfl := WorkerOp.of_launchesPush hl
      refine canPushLate_of_passes () hm next rfl fun v hv hthreads => ?_
      have hmem : .forceShutdownDesktop ∈ v.ctx.threads.map (·.pc) := by
        rw [hthreads]
        exact List.mem_append_right _ (List.mem_singleton_self _)
      obtain ⟨th, hth, hpc⟩ := List.mem_map.mp hmem
      obtain ⟨j, hj⟩ := exists_idle (Crew.finite_busy_put (i := i) (p := k ()) (u := v) hfin)
      exact canPushLate_of_launched hv hth hpc hj
    · exact canPushLate_of_passes a hm next ho fun v hv _ =>
        ih a ha _ Crew.threads_put_self hv (Crew.finite_busy_put hfin)

/-- **Every step that overtakes a push** can be followed by one outside `shutting_down`. -/
theorem canPushLate_of_overtakesPush (hw : (contextServer ι d).Reachable t.pre)
    (ht : (contextServer ι d).Takes t) (ho : OvertakesPush t) : CanPushLate d t.post := by
  obtain ⟨-, i, o, orch, ⟨⟨e, act⟩, hhead⟩, hwritten, hm, hpush⟩ := ho
  have hfin : t.post.busy.Finite := finite_busy (hw.run (Run.single ht))
  cases serverStep ht with
  | call j r act' => cases act'.symm.trans act
  | start j th passes act' => cases act'.symm.trans act
  | restart e' act' => cases act'.symm.trans act
  | op j e' o' k a v act' next exec post =>
    obtain ⟨rfl, -⟩ := Turn.op.inj (act'.symm.trans act)
    rw [next] at hhead
    obtain rfl := Option.some.inj hhead
    have hspec := WorkerOp.exec_spec exec
    have hmode : t.post.mode ≠ .shuttingDown := by
      rw [Crew.mode, Ctx.mode, post, Crew.shared_put, hspec.orch, hwritten]
      exact hm
    rcases hpush with ⟨j', hj', hun⟩ | ⟨th, hth, hpc⟩
    · refine canPushLate_of_unguarded (i := j') hun t.post ?_ hmode hfin
      rw [post, Crew.threads_put_of_ne hj']
    · have hmem : .forceShutdownDesktop ∈ t.post.shared.ctx.threads.map (·.pc) := by
        rw [post, Crew.shared_put, hspec.threads]
        exact List.mem_append_left _ (List.mem_map.mpr ⟨th, hth, hpc⟩)
      obtain ⟨th', hth', hpc'⟩ := List.mem_map.mp hmem
      obtain ⟨j', hj'⟩ := exists_idle hfin
      exact canPushLate_of_launched hmode hth' hpc' hj'

end UpsOrchestrator

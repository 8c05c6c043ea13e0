import UpsOrchestrator.Moves

/-!
# Steps of the site

A step of the site as one context sees it, and what holds of every context that can be reached.

* `CtxStep`: a handler call, a worker step, a call on another context or a restart;
  **`ctxStep`**: every step of the site is one of these for every context.
* `Ctx.Sound`: the threads fit the role and have their own ids, a context at rest has nothing
  scheduled and one in monitoring has its timer armed; **`Reachable.sound`**.
-/

set_option autoImplicit false

namespace UpsOrchestrator

open Lts

/-- A step of the site, with the worlds before and after. -/
abbrev Step (s : Site) : Type := Transition (World s) (Action s)

variable {s : Site} {t : Step s}

theorem step_call {w w' : World s} {i : s.Ix} {e : Env} {k : Call}
    (h : w.step (.call i e k) = some w') : w.now ≤ e.start ∧ ∃ c,
      k.exec (s.dev i) (w.peersOf i) e (w.ctx i).quiet = some c ∧
        w' = ⟨e.stop, Function.update w.quiet i c⟩ := by
  simp only [World.step, Option.ite_none_right_eq_some, Option.map_eq_some_iff] at h
  obtain ⟨hle, c, hc, rfl⟩ := h
  exact ⟨hle, c, hc, rfl⟩

theorem step_restart {w w' : World s} {e : Env} (h : w.step (.restart e) = some w') :
    w.now ≤ e.start ∧
      w' = ⟨e.stop, fun j => ((w.ctx j).quiet.reboot).resetStateOnStartup e⟩ := by
  simp only [World.step, Option.ite_none_right_eq_some, Option.some.injEq] at h
  exact ⟨h.1, h.2.symm⟩

theorem now_step (h : (system s).Takes t) :
    t.pre.now ≤ t.act.env.start ∧ t.post.now = t.act.env.stop := by
  obtain ⟨w, a, w'⟩ := t
  change w.step a = some w' at h
  cases a with
  | restart e =>
    obtain ⟨hle, rfl⟩ := step_restart h
    exact ⟨hle, rfl⟩
  | call i e k =>
    obtain ⟨hle, c, -, rfl⟩ := step_call h
    exact ⟨hle, rfl⟩

theorem Env.start_le_stop (e : Env) : e.start ≤ e.stop := (e.start_le .note).trans (e.le_stop .note)

theorem ctx_of_restart (h : (system s).Takes t) {e : Env} (hact : t.act = .restart e) (i : s.Ix) :
    t.post.ctx i = ((t.pre.ctx i).quiet.reboot).resetStateOnStartup e := by
  rw [System.Takes, hact] at h
  obtain ⟨-, hw⟩ := step_restart h
  exact congrArg (fun w : World s => w.ctx i) hw

/-- The worker thread of context `i` that the action lets take a step. -/
def Action.workerOf (i : s.Ix) : Action s → Option ℕ
  | .call j _ (.worker id) => if j = i then some id else none
  | _ => none

theorem exec_of_act (h : (system s).Takes t) {i : s.Ix} {e : Env} {k : Call}
    (hact : t.act = .call i e k) :
    k.exec (s.dev i) (t.pre.peersOf i) e (t.pre.ctx i).quiet = some (t.post.ctx i) := by
  rw [System.Takes, hact] at h
  obtain ⟨-, c, hc, hw⟩ := step_call h
  have hpost : t.post.ctx i = c := by rw [hw]; exact Function.update_self ..
  rw [hpost]
  exact hc

/-- The worker `th` of context `i` takes a step and leaves `c` and its next position `pc`. -/
structure WorkerStep (t : Step s) (i : s.Ix) (e : Env) (th : Thread) (c : Ctx) (pc : Option Pc) :
    Prop where
  act : t.act = .call i e (.worker th.id)
  mem : th ∈ (t.pre.ctx i).threads
  seg : Ctx.segment (s.dev i) (t.pre.peersOf i) e (t.pre.ctx i).quiet th.pc = (c, pc)
  outcome : Ctx.SegmentOutcome (s.dev i) (t.pre.peersOf i) e (t.pre.ctx i).quiet th.pc c pc
  threads : c.threads = (t.pre.ctx i).threads
  spawned : c.spawned = (t.pre.ctx i).spawned
  power : c.upsOnBattery = (t.pre.ctx i).upsOnBattery
  post : t.post.ctx i = c.resume th.id pc

theorem WorkerStep.workerOf {i : s.Ix} {e : Env} {th : Thread} {c : Ctx} {pc : Option Pc}
    (h : WorkerStep t i e th c pc) : t.act.workerOf i = some th.id := by
  rw [h.act]
  exact if_pos rfl

/-- **A step of the site, as context `i` sees it.** -/
inductive CtxStep (t : Step s) (i : s.Ix) : Prop
  | handler (e : Env) (k : Call) (act : t.act = .call i e k) (hk : ∀ id, k ≠ .worker id)
      (exec : k.exec (s.dev i) (t.pre.peersOf i) e (t.pre.ctx i).quiet = some (t.post.ctx i))
  | worker (e : Env) (th : Thread) (c : Ctx) (pc : Option Pc) (step : WorkerStep t i e th c pc)
  | other (j : s.Ix) (e : Env) (k : Call) (act : t.act = .call j e k) (hj : i ≠ j)
      (post : t.post.ctx i = (t.pre.ctx i).quiet)
  | restart (e : Env) (act : t.act = .restart e)
      (post : t.post.ctx i = ((t.pre.ctx i).quiet.reboot).resetStateOnStartup e)

theorem workerOf_handler {i : s.Ix} {e : Env} {k : Call} (hact : t.act = .call i e k)
    (hk : ∀ id, k ≠ .worker id) : t.act.workerOf i = none := by
  rw [hact]
  cases k with
  | worker id => exact absurd rfl (hk id)
  | _ => rfl

theorem workerOf_other {i j : s.Ix} {e : Env} {k : Call} (hact : t.act = .call j e k)
    (hj : i ≠ j) : t.act.workerOf i = none := by
  rw [hact]
  cases k with
  | worker id => exact if_neg (Ne.symm hj)
  | _ => rfl

theorem ctxStep (h : (system s).Takes t) (i : s.Ix) : CtxStep t i := by
  obtain ⟨w, a, w'⟩ := t
  change w.step a = some w' at h
  cases a with
  | restart e =>
    obtain ⟨-, rfl⟩ := step_restart h
    exact .restart e rfl rfl
  | call j e k =>
    obtain ⟨-, c, hc, rfl⟩ := step_call h
    by_cases hj : i = j
    · subst hj
      have hpost : (Function.update w.quiet i c) i = c := Function.update_self ..
      by_cases hk : ∃ id, k = .worker id
      · obtain ⟨id, rfl⟩ := hk
        obtain ⟨th, hth, rfl, he⟩ := Ctx.workerStep_eq hc
        obtain ⟨h1, h2, h3, -⟩ := Ctx.segment_frame (d := s.dev i) (p := w.peersOf i) (e := e)
          (c := (w.ctx i).quiet) th.pc
        exact .worker e th _ _
          ⟨rfl, hth, rfl, Ctx.segment_outcome th.pc, h1, h2, h3, hpost.trans he⟩
      · exact .handler e k rfl (fun id h => hk ⟨id, h⟩) (hc.trans (congrArg some hpost.symm))
    · exact .other j e k rfl hj (Function.update_of_ne hj ..)

theorem effect_cases (h : (system s).Takes t) {i : s.Ix} {eff : Effect}
    (heff : eff ∈ (t.post.ctx i).out) :
    eff.ByHandler (s.dev i) ∨ ∃ e th c pc, WorkerStep t i e th c pc ∧
      Ctx.SegmentEffect (s.dev i) (t.pre.peersOf i) e (t.pre.ctx i).quiet th.pc eff := by
  cases ctxStep h i with
  | handler e k act hk exec =>
    exact .inl (((Ctx.handlerFrame hk exec).out eff heff).resolve_left List.not_mem_nil)
  | worker e th c pc step =>
    rw [step.post] at heff
    exact .inr ⟨e, th, c, pc, step, step.outcome.effect rfl heff⟩
  | other j e k act hj post =>
    rw [post] at heff
    exact absurd heff List.not_mem_nil
  | restart e act post =>
    rw [post] at heff
    exact .inl ((Ctx.tame_resetStateOnStartup.out eff heff).resolve_left List.not_mem_nil)

/-! ## Threads -/

namespace Ctx

variable {d : UPSDeviceConfig} {c c' : Ctx} {id : ℕ} {pc : Option Pc} {th : Thread}

theorem mem_resume (h : th ∈ (c.resume id pc).threads) :
    (th ∈ c.threads ∧ th.id ≠ id) ∨ ∃ pc', pc = some pc' ∧ th = ⟨id, pc'⟩ := by
  cases pc with
  | none => exact .inl (by simpa [resume] using h)
  | some pc' =>
    simp only [resume, List.mem_map] at h
    obtain ⟨th', hth', rfl⟩ := h
    split_ifs with hid
    · exact .inr ⟨pc', rfl, rfl⟩
    · exact .inl ⟨hth', hid⟩

theorem mem_resume_of_ne (h : th ∈ c.threads) (hid : th.id ≠ id) : th ∈ (c.resume id pc).threads := by
  cases pc with
  | none => simpa [resume] using ⟨h, hid⟩
  | some pc' => exact List.mem_map.mpr ⟨th, h, if_neg hid⟩

theorem mem_resume_self {pc' : Pc} (h : th ∈ c.threads) :
    ⟨th.id, pc'⟩ ∈ (c.resume th.id (some pc')).threads := List.mem_map.mpr ⟨th, h, if_pos rfl⟩

theorem nodup_resume (h : (c.threads.map (·.id)).Nodup) :
    ((c.resume id pc).threads.map (·.id)).Nodup := by
  cases pc with
  | none => exact h.sublist (List.filter_sublist.map _)
  | some pc' =>
    have hmap : (c.resume id (some pc')).threads.map (·.id) = c.threads.map (·.id) := by
      simp only [resume, List.map_map]
      refine List.map_congr_left fun th _ => ?_
      simp only [Function.comp_apply]
      split_ifs with hid
      · exact hid.symm
      · rfl
    rw [hmap]
    exact h

/-! ## The invariant -/

/-- What holds of every context that can be reached. -/
structure Sound (d : UPSDeviceConfig) (c : Ctx) : Prop where
  fits : ∀ th ∈ c.threads, th.pc.fits d = true
  lt_spawned : ∀ th ∈ c.threads, th.id < c.spawned
  nodup : (c.threads.map (·.id)).Nodup
  resting : c.mode = .idle ∨ c.mode = .desktopHandled → c.Resting
  armed : c.mode = .monitoring → c.Armed

theorem Sound.quiet (h : c.Sound d) : c.quiet.Sound d := ⟨h.1, h.2, h.3, h.4, h.5⟩

theorem Sound.eq_of_id (h : c.Sound d) {th th' : Thread} (hth : th ∈ c.threads)
    (hth' : th' ∈ c.threads) (hid : th.id = th'.id) : th = th' :=
  List.inj_on_of_nodup_map h.nodup hth hth' hid

theorem Sound.move (h : c.Sound d) (hm : Move d c c') : c'.Sound d := by
  cases hm with
  | keep mode threads spawned orch timer =>
    refine ⟨by rw [threads]; exact h.fits, by rw [threads, spawned]; exact h.lt_spawned,
      by rw [threads]; exact h.nodup, fun hr => ?_, fun ha => ?_⟩
    · rw [mode] at hr
      have hne : c.mode ≠ .monitoring := by rcases hr with hr | hr <;> rw [hr] <;> decide
      obtain ⟨h1, h2, h3, h4⟩ := h.resting hr
      rw [Resting, orch hne, timer (.inr h4)]
      exact ⟨h1, h2, h3, h4⟩
    · rw [mode] at ha
      rw [Armed, timer (.inl ha)]
      exact h.armed ha
  | start mode mode' threads spawned timer =>
    refine ⟨by rw [threads]; exact h.fits, by rw [threads, spawned]; exact h.lt_spawned,
      by rw [threads]; exact h.nodup, fun hr => ?_, fun _ => timer⟩
    rw [mode'] at hr
    simp at hr
  | strike pc mode mode' threads spawned fits =>
    refine ⟨?_, ?_, ?_, fun hr => ?_, fun ha => ?_⟩
    · intro th hth
      rw [threads] at hth
      rcases List.mem_append.mp hth with hth | hth
      · exact h.fits th hth
      · obtain rfl := List.mem_singleton.mp hth
        exact fits
    · intro th hth
      rw [threads] at hth
      rw [spawned]
      rcases List.mem_append.mp hth with hth | hth
      · exact (h.lt_spawned th hth).trans (Nat.lt_succ_self _)
      · obtain rfl := List.mem_singleton.mp hth
        exact Nat.lt_succ_self _
    · rw [threads, List.map_append, List.map_singleton]
      refine h.nodup.append (List.nodup_singleton _) fun id hid hid' => ?_
      obtain ⟨th, hth, rfl⟩ := List.mem_map.mp hid
      exact absurd (List.mem_singleton.mp hid') (h.lt_spawned th hth).ne
    · rw [mode'] at hr
      simp at hr
    · rw [mode'] at ha
      simp at ha
  | standDown mode mode' threads spawned rest command =>
    refine ⟨by rw [threads]; exact h.fits, by rw [threads, spawned]; exact h.lt_spawned,
      by rw [threads]; exact h.nodup, fun _ => rest, fun ha => ?_⟩
    rw [mode'] at ha
    simp at ha

theorem reset_frame (e : Env) : (c.reboot.resetStateOnStartup e).mode = .idle ∧
    (c.reboot.resetStateOnStartup e).threads = [] ∧
    (c.reboot.resetStateOnStartup e).spawned = c.spawned ∧
    (c.reboot.resetStateOnStartup e).upsOnBattery = false ∧
    (c.reboot.resetStateOnStartup e).Resting := by
  simp only [resetStateOnStartup, cancelShutdownOnStartup]
  split
  · exact ⟨rfl, rfl, rfl, rfl, rfl, rfl, rfl, rfl⟩
  · split_ifs
    · exact ⟨rfl, rfl, rfl, rfl, rfl, rfl, rfl, rfl⟩
    · exact ⟨rfl, rfl, rfl, rfl, rfl, rfl, rfl, rfl⟩

theorem sound_of_reset {e : Env} : (c.reboot.resetStateOnStartup e).Sound d := by
  obtain ⟨hm, ht, -, -, hr⟩ := reset_frame (c := c) e
  refine ⟨by simp [ht], by simp [ht], by simp [ht], fun _ => hr, fun ha => ?_⟩
  rw [hm] at ha
  simp at ha

end Ctx

open Ctx in
theorem Ctx.SegmentOutcome.orch_eq {d : UPSDeviceConfig} {p : Peers} {e : Env} {c c' : Ctx} {pc : Pc}
    {pc' : Option Pc} (h : SegmentOutcome d p e c pc c' pc') :
    (c'.orch = c.orch ∧ c'.deadlineTimer = c.deadlineTimer) ∨
      (c.mode = .shuttingDown ∧ d.isObserver = false ∧ c.upsOnBattery = false ∧
        c'.mode = .desktopHandled ∧ c'.Resting ∧ pc' = none) := by
  cases h with
  | wait _ orch timer => exact .inl ⟨orch, timer⟩
  | abort _ orch timer => exact .inl ⟨orch, timer⟩
  | push _ _ orch timer => exact .inl ⟨orch, timer⟩
  | shutdown _ _ _ orch timer => exact .inl ⟨orch, timer⟩
  | powerOff _ _ orch timer => exact .inl ⟨orch, timer⟩
  | handled mode role power orch rest => exact .inr ⟨mode, role, power, orch, rest, rfl⟩

open Ctx in
theorem Ctx.SegmentOutcome.fits {d : UPSDeviceConfig} {p : Peers} {e : Env} {c c' : Ctx} {pc : Pc}
    {pc' : Option Pc} (h : SegmentOutcome d p e c pc c' pc') (hf : pc.fits d = true) :
    ∀ pc₁, pc' = some pc₁ → pc₁.fits d = true := by
  rintro pc₁ rfl
  cases h with
  | wait _ _ _ _ _ fits => exact fits hf
  | push _ _ _ _ _ _ fits => simp [Pc.fits, fits hf]

theorem sound_step (h : (system s).Takes t) {i : s.Ix} (hs : (t.pre.ctx i).Sound (s.dev i)) :
    (t.post.ctx i).Sound (s.dev i) := by
  cases ctxStep h i with
  | handler e k act hk exec => exact hs.quiet.move (Ctx.move_handler hk exec)
  | other j e k act hj post =>
    rw [post]
    exact hs.quiet
  | restart e act post =>
    rw [post]
    exact Ctx.sound_of_reset
  | worker e th c pc step =>
    obtain ⟨-, mem, -, outcome, hth, hsp, -, post⟩ := step
    rw [post]
    refine ⟨fun th' hth' => ?_, fun th' hth' => ?_, ?_, fun hr => ?_, fun ha => ?_⟩
    · rcases Ctx.mem_resume hth' with ⟨hmem, -⟩ | ⟨pc', rfl, rfl⟩
      · exact hs.fits th' (hth ▸ hmem)
      · exact outcome.fits (hs.fits th mem) pc' rfl
    · have hlt : th'.id < (t.pre.ctx i).spawned := by
        rcases Ctx.mem_resume hth' with ⟨hmem, -⟩ | ⟨pc', -, rfl⟩
        · exact hs.lt_spawned th' (hth ▸ hmem)
        · exact hs.lt_spawned th mem
      exact hlt.trans_eq hsp.symm
    · exact Ctx.nodup_resume (by rw [hth]; exact hs.nodup)
    · rcases outcome.orch_eq with ⟨ho, ht⟩ | ⟨-, -, -, -, hrest, -⟩
      · have hm : c.mode = (t.pre.ctx i).mode := congrArg OrchState.mode ho
        obtain ⟨h1, h2, h3, h4⟩ := hs.resting (hm ▸ hr)
        change c.Resting
        rw [Ctx.Resting, ho, ht]
        exact ⟨h1, h2, h3, h4⟩
      · exact hrest
    · rcases outcome.orch_eq with ⟨ho, ht⟩ | ⟨-, -, -, hm, -, -⟩
      · have hm : c.mode = (t.pre.ctx i).mode := congrArg OrchState.mode ho
        change c.Armed
        rw [Ctx.Armed, ht]
        exact hs.armed (hm ▸ ha)
      · rw [show c.mode = _ from ha] at hm
        simp at hm

theorem sound_of_init {w : World s} (h : (system s).init w) (i : s.Ix) :
    (w.ctx i).Sound (s.dev i) := by
  obtain ⟨e, disk, rfl⟩ := h
  exact Ctx.sound_of_reset (c := { (disk i).quiet with spawned := 0 })

/-- **Every context that can be reached is sound.** -/
theorem Reachable.sound {w : World s} (h : (system s).Reachable w) (i : s.Ix) :
    (w.ctx i).Sound (s.dev i) :=
  h.inv (I := fun w => ∀ i, (w.ctx i).Sound (s.dev i)) (fun _ h0 i => sound_of_init h0 i)
    (fun _ ht hs i => sound_step ht (hs i)) i

theorem idle_of_init {w : World s} (h : (system s).init w) (i : s.Ix) :
    (w.ctx i).mode = .idle ∧ (w.ctx i).threads = [] ∧ (w.ctx i).upsOnBattery = false := by
  obtain ⟨e, disk, rfl⟩ := h
  obtain ⟨hm, ht, -, hp, -⟩ := Ctx.reset_frame (c := { (disk i).quiet with spawned := 0 }) e
  exact ⟨hm, ht, hp⟩

theorem workerStep_of_act (h : (system s).Takes t) {i : s.Ix} (hs : (t.pre.ctx i).Sound (s.dev i))
    {e : Env} {th : Thread} (hth : th ∈ (t.pre.ctx i).threads)
    (hact : t.act = .call i e (.worker th.id)) : ∃ c pc, WorkerStep t i e th c pc := by
  cases ctxStep h i with
  | handler e' k act hk =>
    obtain ⟨-, -, rfl⟩ := Action.call.inj (hact.symm.trans act)
    exact absurd rfl (hk th.id)
  | other j e' k act hj =>
    obtain ⟨rfl, -⟩ := Action.call.inj (hact.symm.trans act)
    exact absurd rfl hj
  | restart e' act => rw [act] at hact; exact absurd hact (by simp)
  | worker e' th' c pc step =>
    obtain ⟨-, rfl, hk⟩ := Action.call.inj (hact.symm.trans step.act)
    obtain rfl := hs.eq_of_id hth step.mem (Call.worker.inj hk)
    exact ⟨c, pc, step⟩

/-! ## A primary with a desktop -/

def deskSite : Site where
  devices := [{ id := "main", nutName := "main@localhost"
                desktop := some { agentUrl := "http://desktop:8080" } }]
  ids_nodup := by decide

def mainUps : deskSite.Ix := ⟨0, by decide⟩

theorem deskSite_loaded : deskSite.Loaded :=
  ⟨[{ id := "main", nutName := "main@localhost"
      desktop := some { agentUrl := "http://desktop:8080" } }], rfl⟩

/-- An answer of the desktop agent. -/
def online : DesktopState where
  status := some (some .online)

end UpsOrchestrator

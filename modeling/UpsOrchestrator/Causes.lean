import UpsOrchestrator.Network
import UpsOrchestrator.Observers

/-!
# Causes

Whatever the server does to the world outside, and whatever an agent does at its desktop, goes back
to a report that a UPS of that desktop is on battery.

* `SharesDesktop`: two devices with the same desktop, or one device.
* `Effect.acts`: what is done outside: WoL, pushes, `fsd`, `upscmd`, and the start of a phase action.
* `Untouched`: a context that has not left idle and has done nothing.
* **`everythingHasACause`**: for the server and the agents, with messages late or lost.
-/

set_option autoImplicit false

namespace UpsOrchestrator

open Lts

variable {s : Site} {agents : s.Ix → AgentConfig s}

/-! ## Devices of one desktop -/

/-- One device, or two with the same desktop. -/
def SharesDesktop (i j : s.Ix) : Prop :=
  i = j ∨ ((s.dev i).desktop.isSome ∧
    (s.dev j).desktop.map (·.agentUrl) = (s.dev i).desktop.map (·.agentUrl))

theorem SharesDesktop.trans_peer {i j k : s.Ix} {observers : Bool} (hk : k ∈ s.desktopPeers i observers)
    (h : SharesDesktop k j) : SharesDesktop i j := by
  obtain ⟨-, -, hi, hurl⟩ := Site.mem_desktopPeers.mp hk
  rcases h with rfl | ⟨-, hj⟩
  · exact .inr ⟨hi, hurl⟩
  · exact .inr ⟨hi, hj.trans hurl⟩

/-! ## A context that nothing has happened to -/

/-- The effect reaches somebody outside the server. -/
def Effect.acts : Effect → Bool
  | .saveCommand _ => false
  | _ => true

namespace Ctx

variable {d : UPSDeviceConfig} {p : Peers} {e : Env} {c c' : Ctx}

/-- The context is idle, has no workers, and has just done nothing outside. -/
structure Untouched (c : Ctx) : Prop where
  mode : c.mode = .idle
  threads : c.threads = []
  out : ∀ eff ∈ c.out, eff.acts = false

theorem Untouched.quiet (h : c.Untouched) : c.quiet.Untouched := ⟨h.mode, h.threads, by simp [Ctx.quiet]⟩

/-- From idle, a handler does nothing outside without an outage of this UPS or of the desktop's. -/
theorem handler_idle_out {k : Call} (hk : ∀ id, k ≠ .worker id) (hp : p.desktopUpsOnBattery = false)
    (hr : k.ownReport ≠ some true) (hm : c.mode = .idle) (ho : c.out = [])
    (h : k.exec d p e c = some c') : ∀ eff ∈ c'.out, eff.acts = false := by
  have hb : (c.noteReport e k).mode = .idle := (congrArg OrchState.mode noteReport_frame.1).trans hm
  have hne : (c.noteReport e k).mode ≠ .monitoring := by rw [hb]; decide
  have hout : (c.noteReport e k).out = [] := out_noteReport.trans ho
  have hnil : ∀ c'' : Ctx, c''.out = (c.noteReport e k).out → ∀ eff ∈ c''.out, eff.acts = false := by
    intro c'' he eff heff
    rw [he, hout] at heff
    exact absurd heff List.not_mem_nil
  cases performs_handler hk h with
  | nothing => exact hnil _ rfl
  | fetch =>
    rw [fetchStateFromDesktop_fst]
    exact hnil _ rfl
  | start _ outage => exact absurd outage (by simp [hr, hp])
  | strike _ mode => exact absurd mode hne
  | expire =>
    rw [executePhaseAction_of_ne _ (by exact hne)]
    exact hnil _ rfl
  | startStrike _ _ _ report => exact absurd report hr
  | reset _ mode => exact absurd hb mode
  | ignore => exact hnil _ rfl
  | confirm _ _ _ _ mode => exact absurd mode hne
  | suspend _ _ mode => exact absurd mode hne
  | createCommand => exact hnil _ rfl
  | ack id status =>
    rcases ack_cases (c := c.noteReport e k) id status with ⟨cmd, -, -, he⟩ | ⟨-, he⟩
    · rw [he]
      exact hnil _ rfl
    · rw [he]
      exact hnil _ rfl

theorem untouched_reset (e : Env) : (c.quiet.reboot.resetStateOnStartup e).Untouched := by
  obtain ⟨hm, ht, -⟩ := reset_frame (c := c.quiet) e
  refine ⟨hm, ht, fun eff heff => ?_⟩
  simp only [resetStateOnStartup, cancelShutdownOnStartup] at heff
  split at heff
  · exact absurd heff List.not_mem_nil
  · split_ifs at heff
    · obtain rfl := List.mem_singleton.mp heff
      rfl
    · exact absurd heff List.not_mem_nil

end Ctx

/-- **An untouched context** stays one until an outage is reported. -/
theorem untouched_step {t : Step s} {i : s.Ix} (h : (system s).Takes t)
    (hp : (t.pre.peersOf i).desktopUpsOnBattery = false) (hr : ¬t.act.ReportsOutage i)
    (hu : (t.pre.ctx i).Untouched) : (t.post.ctx i).Untouched := by
  obtain ⟨hm, ht⟩ := idle_no_threads h hp hr ⟨hu.mode, hu.threads⟩
  refine ⟨hm, ht, ?_⟩
  cases ctxStep h i with
  | handler e k act hk exec =>
    exact Ctx.handler_idle_out (c := (t.pre.ctx i).quiet) hk hp (fun hown => hr ⟨e, k, act, hown⟩)
      hu.mode rfl exec
  | other j e k act hj post =>
    rw [post]
    exact hu.quiet.out
  | restart e act post =>
    rw [post]
    exact (Ctx.untouched_reset e).out
  | worker e th c pc step =>
    have hmem := step.mem
    rw [hu.threads] at hmem
    exact absurd hmem List.not_mem_nil

theorem untouched_of_init {w : World s} (h : (system s).init w) (i : s.Ix) : (w.ctx i).Untouched := by
  obtain ⟨e, disk, rfl⟩ := h
  exact Ctx.untouched_reset (c := { disk i with spawned := 0 }) e

/-! ## Causes -/

/-- A UPS of the desktop of context `i` has been reported on battery in one of the steps. -/
def Caused (tr : List (NetStep s)) (i : s.Ix) : Prop :=
  ∃ t ∈ tr, ∃ j a, SharesDesktop i j ∧ t.act.base = some a ∧ a.ReportsOutage j

theorem Caused.mono {tr tr' : List (NetStep s)} {i : s.Ix} (h : Caused tr i) : Caused (tr ++ tr') i :=
  let ⟨t, ht, hc⟩ := h
  ⟨t, List.mem_append_left _ ht, hc⟩

/-- Where there is no cause nothing has happened. -/
structure CausesKept (tr : List (NetStep s)) (w : Network s) : Prop where
  contexts : ∀ i, ¬Caused tr i → (w.world.ctx i).Untouched
  agents : ∀ th ∈ w.threads, Caused tr th.push.origin

theorem contexts_step {tr : List (NetStep s)} {t : NetStep s} {a : Action s}
    (hstep : t.pre.world.step a = some t.post.world) (hact : t.act.base = some a)
    (h : ∀ i, ¬Caused tr i → (t.pre.world.ctx i).Untouched) :
    ∀ i, ¬Caused (tr ++ [t]) i → (t.post.world.ctx i).Untouched := by
  intro i hi
  have hpre : ∀ j, ¬Caused (tr ++ [t]) j → (t.pre.world.ctx j).Untouched := fun j hj =>
    h j fun hc => hj hc.mono
  have hpeers : (t.pre.world.peersOf i).desktopUpsOnBattery = false :=
    desktopUpsOnBattery_eq_false fun k hk => (hpre k fun ⟨t', ht', j, b, hj, hb⟩ =>
      hi ⟨t', ht', j, b, hj.trans_peer hk, hb⟩).mode
  have hreport : ¬a.ReportsOutage i := fun hr =>
    hi ⟨t, List.mem_concat_self, i, a, .inl rfl, hact, hr⟩
  exact untouched_step (t := ⟨t.pre.world, a, t.post.world⟩) hstep hpeers hreport (hpre i hi)

theorem mem_handlers {w : World s} {th : AgentThread s} (h : th ∈ w.handlers agents) :
    .pushCommand th.push.cmd ∈ (w.ctx th.push.origin).out := by
  obtain ⟨i, -, hi⟩ := List.mem_flatMap.mp h
  obtain ⟨eff, heff, hth⟩ := List.mem_filterMap.mp hi
  unfold handlerOf at hth
  split at hth
  next cmd =>
    split_ifs at hth
    obtain ⟨p, -, rfl⟩ := Option.map_eq_some_iff.mp hth
    exact heff
  next => exact absurd hth (by simp)

theorem causesKept_step {tr : List (NetStep s)} {t : NetStep s} (ht : (network agents).Takes t)
    (h : CausesKept tr t.pre) : CausesKept (tr ++ [t]) t.post := by
  obtain ⟨contexts, threads⟩ := h
  have hold : ∀ th ∈ t.pre.threads, Caused (tr ++ [t]) th.push.origin := fun th hth =>
    (threads th hth).mono
  cases networkStep ht with
  | server a act step hthreads =>
    have hctx := contexts_step step (by rw [act]; rfl) contexts
    refine ⟨hctx, fun th hth => ?_⟩
    rw [hthreads] at hth
    rcases List.mem_append.mp hth with hth | hth
    · exact hold th hth
    · by_contra hno
      exact absurd ((hctx _ hno).out _ (mem_handlers hth)) (by simp [Effect.acts])
  | agent n e push o k ans act thread exec world hthreads =>
    refine ⟨fun i hi => ?_, fun th hth => ?_⟩
    · rw [world]
      exact contexts i fun hc => hi hc.mono
    · rw [hthreads] at hth
      rcases List.mem_or_eq_of_mem_set hth with hth | rfl
      · exact hold th hth
      · exact hold ⟨push, .op o k⟩ (List.mem_of_getElem? thread)
  | preflight m q id command act request asks world hthreads =>
    refine ⟨fun i hi => ?_, fun th hth => hold th (hthreads ▸ hth)⟩
    rw [world]
    exact contexts i fun hc => hi hc.mono
  | ack m q i e id status response act request step hthreads =>
    exact ⟨contexts_step step (by rw [act]; rfl) contexts, fun th hth => hold th (hthreads ▸ hth)⟩

/-- **Everything has a cause.** -/
structure EverythingHasACause (x : Execution (network agents)) : Prop where
  /-- a WoL, a push, `fsd`, `upscmd` or the start of a phase action -/
  server : ∀ tr t tr', x.steps = tr ++ t :: tr' → ∀ i, ∀ eff ∈ (t.post.world.ctx i).out,
    eff.acts = true → Caused (tr ++ [t]) i
  /-- a prompt, a request, a suspend or a shutdown of an agent -/
  agent : ∀ tr t tr', x.steps = tr ++ t :: tr' → ∀ n e, t.act = .agent n e →
    ∃ th, t.pre.threads[n]? = some th ∧ Caused tr th.push.origin

theorem everythingHasACause (x : Execution (network agents)) : EverythingHasACause x := by
  have hkept : ∀ {tr w}, Run (network agents) x.start tr w → CausesKept tr w := fun hr => by
    obtain ⟨hinit, hthreads, -⟩ := x.init
    have hstart : CausesKept [] x.start := ⟨fun i _ => untouched_of_init hinit i, by simp [hthreads]⟩
    exact hr.inv_steps (J := CausesKept) (C := fun _ _ => True)
      (fun _ _ ht _ h => causesKept_step ht h) [] hstart fun _ _ _ _ => trivial
  refine ⟨fun tr t tr' h i eff heff hacts => ?_, fun tr t tr' h n e hact => ?_⟩
  · have hrun := x.run
    rw [h, List.append_cons] at hrun
    obtain ⟨v, hr, -⟩ := hrun.split
    obtain ⟨-, -, rfl⟩ := hr.of_snoc
    by_contra hno
    exact absurd (((hkept hr).contexts i hno).out eff heff) (by simp [hacts])
  · have hrun := x.run
    rw [h] at hrun
    obtain ⟨hr, ht, -⟩ := hrun.around
    cases networkStep ht with
    | agent n' e' push o k ans act thread =>
      obtain ⟨rfl, -⟩ := NetAction.agent.inj (hact.symm.trans act)
      exact ⟨_, thread, (hkept hr).agents _ (List.mem_of_getElem? thread)⟩
    | server _ act => exact absurd (hact.symm.trans act) (by simp)
    | preflight _ _ _ _ act => exact absurd (hact.symm.trans act) (by simp)
    | ack _ _ _ _ _ _ _ act => exact absurd (hact.symm.trans act) (by simp)

end UpsOrchestrator

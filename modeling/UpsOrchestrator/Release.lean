import UpsOrchestrator.Deadlines

/-!
# Releasing the observer's hold

Before its time is up the hold worker powers the UPS off when an owner reports the desktop down, when
an owner has finished its desktop flow, or when `upsc` answers with `LB`.

* **`powerOffUps_holdPass`**: these are the ways.
* `TrustsCurrentFlow`: an owner that has finished has done so in the observer's current outage;
  **`trustsCurrentFlow`**: in the executions in which no outage of an observer starts while an owner
  is still in `desktop_handled` from an earlier one.
* `HoldsForEveryOwner`: the hold does not end while an owner is still at work;
  **`holdsForEveryOwner_iff`**.
-/

set_option autoImplicit false

namespace UpsOrchestrator

open Lts

namespace Ctx

variable {d : UPSDeviceConfig} {p : Peers} {e : Env} {c : Ctx} {pc : Pc} {deadline : Int}

variable (d e) in
/-- Until when the hold worker at `pc` waits for the owners. -/
def holdDeadline : Pc → Option Int
  | .observerPowerOff => some (e.clock .deadline + d.timing.observerPoweroffMaxWait)
  | .observerHolding deadline => some deadline
  | _ => none

/-- What makes a pass through the hold loop power the UPS off. -/
def Releases (p : Peers) (e : Env) : Prop :=
  p.owners.any (·.reportsDesktopDown) = true ∨ p.owners.any (·.finishedDesktopHandling) = true ∨
    e.upsc.any (hasFlag "LB") = true

theorem powerOffUps_holdIteration (hc : c.out = []) (ht : e.clock .loop < deadline) :
    .powerOffUps ∈ (c.holdIteration p e deadline).1.out ↔ c.mode = .shuttingDown ∧ Releases p e := by
  unfold holdIteration Releases
  rw [if_pos ht]
  split_ifs with h1 h2 h3 h4
  · simp [hc, h1]
  · simp [emit, hc, not_not.mp h1, h2]
  · simp [emit, hc, not_not.mp h1, h3]
  · simp [emit, hc, not_not.mp h1, h4]
  · simp [hc, h2, h3, h4]

/-- **A pass through the hold loop**, on an observer with owners and before the time is up. -/
theorem powerOffUps_hold (hc : c.out = []) (hp : p.owners ≠ []) (hd : holdDeadline d e pc = some deadline)
    (ht : e.clock .loop < deadline) :
    .powerOffUps ∈ (segment d p e c pc).1.out ↔ c.mode = .shuttingDown ∧ Releases p e := by
  cases pc with
  | observerPowerOff =>
    obtain rfl := Option.some.inj hd
    rw [segment, observerPowerOffWhenDesktopSafe, if_neg (by simpa using hp)]
    exact powerOffUps_holdIteration hc ht
  | observerHolding deadline' =>
    obtain rfl := Option.some.inj hd
    exact powerOffUps_holdIteration hc ht
  | _ => exact absurd hd (by simp [holdDeadline])

end Ctx

variable {s : Site} {t : Step s} {i j : s.Ix} {w : World s} {tr : List (Step s)} {e : Env}

theorem any_reportsDesktopDown : (w.peersOf i).owners.any (·.reportsDesktopDown) = true ↔
    ∃ j ∈ s.desktopPeers i false, (w.ctx j).reportsDesktopDown = true := by
  simp [World.peersOf]

theorem any_finishedDesktopHandling : (w.peersOf i).owners.any (·.finishedDesktopHandling) = true ↔
    ∃ j ∈ s.desktopPeers i false, (w.ctx j).mode = .desktopHandled := by
  simp [World.peersOf, Ctx.finishedDesktopHandling]

/-- The hold worker of context `i` passes through its loop before its time is up. -/
def HoldPass (i : s.Ix) (t : Step s) (e : Env) : Prop :=
  ∃ th ∈ (t.pre.ctx i).threads, t.act = .call i e (.worker th.id) ∧
    ∃ deadline, Ctx.holdDeadline (s.dev i) e th.pc = some deadline ∧ e.clock .loop < deadline

/-- **What ends a hold before its time is up**, on an observer with owners. -/
theorem powerOffUps_holdPass (ht : (system s).Takes t) (hs : (t.pre.ctx i).Sound (s.dev i))
    (hp : HoldPass i t e) (hj : j ∈ s.desktopPeers i false) :
    .powerOffUps ∈ (t.post.ctx i).out ↔
      (t.pre.ctx i).mode = .shuttingDown ∧ Ctx.Releases (t.pre.peersOf i) e := by
  obtain ⟨th, hth, hact, deadline, hd, hlt⟩ := hp
  obtain ⟨c, pc, step⟩ := workerStep_of_act ht hs hth hact
  have hown : (t.pre.peersOf i).owners ≠ [] :=
    List.ne_nil_of_mem (List.mem_map_of_mem (f := fun j => OwnerView.mk _ _) hj)
  have hkey := Ctx.powerOffUps_hold (c := (t.pre.ctx i).quiet) rfl hown hd hlt
  rw [step.seg] at hkey
  rw [step.post]
  exact hkey

/-! ## Flows of an earlier outage -/

/-- An outage of context `i` starts. -/
def LeavesIdle (i : s.Ix) (t : Step s) : Prop :=
  (t.pre.ctx i).mode = .idle ∧ (t.post.ctx i).mode ≠ .idle

/-- Context `j` finishes its desktop flow. -/
def EntersHandled (j : s.Ix) (t : Step s) : Prop :=
  (t.pre.ctx j).mode ≠ .desktopHandled ∧ (t.post.ctx j).mode = .desktopHandled

/-- In the run `tr`, context `j` has entered `desktop_handled` since the latest outage of context `i`
started. -/
def FinishedSince (i j : s.Ix) (tr : List (Step s)) : Prop :=
  ∃ tr₁ t tr₂, tr = tr₁ ++ t :: tr₂ ∧ EntersHandled j t ∧ ∀ t' ∈ tr₂, ¬LeavesIdle i t'

instance : Decidable (LeavesIdle i t) := by unfold LeavesIdle; infer_instance

instance : Decidable (EntersHandled j t) := by unfold EntersHandled; infer_instance

instance : Decidable (FinishedSince i j tr) :=
  inferInstanceAs (Decidable (Since (EntersHandled j) (fun t => ¬LeavesIdle i t) tr))

/-- **The observer trusts only this outage's desktop flow.** Where its hold worker powers the UPS off
before its time is up although no owner reports the desktop down, the owners in `desktop_handled`
have entered it since the observer's outage started. -/
def TrustsCurrentFlow (x : Execution (system s)) : Prop :=
  ∀ tr₁ t tr₂, x.steps = tr₁ ++ t :: tr₂ → ∀ i e, HoldPass i t e →
    .powerOffUps ∈ (t.post.ctx i).out →
    (∀ j ∈ s.desktopPeers i false, (t.pre.ctx j).reportsDesktopDown = false) →
    ∀ j ∈ s.desktopPeers i false, (t.pre.ctx j).mode = .desktopHandled → FinishedSince i j tr₁

/-- The outage of context `i` starts while an owner of its desktop is in `desktop_handled`. -/
def StartsHandled (i : s.Ix) (t : Step s) : Prop :=
  LeavesIdle i t ∧ ∃ j ∈ s.desktopPeers i false, (t.pre.ctx j).mode = .desktopHandled

instance : Decidable (StartsHandled i t) := by unfold StartsHandled; infer_instance

theorem call_of_leavesIdle (ht : (system s).Takes t) (hi : LeavesIdle i t) :
    ∃ e k, t.act = .call i e k := by
  cases ctxStep ht i with
  | handler e k act => exact ⟨e, k, act⟩
  | worker e th c pc step => exact ⟨e, _, step.act⟩
  | other j e k act hj post =>
    refine absurd ?_ hi.2
    rw [post]
    exact hi.1
  | restart e act post =>
    refine absurd ?_ hi.2
    rw [post]
    exact (Ctx.reset_frame e).1

theorem ctx_of_call (ht : (system s).Takes t) {k : Call} (hact : t.act = .call i e k) (hij : j ≠ i) :
    t.post.ctx j = (t.pre.ctx j).quiet := by
  rw [System.Takes, hact] at ht
  obtain ⟨-, c, -, hw⟩ := step_call ht
  rw [hw]
  exact Function.update_of_ne hij ..

/-- While context `i` is in an outage, an owner that is in `desktop_handled` has entered it since the
outage started. -/
def FlowsCurrent (i j : s.Ix) (tr : List (Step s)) (w : World s) : Prop :=
  (w.ctx i).mode ≠ .idle → (w.ctx j).mode = .desktopHandled → FinishedSince i j tr

theorem flowsCurrent_snoc (ht : (system s).Takes t) (hj : j ∈ s.desktopPeers i false)
    (hx : ¬StartsHandled i t) (ih : FlowsCurrent i j tr t.pre) :
    FlowsCurrent i j (tr ++ [t]) t.post := by
  intro hi hh
  by_cases hl : LeavesIdle i t
  · obtain ⟨e, k, hact⟩ := call_of_leavesIdle ht hl
    rw [ctx_of_call ht hact (Site.ne_of_mem_desktopPeers hj)] at hh
    exact absurd ⟨hl, j, hj, hh⟩ hx
  by_cases hpre : (t.pre.ctx j).mode = .desktopHandled
  · have hi' : (t.pre.ctx i).mode ≠ .idle := fun h => hl ⟨h, hi⟩
    obtain ⟨tr₁, t₀, tr₂, rfl, henter, hstay⟩ := ih hi' hpre
    exact ⟨tr₁, t₀, tr₂ ++ [t], by simp, henter,
      List.forall_mem_append.mpr ⟨hstay, List.forall_mem_singleton.mpr hl⟩⟩
  · exact ⟨tr, t, [], by simp, ⟨hpre, hh⟩, by simp⟩

theorem flowsCurrent_run (hw : (system s).init w) {w' : World s} (h : Run (system s) w tr w')
    (hj : j ∈ s.desktopPeers i false) (hx : ∀ t ∈ tr, ¬StartsHandled i t) :
    FlowsCurrent i j tr w' := by
  induction h with
  | nil => exact fun hi _ => absurd (idle_of_init hw i).1 hi
  | @snoc u v tr a _ ha ih =>
    have hv := ih fun t ht => hx t (List.mem_append_left _ ht)
    exact flowsCurrent_snoc ha hj (hx _ (by simp)) hv

/-- **The observer trusts only this outage's desktop flow** in every execution in which no outage of
an observer starts while an owner is in `desktop_handled`. -/
theorem trustsCurrentFlow (x : Execution (system s)) (hx : ∀ t ∈ x.steps, ∀ i, ¬StartsHandled i t) :
    TrustsCurrentFlow x := by
  intro tr₁ t tr₂ hsteps i e hpass hout hdown j hj hh
  obtain ⟨h₁, ht, -⟩ := (hsteps ▸ x.run).around
  have hs := Reachable.sound ⟨_, _, x.init, h₁⟩ i
  have hm : (t.pre.ctx i).mode ≠ .idle := by
    rw [((powerOffUps_holdPass ht hs hpass hj).mp hout).1]
    decide
  exact flowsCurrent_run x.init h₁ hj (fun t ht => hx t (hsteps ▸ List.mem_append_left _ ht) i) hm hh

/-! ## Several owners -/

/-- **The hold waits for every owner.** It does not power the UPS off before its time is up and
without `LB`, while an owner is in monitoring or `shutting_down` and none reports the desktop
down. -/
def HoldsForEveryOwner (x : Execution (system s)) : Prop :=
  ∀ t ∈ x.steps, ∀ i e, HoldPass i t e → e.upsc.any (hasFlag "LB") = false →
    (∃ j ∈ s.desktopPeers i false,
      (t.pre.ctx j).mode = .monitoring ∨ (t.pre.ctx j).mode = .shuttingDown) →
    (∀ j ∈ s.desktopPeers i false, (t.pre.ctx j).reportsDesktopDown = false) →
    .powerOffUps ∉ (t.post.ctx i).out

/-- One owner has finished, another is still at work, and none reports the desktop down when the hold
worker of context `i` passes through its loop. -/
def FinishedBeforeOthers (i : s.Ix) (t : Step s) : Prop :=
  ∃ e, HoldPass i t e ∧ e.upsc.any (hasFlag "LB") = false ∧ (t.pre.ctx i).mode = .shuttingDown ∧
    (∃ j ∈ s.desktopPeers i false, (t.pre.ctx j).mode = .desktopHandled) ∧
    (∃ j ∈ s.desktopPeers i false,
      (t.pre.ctx j).mode = .monitoring ∨ (t.pre.ctx j).mode = .shuttingDown) ∧
    ∀ j ∈ s.desktopPeers i false, (t.pre.ctx j).reportsDesktopDown = false

/-- **The hold waits for every owner exactly when** the hold worker never passes through its loop
while one owner has finished and another is still at work. -/
theorem holdsForEveryOwner_iff (x : Execution (system s)) :
    HoldsForEveryOwner x ↔ ∀ t ∈ x.steps, ∀ i, ¬FinishedBeforeOthers i t := by
  constructor
  · rintro h t ht i ⟨e, hpass, hlb, hm, ⟨j, hj, hh⟩, hbusy, hdown⟩
    refine h t ht i e hpass hlb hbusy hdown ?_
    have hs := Reachable.sound (x.reachable_pre ht) i
    rw [powerOffUps_holdPass (x.takes ht) hs hpass hj]
    exact ⟨hm, .inr (.inl (any_finishedDesktopHandling.mpr ⟨j, hj, hh⟩))⟩
  · intro h t ht i e hpass hlb hbusy hdown hout
    have hs := Reachable.sound (x.reachable_pre ht) i
    obtain ⟨j, hj, -⟩ := id hbusy
    obtain ⟨hm, hrel⟩ := (powerOffUps_holdPass (x.takes ht) hs hpass hj).mp hout
    refine h t ht i ⟨e, hpass, hlb, hm, ?_, hbusy, hdown⟩
    rcases hrel with hrel | hrel | hrel
    · obtain ⟨j', hj', hd⟩ := any_reportsDesktopDown.mp hrel
      exact absurd (hd.symm.trans (hdown j' hj')) (by decide)
    · exact any_finishedDesktopHandling.mp hrel
    · exact absurd (hrel.symm.trans hlb) (by decide)

/-! ## A flow that was finished before -/

/-- The primary's desktop flow from `OL` at `start` with the desktop asleep, up to its end: the phase,
the wake and the wait for the desktop run out. -/
def flowOnMains {s : Site} (i : s.Ix) (start : Int) : List (Action s) :=
  [.call i (.at start) (.upsStatus "OL"), .call i (.at (start + 360)) .timer,
    .call i (.at (start + 360)) (.worker 0), .call i (.at (start + 360)) (.worker 0),
    .call i (.at (start + 420)) (.worker 0), .call i (.at (start + 420)) (.worker 0),
    .call i (.at (start + 425)) (.worker 0), .call i (.at (start + 425)) (.worker 0),
    .call i (.at (start + 485)) (.worker 0)]

/-- The desktop's UPS is back for a second, between two polls of the primary. -/
def shortRestore : List (Action pairSite) :=
  [.call pairDesk (.at 0) (.upsStatus "OB")] ++ flowOnMains pairMain 0 ++
  [.call pairDesk (.at 486) (.event .online), .call pairDesk (.at 487) (.event .onbatt),
    .call pairMain (.at 490) (.upsStatus "OL"), .call pairDesk (.at 787) .timer]

/-- The first pass of the hold worker that context `i` launched at `start` for its first hold. -/
theorem holdPass_first {start : Int} (hact : t.act = .call i (.at start) (.worker 0))
    (hth : (t.pre.ctx i).threads = [⟨0, .observerPowerOff⟩])
    (hmax : 0 < (s.dev i).timing.observerPoweroffMaxWait) : HoldPass i t (.at start) := by
  refine ⟨_, hth ▸ List.mem_singleton_self _, hact, _, rfl, ?_⟩
  change start < start + (s.dev i).timing.observerPoweroffMaxWait
  omega

theorem not_trustsCurrentFlow : pairSite.Loaded ∧
    ∃ x : Execution (system pairSite), ¬TrustsCurrentFlow x := by
  refine ⟨pairSite_loaded, ?_⟩
  obtain ⟨x, tr, t, hx, -, hact, hth, hout, hdown, hm, hnot⟩ := exists_execution_last
    (S := system pairSite) (P := fun tr t =>
      (t.pre.ctx pairDesk).threads = [⟨0, .observerPowerOff⟩] ∧
      .powerOffUps ∈ (t.post.ctx pairDesk).out ∧
      (∀ j ∈ pairSite.desktopPeers pairDesk false, (t.pre.ctx j).reportsDesktopDown = false) ∧
      (t.pre.ctx pairMain).mode = .desktopHandled ∧ ¬FinishedSince pairDesk pairMain tr)
    shortRestore (.call pairDesk (.at 787) (.worker 0)) ⟨.at 0, fun _ => {}, rfl⟩ (by decide)
  refine ⟨x, fun h => hnot ?_⟩
  exact h tr t [] hx pairDesk _ (holdPass_first hact hth (by decide)) hout hdown pairMain
    (by decide) hm

theorem trustsCurrentFlow_flowOnMains : ∃ x : Execution (system pairSite),
    TrustsCurrentFlow x ∧ ∃ t ∈ x.steps, .powerOffUps ∈ (t.post.ctx pairDesk).out := by
  obtain ⟨x, hx, hout⟩ := exists_execution (S := system pairSite)
    ([.call pairDesk (.at 0) (.upsStatus "OB")] ++ flowOnMains pairMain 0 ++
      [.call pairDesk (.at 490) .timer, .call pairDesk (.at 490) (.worker 0)])
    (P := fun tr => (∀ t ∈ tr, ∀ i, ¬StartsHandled i t) ∧
      ∃ t ∈ tr, .powerOffUps ∈ (t.post.ctx pairDesk).out)
    ⟨.at 0, fun _ => {}, rfl⟩ (by decide)
  exact ⟨x, trustsCurrentFlow x hx, hout⟩

/-! ## One owner finishes first -/

/-- Two primaries and an observer on one desktop. The second primary gives a suspended desktop an
hour. -/
def trioSite : Site where
  devices :=
    [{ id := "main", nutName := "main@localhost"
       desktop := some { agentUrl := "http://desktop:8080" } },
     { id := "rack", nutName := "rack@localhost"
       timing := { desktopSuspendWait := 3600 }
       desktop := some { agentUrl := "http://desktop:8080" } },
     { id := "desk", nutName := "desk@localhost", role := .observer
       desktop := some { agentUrl := "http://desktop:8080" } }]
  ids_nodup := by decide

def trioMain : trioSite.Ix := ⟨0, by decide⟩

def trioRack : trioSite.Ix := ⟨1, by decide⟩

def trioDesk : trioSite.Ix := ⟨2, by decide⟩

theorem trioSite_loaded : trioSite.Loaded :=
  ⟨[{ id := "main", nutName := "main@localhost" },
    { id := "rack", nutName := "rack@localhost", timing := some { desktopSuspendWait := some 3600 } },
    { id := "desk", nutName := "desk@localhost", role := some (some "observer")
      desktop := some { agentUrl := "http://desktop:8080" } }], rfl⟩

/-- The first primary has given the desktop up while the second is still in `suspend_wait`. -/
def oneFinishes : List (Action trioSite) :=
  [.call trioDesk (.at 0) (.upsStatus "OB"), .call trioRack (.at 0) (.upsStatus "OL")] ++
    flowOnMains trioMain 0 ++ [.call trioDesk (.at 485) .timer]

theorem not_holdsForEveryOwner : trioSite.Loaded ∧
    ∃ x : Execution (system trioSite), ¬HoldsForEveryOwner x := by
  refine ⟨trioSite_loaded, ?_⟩
  obtain ⟨x, tr, t, hx, -, hact, hth, hout, hdown, hm⟩ := exists_execution_last
    (S := system trioSite) (P := fun _ t =>
      (t.pre.ctx trioDesk).threads = [⟨0, .observerPowerOff⟩] ∧
      .powerOffUps ∈ (t.post.ctx trioDesk).out ∧
      (∀ j ∈ trioSite.desktopPeers trioDesk false, (t.pre.ctx j).reportsDesktopDown = false) ∧
      (t.pre.ctx trioRack).mode = .monitoring)
    oneFinishes (.call trioDesk (.at 485) (.worker 0)) ⟨.at 0, fun _ => {}, rfl⟩ (by decide)
  refine ⟨x, fun h => ?_⟩
  exact h t (by simp [hx]) trioDesk _ (holdPass_first hact hth (by decide)) rfl
    ⟨trioRack, by decide, .inl hm⟩ hdown hout

end UpsOrchestrator

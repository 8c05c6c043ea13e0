import UpsOrchestrator.Record
import UpsOrchestrator.Release

/-!
# The desktop's confirmation

The desktop reports to `update-state` that it is going away; the poll loop asks its agent, which
answers `online` for as long as it runs. Both write the desktop state of the primary.

* `FetchWorld`, `fetchSystem`: the site with the fetches of the poll loop in flight, each with its
  request, its reply and its end as steps of their own; `toSystem`: it refines the site.
* `ConfirmationsKept`: a confirmed desktop is seen as down by every read in that outage;
  **`confirmationsKept_iff`**: exactly in the executions in which no read comes after an answer that
  was saved over the latest report.
-/

set_option autoImplicit false

namespace UpsOrchestrator

open Lts

/-! ## Fetches in flight -/

/-- `current_state` of the desktop agent, as far as the server looks at it. -/
def currentState : DesktopState where
  status := some (some .online)

/-- What the agent answers: none when it is unreachable. -/
structure AgentAnswer where
  state : Option DesktopState
  online : ∀ st ∈ state, st = currentState
  deriving DecidableEq

/-- A call of `fetch_state_from_desktop` that has not ended. -/
inductive Fetch
  | requested
  | replied (answer : AgentAnswer)
  deriving DecidableEq

/-- The server and the fetches in flight of every context. -/
structure FetchWorld (s : Site) where
  world : World s
  fetches : s.Ix → List Fetch

inductive FetchAction (s : Site)
  /-- any other step of the server -/
  | server (a : Action s)
  | request (i : s.Ix)
  /-- the agent replies to the `n`-th fetch, or it fails -/
  | reply (i : s.Ix) (n : ℕ) (answer : AgentAnswer)
  /-- the `n`-th fetch saves what it got and ends -/
  | save (i : s.Ix) (n : ℕ) (e : Env)

variable {s : Site}

def Action.isFetch : Action s → Bool
  | .call _ _ .fetch => true
  | _ => false

/-- A restart ends all fetches. -/
def Action.surviving (fetches : s.Ix → List Fetch) : Action s → s.Ix → List Fetch
  | .call _ _ _ => fetches
  | .restart _ => fun _ => []

/-- **One step of the server, with its fetches in three steps.** -/
def FetchWorld.step (w : FetchWorld s) : FetchAction s → Option (FetchWorld s)
  | .server a =>
    if a.isFetch = false ∧ ∀ st ∈ a.env.agent, st = currentState then
      (w.world.step a).map fun v => { world := v, fetches := a.surviving w.fetches }
    else none
  | .request i =>
    if (s.dev i).desktop.isSome then
      some { w with fetches := Function.update w.fetches i (w.fetches i ++ [.requested]) }
    else none
  | .reply i n answer =>
    if (w.fetches i)[n]? = some .requested then
      some { w with fetches := Function.update w.fetches i ((w.fetches i).set n (.replied answer)) }
    else none
  | .save i n e =>
    match (w.fetches i)[n]? with
    | some (.replied answer) =>
      if e.agent = answer.state then
        (w.world.step (.call i e .fetch)).map fun v =>
          { world := v, fetches := Function.update w.fetches i ((w.fetches i).eraseIdx n) }
      else none
    | _ => none

variable (s) in
/-- **The site with its fetches in flight.** -/
def fetchSystem : System (FetchWorld s) (FetchAction s) where
  init w := (system s).init w.world ∧ ∀ i, w.fetches i = []
  step := FetchWorld.step

/-- The step of the site that an action makes. -/
def FetchAction.base : FetchAction s → Option (Action s)
  | .server a => some a
  | .save i _ e => some (.call i e .fetch)
  | _ => none

theorem FetchWorld.step_base {w w' : FetchWorld s} {a : FetchAction s} (h : w.step a = some w') :
    match a.base with
    | none => w'.world = w.world
    | some b => w.world.step b = some w'.world ∧ ∀ st ∈ b.env.agent, st = currentState := by
  cases a with
  | server b =>
    simp only [step, Option.ite_none_right_eq_some, Option.map_eq_some_iff] at h
    obtain ⟨⟨-, hag⟩, v, hv, rfl⟩ := h
    exact ⟨hv, hag⟩
  | request i =>
    simp only [step, Option.ite_none_right_eq_some, Option.some.injEq] at h
    rw [← h.2]
    rfl
  | reply i n answer =>
    simp only [step, Option.ite_none_right_eq_some, Option.some.injEq] at h
    rw [← h.2]
    rfl
  | save i n e =>
    simp only [step] at h
    split at h
    · simp only [Option.ite_none_right_eq_some, Option.map_eq_some_iff] at h
      obtain ⟨hag, v, hv, rfl⟩ := h
      refine ⟨hv, fun st hst => ?_⟩
      change e.agent = some st at hst
      rw [hag] at hst
      exact AgentAnswer.online _ st hst
    · exact absurd h (by simp)

variable (s) in
/-- The fetches in flight are invisible to the site. -/
def toSystem : Refinement (fetchSystem s) (system s) where
  abs := FetchWorld.world
  act := FetchAction.base
  init _ h := h.1
  step t ht := by
    have hstep := FetchWorld.step_base ht
    cases hb : t.act.base with
    | none =>
      rw [hb] at hstep
      exact hstep
    | some b =>
      rw [hb] at hstep
      exact hstep.1

/-! ## Who writes the desktop state -/

namespace Ctx

variable {d : UPSDeviceConfig} {p : Peers} {e : Env} {c c' : Ctx} {k : Call} {pc : Pc}
  {deadline : Int}

/-- The call asks the agent of the desktop: a fetch, a pass through the wake loop, or the start of
monitoring on a primary. -/
def AsksDesktop (d : UPSDeviceConfig) (k : Call) (c c' : Ctx) : Prop :=
  k = .fetch ∨
    (∃ th ∈ c.threads, k = .worker th.id ∧ th.pc.isFetching = true) ∨
    (d.isObserver = false ∧ (c.mode = .idle ∨ c.mode = .desktopHandled) ∧
      (c'.mode = .monitoring ∨ c'.mode = .shuttingDown))

theorem fetchedState_of_some {state st : DesktopState} (hd : d.desktop.isSome)
    (ha : e.agent = some st) : fetchedState d e state = st := by
  rw [fetchedState, if_neg (by simpa [Option.isSome_iff_ne_none] using hd), ha]
  rfl

theorem fetchedState_of_not {state : DesktopState} (h : ¬(d.desktop.isSome ∧ e.agent.isSome)) :
    fetchedState d e state = state := by
  unfold fetchedState
  cases hd : d.desktop with
  | none => rfl
  | some desktop =>
    have ha : e.agent = none := by simpa [hd] using h
    rw [ha]
    rfl

theorem desktopState_fetchAtStart : (c.fetchAtStart d e).desktopState =
    if d.isObserver then c.desktopState else fetchedState d e c.desktopState := by
  unfold fetchAtStart
  split_ifs
  · rfl
  · rw [fetchStateFromDesktop_fst]

theorem desktopState_updateState (status : Option DesktopStatus) :
    (c.updateState d e status).desktopState = { status := some status } := by
  simp only [updateState, notifyDesktopStateChange]
  split_ifs <;> rfl

theorem not_asksDesktop_updateState (status : Option DesktopStatus) :
    ¬AsksDesktop d (.updateState status) c (c.updateState d e status) := by
  have hmode : c.mode = .monitoring ∨ (c.updateState d e status).mode = c.mode := by
    by_cases hm : c.mode = .monitoring
    · exact .inl hm
    · have hm' : (c.saveDesktopState { status := some status }).mode ≠ .monitoring := hm
      rw [updateState, notifyDesktopStateChange, if_pos hm', ite_self]
      exact .inr rfl
  rintro (h | ⟨th, -, h, -⟩ | ⟨-, h1, h2⟩)
  · exact absurd h (by simp)
  · exact absurd h (by simp)
  · rcases hmode with hm | hm
    · simp [hm] at h1
    · rw [hm] at h2
      rcases h1 with h1 | h1 <;> simp [h1] at h2

/-- **What a handler leaves of the desktop state**: the agent's answer if it asks for one. -/
theorem desktopState_handler (hk : ∀ id, k ≠ .worker id) (hu : ∀ status, k ≠ .updateState status)
    (h : k.exec d p e c = some c') :
    (AsksDesktop d k c c' ∧ c'.desktopState = fetchedState d e c.desktopState) ∨
      (¬AsksDesktop d k c c' ∧ c'.desktopState = c.desktopState) := by
  by_cases hf : k = .fetch
  · subst hf
    rw [← Option.some.inj h, fetchStateFromDesktop_fst]
    exact .inl ⟨.inl rfl, rfl⟩
  have hmode : (c.noteReport e k).mode = c.mode := congrArg OrchState.mode noteReport_frame.1
  have hstate : (c.noteReport e k).desktopState = c.desktopState := desktopState_noteReport
  have hnot : ¬(d.isObserver = false ∧ (c.mode = .idle ∨ c.mode = .desktopHandled) ∧
      (c'.mode = .monitoring ∨ c'.mode = .shuttingDown)) → ¬AsksDesktop d k c c' := by
    rintro hn (h | ⟨th, -, h, -⟩ | h)
    · exact hf h
    · exact hk th.id h
    · exact hn h
  -- a flow that starts asks, on a primary
  have hstart : (c.mode = .idle ∨ c.mode = .desktopHandled) →
      (c'.mode = .monitoring ∨ c'.mode = .shuttingDown) →
      c'.desktopState = ((c.noteReport e k).fetchAtStart d e).desktopState →
      (AsksDesktop d k c c' ∧ c'.desktopState = fetchedState d e c.desktopState) ∨
        (¬AsksDesktop d k c c' ∧ c'.desktopState = c.desktopState) := by
    intro h1 h2 h3
    rw [desktopState_fetchAtStart, hstate] at h3
    by_cases ho : d.isObserver = true
    · rw [if_pos ho] at h3
      exact .inr ⟨hnot fun hn => absurd (hn.1.symm.trans ho) (by decide), h3⟩
    · rw [if_neg ho] at h3
      exact .inl ⟨.inr (.inr ⟨by simpa using ho, h1, h2⟩), h3⟩
  cases acted_handler hk h with
  | keep orch log timer out desktop =>
    have hm : c'.mode = c.mode := (congrArg OrchState.mode orch).trans hmode
    refine .inr ⟨hnot fun ⟨_, h1, h2⟩ => ?_, (desktop hf hu).trans hstate⟩
    rw [hm] at h2
    rcases h1 with h1 | h1 <;> simp [h1] at h2
  | start mode orch _ _ desktop =>
    rw [hmode] at mode
    exact hstart mode (.inl (congrArg OrchState.mode orch)) desktop
  | startStrike r mode _ _ orch _ desktop =>
    rw [hmode] at mode
    exact hstart mode (.inr (congrArg OrchState.mode orch)) desktop
  | strike r mode _ _ _ _ desktop =>
    rw [hmode] at mode
    exact .inr ⟨hnot fun ⟨_, h1, _⟩ => by simp [mode] at h1, desktop.trans hstate⟩
  | confirm status call => exact absurd call (hu status)
  | suspend call => exact absurd call (hu _)
  | reset _ _ _ orch _ _ desktop =>
    have hm : c'.mode = .idle := congrArg OrchState.mode orch
    exact .inr ⟨hnot fun ⟨_, _, h2⟩ => by simp [hm] at h2, desktop.trans hstate⟩

theorem desktopState_segment (pc : Pc) : (segment d p e c pc).1.desktopState =
    if pc.isFetching then fetchedState d e c.desktopState else c.desktopState :=
  (workFrame_segment pc).desktop

variable (d e) in
/-- Until when the worker at `pc` waits for the desktop to shut down. -/
def waitDeadline : Pc → Option Int
  | .pushingShutdown => some (e.clock .deadline + d.timing.desktopShutdownWait)
  | .waitingDesktop deadline => some deadline
  | _ => none

theorem segment_eq_waitIteration (hd : waitDeadline d e pc = some deadline) :
    segment d p e c pc = c.waitIteration d e deadline := by
  cases pc with
  | pushingShutdown =>
    obtain rfl := Option.some.inj hd
    rfl
  | waitingDesktop dl =>
    obtain rfl := Option.some.inj hd
    rfl
  | _ => exact absurd hd (by simp [waitDeadline])

end Ctx

variable {t : Step s} {i j : s.Ix} {e : Env}

/-- The status that the action reports to `update-state` of context `i`. -/
def Action.reportOf (i : s.Ix) : Action s → Option (Option DesktopStatus)
  | .call j _ (.updateState status) => if j = i then some status else none
  | _ => none

/-- The step saves an answer of the agent for context `i`. -/
def SavesAnswer (i : s.Ix) (t : Step s) : Prop :=
  ∃ e k, t.act = .call i e k ∧ (s.dev i).desktop.isSome ∧ e.agent.isSome ∧
    Ctx.AsksDesktop (s.dev i) k (t.pre.ctx i) (t.post.ctx i)

theorem act_of_reportOf {a : Action s} {status : Option DesktopStatus}
    (hr : a.reportOf i = some status) : ∃ e, a = .call i e (.updateState status) := by
  unfold Action.reportOf at hr
  split at hr
  next j e st =>
    split_ifs at hr with hj
    obtain rfl := Option.some.inj hr
    exact ⟨e, by rw [hj]⟩
  · exact absurd hr (by simp)

theorem desktopState_report (ht : (system s).Takes t) {status : Option DesktopStatus}
    (hr : t.act.reportOf i = some status) : ¬SavesAnswer i t ∧
      (t.post.ctx i).desktopState = { status := some status } := by
  obtain ⟨e, hact⟩ := act_of_reportOf hr
  have hexec := Option.some.inj (exec_of_act ht hact)
  refine ⟨?_, by rw [← hexec, Ctx.desktopState_updateState]⟩
  rintro ⟨e', k, hact', -, -, hask⟩
  obtain ⟨-, -, rfl⟩ := Action.call.inj (hact.symm.trans hact')
  rw [← hexec] at hask
  exact Ctx.not_asksDesktop_updateState (c := (t.pre.ctx i).quiet) status hask

theorem savesAnswer_of_call {e : Env} {k : Call} (hact : t.act = .call i e k)
    (h : (Ctx.AsksDesktop (s.dev i) k (t.pre.ctx i) (t.post.ctx i) ∧ (t.post.ctx i).desktopState =
        Ctx.fetchedState (s.dev i) e (t.pre.ctx i).desktopState) ∨
      (¬Ctx.AsksDesktop (s.dev i) k (t.pre.ctx i) (t.post.ctx i) ∧
        (t.post.ctx i).desktopState = (t.pre.ctx i).desktopState)) :
    (∃ st ∈ t.act.env.agent, SavesAnswer i t ∧ (t.post.ctx i).desktopState = st) ∨
      (¬SavesAnswer i t ∧ (t.post.ctx i).desktopState = (t.pre.ctx i).desktopState) := by
  rcases h with ⟨hask, hst⟩ | ⟨hask, hst⟩
  · by_cases hd : (s.dev i).desktop.isSome ∧ e.agent.isSome
    · obtain ⟨st, hag⟩ := Option.isSome_iff_exists.mp hd.2
      rw [Ctx.fetchedState_of_some hd.1 hag] at hst
      exact .inl ⟨st, by rw [hact]; exact hag, ⟨e, k, hact, hd.1, hd.2, hask⟩, hst⟩
    · refine .inr ⟨?_, ?_⟩
      · rintro ⟨e', k', hact', h1, h2, -⟩
        obtain ⟨-, rfl, -⟩ := Action.call.inj (hact.symm.trans hact')
        exact hd ⟨h1, h2⟩
      · rw [hst, Ctx.fetchedState_of_not hd]
  · refine .inr ⟨?_, hst⟩
    rintro ⟨e', k', hact', -, -, h3⟩
    obtain ⟨-, -, rfl⟩ := Action.call.inj (hact.symm.trans hact')
    exact hask h3

/-- **Between two reports** only the agent's answers change the desktop state. -/
theorem desktopState_step (ht : (system s).Takes t) (hs : (t.pre.ctx i).Sound (s.dev i))
    (hr : t.act.reportOf i = none) :
    (∃ st ∈ t.act.env.agent, SavesAnswer i t ∧ (t.post.ctx i).desktopState = st) ∨
      (¬SavesAnswer i t ∧ (t.post.ctx i).desktopState = (t.pre.ctx i).desktopState) := by
  cases ctxStep ht i with
  | handler e k act hk exec =>
    have hu : ∀ status, k ≠ .updateState status := by
      rintro status rfl
      rw [act] at hr
      simp [Action.reportOf] at hr
    exact savesAnswer_of_call act (Ctx.desktopState_handler (c := (t.pre.ctx i).quiet) hk hu exec)
  | worker e th c pc step =>
    have hst := Ctx.desktopState_segment (d := s.dev i) (p := t.pre.peersOf i) (e := e)
      (c := (t.pre.ctx i).quiet) th.pc
    rw [step.seg] at hst
    have hpost : (t.post.ctx i).desktopState = c.desktopState := by rw [step.post]; rfl
    refine savesAnswer_of_call step.act ?_
    by_cases hf : th.pc.isFetching = true
    · rw [if_pos hf] at hst
      exact .inl ⟨.inr (.inl ⟨th, step.mem, rfl, hf⟩), hpost.trans hst⟩
    · rw [if_neg hf] at hst
      refine .inr ⟨?_, hpost.trans hst⟩
      rintro (h | ⟨th', hth', hid, hf'⟩ | ⟨-, h1, h2⟩)
      · exact absurd h (by simp)
      · obtain rfl := hs.eq_of_id step.mem hth' (Call.worker.inj hid)
        exact hf hf'
      · rw [step.post] at h2
        change c.mode = _ ∨ c.mode = _ at h2
        rcases step.outcome.orch_eq with ⟨ho, -⟩ | ⟨-, -, -, hm, -, -⟩
        · rw [show c.mode = (t.pre.ctx i).mode from congrArg OrchState.mode ho] at h2
          rcases h1 with h1 | h1 <;> simp [h1] at h2
        · simp [hm] at h2
  | other j e k act hj post =>
    refine .inr ⟨?_, by rw [post]; rfl⟩
    rintro ⟨e', k', hact', -⟩
    obtain ⟨rfl, -⟩ := Action.call.inj (act.symm.trans hact')
    exact hj rfl
  | restart e act post =>
    refine .inr ⟨?_, ?_⟩
    · rintro ⟨e', k', hact', -⟩
      rw [act] at hact'
      exact absurd hact' (by simp)
    · rw [post]
      simp only [Ctx.resetStateOnStartup, Ctx.cancelShutdownOnStartup]
      split
      · rfl
      · split_ifs <;> rfl

/-! ## Confirmations -/

/-- A step of the site with its fetches in flight. -/
abbrev FetchStep (s : Site) : Type := Transition (FetchWorld s) (FetchAction s)

variable {ft : FetchStep s} {tr : List (FetchStep s)} {w w' : FetchWorld s}

/-- The desktop reports to context `i`, while it is in `shutting_down`, that it is going away. -/
def ReportsDown (i : s.Ix) (ft : FetchStep s) : Prop :=
  ∃ t ∈ (toSystem s).image ft, (t.pre.ctx i).mode = .shuttingDown ∧
    ∃ status ∈ t.act.reportOf i, DesktopState.isDown { status := some status } = true

/-- The outage of context `i` goes on, and the desktop does not report otherwise. -/
def StandsBy (i : s.Ix) (ft : FetchStep s) : Prop :=
  ∀ t ∈ (toSystem s).image ft, (t.post.ctx i).mode ≠ .idle ∧
    ∀ status ∈ t.act.reportOf i, DesktopState.isDown { status := some status } = true

instance : DecidablePred (ReportsDown i) := fun ft => by unfold ReportsDown; infer_instance

instance : DecidablePred (StandsBy i) := fun ft => by unfold StandsBy; infer_instance

/-- In its present outage the desktop has confirmed to context `i` that it is going away. -/
def Confirmed (i : s.Ix) (tr : List (FetchStep s)) : Prop := Since (ReportsDown i) (StandsBy i) tr

/-- An answer of the agent has been saved for context `i` since the latest report. -/
def Overwritten (i : s.Ix) (tr : List (FetchStep s)) : Prop :=
  Since (fun ft => ∃ t ∈ (toSystem s).image ft, SavesAnswer i t)
    (fun ft => ∀ t ∈ (toSystem s).image ft, t.act.reportOf i = none) tr

instance : Decidable (Confirmed i tr) := by unfold Confirmed; infer_instance

/-- A confirmed desktop is on file as down unless the confirmation has been overwritten. -/
def OnFile (i : s.Ix) (tr : List (FetchStep s)) (w : FetchWorld s) : Prop :=
  Confirmed i tr → ((w.world.ctx i).reportsDesktopDown = true ↔ ¬Overwritten i tr)

theorem onFile_snoc (ht : (fetchSystem s).Takes ft) (hr : (fetchSystem s).Reachable ft.pre)
    (ih : OnFile i tr ft.pre) : OnFile i (tr ++ [ft]) ft.post := by
  intro hconf
  rw [Overwritten, since_snoc]
  have hconf' := since_snoc.mp hconf
  cases him : (toSystem s).image ft with
  | none =>
    have hworld : ft.post.world = ft.pre.world := (toSystem s).of_image_eq_none ht him
    have hkeep : Confirmed i tr := by
      rcases hconf' with ⟨t, hmem, -⟩ | h
      · exact absurd (him.symm.trans hmem) (by simp)
      · exact h.2
    rw [hworld, ih hkeep]
    simp [Overwritten]
  | some t =>
    have hst := (toSystem s).takes ht him
    obtain ⟨a, ha, hta⟩ := Option.map_eq_some_iff.mp him
    have hpre : t.pre = ft.pre.world := by rw [← hta]; rfl
    have hpost : t.post = ft.post.world := by rw [← hta]; rfl
    have hag : ∀ st ∈ t.act.env.agent, st = currentState := by
      have hbase := FetchWorld.step_base ht
      change ft.act.base = some a at ha
      rw [ha] at hbase
      rw [← hta]
      exact hbase.2
    simp only [Option.mem_def, Option.some.injEq, forall_eq', exists_eq_left'] at hconf' ⊢
    rw [← hpost]
    cases hrep : t.act.reportOf i with
    | some status =>
      -- a report that does not contradict the confirmation
      have hdown : DesktopState.isDown { status := some status } = true := by
        rcases hconf' with ⟨t', hmem, -, status', hst', hd⟩ | ⟨h, -⟩
        · obtain rfl := Option.some.inj (him.symm.trans hmem)
          obtain rfl := Option.some.inj (hrep.symm.trans hst')
          exact hd
        · exact (h t him).2 status hrep
      obtain ⟨hsave, hfile⟩ := desktopState_report hst hrep
      rw [Ctx.reportsDesktopDown, hfile]
      refine iff_of_true hdown ?_
      rintro (h | ⟨h, -⟩)
      · exact hsave h
      · exact absurd h (by simp)
    | none =>
      have hkeep : Confirmed i tr := by
        rcases hconf' with ⟨t', hmem, -, status', hst', -⟩ | h
        · obtain rfl := Option.some.inj (him.symm.trans hmem)
          exact absurd (hrep.symm.trans hst') (by simp)
        · exact h.2
      have hs : (t.pre.ctx i).Sound (s.dev i) := by
        rw [hpre]
        exact Reachable.sound ((toSystem s).reachable hr) i
      rcases desktopState_step hst hs hrep with ⟨st, hmem, hsave, hfile⟩ | ⟨hsave, hfile⟩
      · refine iff_of_false ?_ fun h => h (.inl hsave)
        rw [Ctx.reportsDesktopDown, hfile, hag st hmem]
        decide
      · rw [Ctx.reportsDesktopDown, hfile, hpre]
        rw [show (ft.pre.world.ctx i).desktopState.isDown = true ↔ _ from ih hkeep]
        simp [hsave, Overwritten]

/-- **A confirmation is on file until it is overwritten.** -/
theorem onFile (h : Run (fetchSystem s) w tr w') (hw : (fetchSystem s).init w) : OnFile i tr w' := by
  induction h with
  | nil => exact fun hconf => absurd hconf not_since_nil
  | @snoc v w' tr a hr ha ih =>
    exact onFile_snoc ha ⟨w, tr, hw, hr⟩ ih

/-! ## Reads -/

/-- The worker of context `i` passes through the wait loop before its time is up. -/
def WaitPass (i : s.Ix) (t : Step s) (e : Env) : Prop :=
  ∃ th ∈ (t.pre.ctx i).threads, t.act = .call i e (.worker th.id) ∧
    ∃ deadline, Ctx.waitDeadline (s.dev i) e th.pc = some deadline ∧ e.clock .loop < deadline

/-- The step reads the desktop state of context `i`: in the wait loop of `i`, or in the hold loop of an
observer to which no earlier owner reports the desktop down. -/
def ReadsDesktop (i : s.Ix) (t : Step s) : Prop :=
  ∃ e, ((t.pre.ctx i).mode = .shuttingDown ∧ WaitPass i t e) ∨
    ∃ k, (t.pre.ctx k).mode = .shuttingDown ∧ HoldPass k t e ∧
      ∃ l₁ l₂, s.desktopPeers k false = l₁ ++ i :: l₂ ∧
        ∀ j ∈ l₁, (t.pre.ctx j).reportsDesktopDown = false

/-- **No confirmation is lost.** Once the desktop has confirmed that it is going away, every read in
that outage sees it as down. -/
def ConfirmationsKept (x : Execution (fetchSystem s)) : Prop :=
  ∀ tr₁ ft tr₂, x.steps = tr₁ ++ ft :: tr₂ → ∀ i, Confirmed i tr₁ →
    ∀ t ∈ (toSystem s).image ft, ReadsDesktop i t → (t.pre.ctx i).reportsDesktopDown = true

/-- **No confirmation is lost exactly when** no read comes after an answer of the agent that was saved
over the latest report. -/
theorem confirmationsKept_iff (x : Execution (fetchSystem s)) : ConfirmationsKept x ↔
    ∀ tr₁ ft tr₂, x.steps = tr₁ ++ ft :: tr₂ → ∀ i, Confirmed i tr₁ →
      ∀ t ∈ (toSystem s).image ft, ReadsDesktop i t → ¬Overwritten i tr₁ := by
  have hiff : ∀ tr₁ ft tr₂, x.steps = tr₁ ++ ft :: tr₂ → ∀ i, Confirmed i tr₁ →
      ∀ t ∈ (toSystem s).image ft,
        ((t.pre.ctx i).reportsDesktopDown = true ↔ ¬Overwritten i tr₁) := by
    intro tr₁ ft tr₂ hx i hconf t hmem
    obtain ⟨h₁, -, -⟩ := (hx ▸ x.run).around
    obtain ⟨a, -, rfl⟩ := Option.map_eq_some_iff.mp hmem
    exact onFile h₁ x.init hconf
  constructor
  · intro h tr₁ ft tr₂ hx i hconf t hmem hread
    exact (hiff tr₁ ft tr₂ hx i hconf t hmem).mp (h tr₁ ft tr₂ hx i hconf t hmem hread)
  · intro h tr₁ ft tr₂ hx i hconf t hmem hread
    exact (hiff tr₁ ft tr₂ hx i hconf t hmem).mpr (h tr₁ ft tr₂ hx i hconf t hmem hread)

/-! ## A late answer -/

/-- The agent has answered the poll loop, and the desktop reports before the answer is saved. -/
def lateAnswer : List (FetchAction deskSite) :=
  [.server (.call mainUps (.at 0 online) (.event .lowbatt)),
    .server (.call mainUps (.at 0) (.worker 0)), .server (.call mainUps (.at 1) (.worker 0)),
    .request mainUps, .reply mainUps 0 ⟨some currentState, by simp⟩,
    .server (.call mainUps (.at 3) (.updateState (some .shuttingDown))),
    .save mainUps 0 (.at 4 online)]

theorem not_confirmationsKept : deskSite.Loaded ∧
    ∃ x : Execution (fetchSystem deskSite), ¬ConfirmationsKept x := by
  refine ⟨deskSite_loaded, ?_⟩
  obtain ⟨x, tr, ft, hx, -, hact, hconf, hm, hth, hdown⟩ := exists_execution_last
    (S := fetchSystem deskSite) (P := fun tr ft => Confirmed mainUps tr ∧
      (ft.pre.world.ctx mainUps).mode = .shuttingDown ∧
      (ft.pre.world.ctx mainUps).threads = [⟨0, .waitingDesktop 61⟩] ∧
      (ft.pre.world.ctx mainUps).reportsDesktopDown = false)
    lateAnswer (.server (.call mainUps (.at 6) (.worker 0)))
    (u := ⟨World.boot (.at 0) fun _ => {}, fun _ => []⟩) ⟨⟨.at 0, fun _ => {}, rfl⟩, fun _ => rfl⟩
    (by decide)
  have him : (toSystem deskSite).image ft =
      some ⟨ft.pre.world, .call mainUps (.at 6) (.worker 0), ft.post.world⟩ := by
    rw [Refinement.image, hact]
    rfl
  have hpass : WaitPass mainUps
      ⟨ft.pre.world, .call mainUps (.at 6) (.worker 0), ft.post.world⟩ (.at 6) := by
    refine ⟨⟨0, .waitingDesktop 61⟩, ?_, rfl, 61, rfl, by decide⟩
    rw [hth]
    exact List.mem_singleton_self _
  refine ⟨x, fun h => ?_⟩
  have hseen := h tr ft [] hx mainUps hconf _ him ⟨_, .inl ⟨hm, hpass⟩⟩
  exact absurd (hdown.symm.trans hseen) (by decide)

end UpsOrchestrator

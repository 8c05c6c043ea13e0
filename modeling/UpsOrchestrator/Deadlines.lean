import UpsOrchestrator.Observers

/-!
# Phase deadlines

A desktop-only flow is called off by the primary's next poll on mains. Until then its deadline can
still be reached, by the timer and by a poll that finds `upsc` unavailable.

* `Ctx.expiry_cases`: how a phase deadline can expire.
* `StaleExpiry`: it expires after the outage of the desktop's UPS is over.
* **`deadlinesCurrent_iff`**: no deadline fires for an outage known to be over exactly in the
  executions without such a step.
-/

set_option autoImplicit false

namespace UpsOrchestrator

open Lts

namespace Ctx

variable {d : UPSDeviceConfig} {p : Peers} {e : Env} {c c' : Ctx} {k : Call} {phase : Phase}
  {r r' : Reason}

theorem mem_out_resetToIdle {reason : String}
    (h : .phaseAction phase r ∈ (c.resetToIdle e reason).out) : .phaseAction phase r ∈ c.out := by
  simp only [resetToIdle, cancelPending] at h
  split at h
  · exact h
  · split_ifs at h
    · rcases List.mem_append.mp h with h | h
      · exact h
      · exact absurd (List.mem_singleton.mp h) (by simp)
    · exact h

theorem mem_out_executePhaseAction (h : .phaseAction phase r ∈ (c.executePhaseAction d e r').out)
    (hc : c.out = []) : r = r' ∧ c.mode = .monitoring := by
  by_cases hm : c.mode = .monitoring
  · rw [executePhaseAction_eq r' hm, hc] at h
    obtain ⟨-, hr⟩ := Effect.phaseAction.inj (List.mem_singleton.mp h)
    exact ⟨hr, hm⟩
  · rw [executePhaseAction_of_ne r' hm, hc] at h
    exact absurd h List.not_mem_nil

/-- **How a phase deadline expires**: with this UPS on battery, with the desktop's UPS on battery, by
the timer, or by a poll past the deadline without an answer of `upsc`. -/
theorem expiry_cases (hk : ∀ id, k ≠ .worker id) (hc : c.out = []) (h : k.exec d p e c = some c')
    (hout : .phaseAction phase .phaseDeadline ∈ c'.out) :
    c'.upsOnBattery = true ∨ p.desktopUpsOnBattery = true ∨
      (c.mode = .monitoring ∧ c'.upsOnBattery = c.upsOnBattery ∧
        (k = .timer ∨ (k = .upsUnavailable ∧ c.orch.phaseDeadline.getD 0 ≤ e.clock .check))) := by
  have hpower := (handlerFrame hk h).power
  by_cases hown : k.ownReport = some true
  · rw [hown] at hpower
    exact .inl hpower
  by_cases hp : p.desktopUpsOnBattery = true
  · exact .inr (.inl hp)
  refine .inr (.inr ?_)
  obtain ⟨ho, -, hflag⟩ := noteReport_frame (c := c) (e := e) (k := k)
  have hm : (c.noteReport e k).mode = c.mode := congrArg OrchState.mode ho
  have hb : (c.noteReport e k).out = [] := out_noteReport.trans hc
  have hnil : .phaseAction phase .phaseDeadline ∉ (c.noteReport e k).out :=
    hb ▸ List.not_mem_nil
  cases performs_handler hk h with
  | nothing => exact absurd hout hnil
  | fetch =>
    rw [fetchStateFromDesktop_fst] at hout
    exact absurd hout hnil
  | start _ outage => exact absurd outage (not_or.mpr ⟨hown, hp⟩)
  | strike r mode why poll =>
    obtain ⟨rfl, -⟩ := mem_out_executePhaseAction hout hb
    obtain rfl := ((poll rfl).resolve_left hown).resolve_left hp
    exact ⟨hm ▸ mode, hpower, .inr ⟨rfl, why.resolve_left fun hw => absurd hw.1 (by simp)⟩⟩
  | expire t call =>
    obtain rfl := call
    exact ⟨(mem_out_executePhaseAction hout hb).2, hpower, .inl rfl⟩
  | startStrike _ _ _ report => exact absurd report hown
  | reset => exact absurd (mem_out_resetToIdle hout) hnil
  | ignore => exact absurd hout hnil
  | confirm => exact absurd hout hnil
  | suspend => exact absurd hout hnil
  | createCommand => exact absurd hout hnil
  | ack id status =>
    rcases ack_cases (c := c.noteReport e k) id status with ⟨cmd, -, -, he⟩ | ⟨-, he⟩
    · rw [he] at hout
      exact absurd hout hnil
    · rw [he] at hout
      exact absurd hout hnil

/-- The timer, and a poll past the deadline, start the phase action in monitoring. -/
theorem expiry_fires (hm : c.mode = .monitoring)
    (hk : k = .timer ∨ (k = .upsUnavailable ∧ c.orch.phaseDeadline.getD 0 ≤ e.clock .check))
    (h : k.exec d p e c = some c') : ∃ phase, .phaseAction phase .phaseDeadline ∈ c'.out ∧
      c'.upsOnBattery = c.upsOnBattery := by
  rcases hk with rfl | ⟨rfl, hd⟩
  · obtain ⟨t, -, -, -, rfl⟩ := fireTimer_cases h
    rw [executePhaseAction_eq _ (by exact hm)]
    exact ⟨_, List.mem_append_right _ (List.mem_singleton_self _), rfl⟩
  · obtain rfl := Option.some.inj h
    simp only [handleUpsStatusUnavailable]
    rw [if_pos hm, checkPhaseDeadline, if_neg (not_lt.mpr hd), executePhaseAction_eq _ hm]
    exact ⟨_, List.mem_append_right _ (List.mem_singleton_self _), rfl⟩

theorem phaseAction_not_mem_reset :
    .phaseAction phase r ∉ (c.quiet.reboot.resetStateOnStartup e).out := by
  intro h
  simp only [resetStateOnStartup, cancelShutdownOnStartup] at h
  split at h
  · exact absurd h List.not_mem_nil
  · split_ifs at h
    · exact absurd (List.mem_singleton.mp h) (by simp)
    · exact absurd h List.not_mem_nil

end Ctx

variable {s : Site} {t : Step s} {i : s.Ix}

/-- **A phase deadline fires for a current outage only**: the primary's own UPS is noted on battery,
or an observer of its desktop is not idle. -/
def DeadlinesCurrent (x : Execution (system s)) : Prop :=
  ∀ t ∈ x.steps, ∀ i, (s.dev i).isObserver = false → ∀ phase,
    .phaseAction phase .phaseDeadline ∈ (t.post.ctx i).out →
      (t.post.ctx i).upsOnBattery = true ∨ ∃ j ∈ s.desktopPeers i true, (t.pre.ctx j).mode ≠ .idle

/-- The deadline of primary `i` is reached by its timer or by a poll without an answer of `upsc`,
while its UPS is on mains and the observers of its desktop are idle. -/
def StaleExpiry (i : s.Ix) (t : Step s) : Prop :=
  (s.dev i).isObserver = false ∧ (t.pre.ctx i).mode = .monitoring ∧
    (t.pre.ctx i).upsOnBattery = false ∧ (∀ j ∈ s.desktopPeers i true, (t.pre.ctx j).mode = .idle) ∧
    ∃ e, t.act = .call i e .timer ∨
      (t.act = .call i e .upsUnavailable ∧ (t.pre.ctx i).orch.phaseDeadline.getD 0 ≤ e.clock .check)

theorem phaseAction_of_staleExpiry (ht : (system s).Takes t) (hx : StaleExpiry i t) :
    ∃ phase, .phaseAction phase .phaseDeadline ∈ (t.post.ctx i).out ∧
      (t.post.ctx i).upsOnBattery = (t.pre.ctx i).upsOnBattery := by
  obtain ⟨-, hm, -, -, e, hact | ⟨hact, hd⟩⟩ := hx
  · exact Ctx.expiry_fires (c := (t.pre.ctx i).quiet) hm (.inl rfl) (exec_of_act ht hact)
  · exact Ctx.expiry_fires (c := (t.pre.ctx i).quiet) hm (.inr ⟨rfl, hd⟩) (exec_of_act ht hact)

/-- **No deadline fires for an outage that is known to be over, exactly when** the timer and the
polls without an answer of `upsc` never reach the deadline of a desktop-only flow before the next
poll on mains has called it off. -/
theorem deadlinesCurrent_iff (x : Execution (system s)) :
    DeadlinesCurrent x ↔ ∀ t ∈ x.steps, ∀ i, ¬StaleExpiry i t := by
  constructor
  · intro h t ht i hx
    obtain ⟨phase, hout, hpower⟩ := phaseAction_of_staleExpiry (x.takes ht) hx
    obtain ⟨hrole, hm, hp, hpeers, -⟩ := hx
    rcases h t ht i hrole phase hout with hlive | ⟨j, hj, hne⟩
    · exact absurd (hlive.symm.trans (hpower.trans hp)) (by decide)
    · exact hne (hpeers j hj)
  · intro h t ht i hrole phase hout
    by_contra hlive
    rw [not_or, Bool.not_eq_true] at hlive
    obtain ⟨hown, hpeers⟩ := hlive
    have hidle : ∀ j ∈ s.desktopPeers i true, (t.pre.ctx j).mode = .idle := fun j hj => by
      by_contra hne
      exact hpeers ⟨j, hj, hne⟩
    cases ctxStep (x.takes ht) i with
    | handler e k act hk exec =>
      rcases Ctx.expiry_cases hk rfl exec hout with hb | hb | ⟨hm, hp, hkd⟩
      · exact absurd (hb.symm.trans hown) (by decide)
      · obtain ⟨j, hj, hne⟩ := desktopUpsOnBattery_iff.mp hb
        exact hpeers ⟨j, hj, hne⟩
      · refine h t ht i ⟨hrole, hm, hp.symm.trans hown, hidle, e, ?_⟩
        rcases hkd with rfl | ⟨rfl, hd⟩
        · exact .inl act
        · exact .inr ⟨act, hd⟩
    | worker e th c pc step =>
      rw [step.post] at hout
      exact nomatch step.outcome.effect rfl hout
    | other j e k act hj post =>
      rw [post] at hout
      exact absurd hout List.not_mem_nil
    | restart e act post =>
      rw [post] at hout
      exact Ctx.phaseAction_not_mem_reset hout

/-! ## The timer outlives the outage of the desktop's UPS -/

/-- A primary and an observer on one desktop. -/
def pairSite : Site where
  devices :=
    [{ id := "main", nutName := "main@localhost"
       desktop := some { agentUrl := "http://desktop:8080" } },
     { id := "desk", nutName := "desk@localhost", role := .observer
       desktop := some { agentUrl := "http://desktop:8080" } }]
  ids_nodup := by decide

def pairMain : pairSite.Ix := ⟨0, by decide⟩

def pairDesk : pairSite.Ix := ⟨1, by decide⟩

theorem pairSite_loaded : pairSite.Loaded :=
  ⟨[{ id := "main", nutName := "main@localhost" },
    { id := "desk", nutName := "desk@localhost", role := some (some "observer")
      desktop := some { agentUrl := "http://desktop:8080" } }], rfl⟩

/-- The desktop's UPS is out for less than the phase, but it is back only after the primary's last
poll before the deadline. -/
def timerOutlives : List (Action pairSite) :=
  [.call pairDesk (.at 0) (.upsStatus "OB"), .call pairMain (.at 0) (.upsStatus "OL"),
    .call pairDesk (.at 350) (.upsStatus "OL"), .call pairMain (.at 360) .timer]

theorem not_deadlinesCurrent : pairSite.Loaded ∧
    ∃ x : Execution (system pairSite), ¬DeadlinesCurrent x := by
  refine ⟨pairSite_loaded, ?_⟩
  obtain ⟨x, t, ht, hout, hp, hidle⟩ := exists_execution (S := system pairSite)
    timerOutlives (P := fun tr => ∃ t ∈ tr,
      .phaseAction .suspendWait .phaseDeadline ∈ (t.post.ctx pairMain).out ∧
      (t.post.ctx pairMain).upsOnBattery = false ∧
      ∀ j ∈ pairSite.desktopPeers pairMain true, (t.pre.ctx j).mode = .idle)
    ⟨.at 0, fun _ => {}, rfl⟩ (by decide)
  refine ⟨x, fun h => ?_⟩
  rcases h t ht pairMain (by decide) _ hout with hlive | ⟨j, hj, hne⟩
  · exact absurd (hlive.symm.trans hp) (by decide)
  · exact hne (hidle j hj)

end UpsOrchestrator

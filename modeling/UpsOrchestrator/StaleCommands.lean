import UpsOrchestrator.Network

/-!
# Stale commands

The agent asks `preflight` before it acts on a pushed command. The server knows a command by its id,
which is made of its kind and the second in which it was issued.

* `Current`: the command of a push is still the one on file, neither cancelled nor acknowledged.
* `NoStaleCommand`: preflight allows the commands of current pushes only;
  **`noStaleCommand`**: in every execution in which no id is used again (`Reuses`).
-/

set_option autoImplicit false

namespace UpsOrchestrator

open Lts

variable {s : Site} (agents : s.Ix → AgentConfig s)

/-! ## The property -/

/-- The step saves a pending command in context `i`. -/
def Stores (i : s.Ix) (t : NetStep s) : Prop :=
  ∃ b ∈ (Network.toSite agents).image t, SavesPending i b

/-- The step cancels or acknowledges the command on file in context `i`. -/
def Closes (i : s.Ix) (t : NetStep s) : Prop :=
  ∃ b ∈ (Network.toSite agents).image t, ClosesCommand i b

/-- The `n`-th push is made in this step. -/
def Pushed (n : ℕ) (t : NetStep s) : Prop := t.pre.pushes.length ≤ n ∧ n < t.post.pushes.length

/-- **The `n`-th push is current**: its context is the one that its agent asks, and has stored no
other command since, and neither cancelled nor acknowledged this one. -/
def Current (tr : List (NetStep s)) (n : ℕ) (p : Push s) : Prop :=
  askedBy agents p.origin = p.origin ∧
    Since (Pushed n) (fun t => ¬Stores agents p.origin t ∧ ¬Closes agents p.origin t) tr

/-- The server answers `allow` to the preflight of the `n`-th push. -/
def Allows (n : ℕ) (t : NetStep s) : Prop :=
  ∃ m q, t.act = .preflight m ∧ t.pre.requests[m]? = some q ∧ q.thread = n ∧
    t.post.requests[m]? = some { q with response := some (.preflight .allow) }

/-- **No stale command passes preflight.** -/
def NoStaleCommand (x : Execution (network agents)) : Prop :=
  ∀ tr t rest, x.steps = tr ++ t :: rest → ∀ n, Allows n t →
    ∃ p, t.pre.pushes[n]? = some p ∧ Current agents tr n p

/-! ## Ids that are used again -/

/-- Preflight does not tell the two commands apart. -/
def Command.SameName (cmd cmd' : Command) : Prop := cmd.id = cmd'.id ∧ cmd.command = cmd'.command

instance (cmd cmd' : Command) : Decidable (cmd.SameName cmd') := inferInstanceAs (Decidable (_ ∧ _))

/-- **The step uses the name of a command again**: it stores a command under the name of an earlier
push whose agent asks the context, or pushes one under the name of the command that is on file where
the agent asks, if that is another context. -/
def Reuses (t : NetStep s) : Prop :=
  (∃ b ∈ (Network.toSite agents).image t, ∃ i, StoresCommand i b ∧
    ∃ cmd ∈ (b.post.ctx i).command, ∃ p ∈ t.pre.pushes,
      askedBy agents p.origin = i ∧ p.cmd.SameName cmd) ∨
  ∃ p ∈ t.post.pushes.drop t.pre.pushes.length, askedBy agents p.origin ≠ p.origin ∧
    ∃ cmd ∈ (t.pre.world.ctx (askedBy agents p.origin)).command, p.cmd.SameName cmd

/-! ## Steps -/

variable {agents} {t : NetStep s} {b : Step s} {i : s.Ix} {cmd : Command}
  {tr : List (NetStep s)} {n : ℕ} {p : Push s} {w : Network s}

theorem Ctx.pushCommand_not_mem_reset {c : Ctx} {e : Env} (hc : c.out = []) :
    Effect.pushCommand cmd ∉ (c.resetStateOnStartup e).out := by
  simp only [resetStateOnStartup, cancelShutdownOnStartup]
  split
  · simp [leaveMonitoring, hc]
  · split_ifs
    · simp [leaveMonitoring, saveCommand, hc]
    · simp [leaveMonitoring, hc]

theorem call_of_push (hb : (system s).Takes b) (h : Effect.pushCommand cmd ∈ (b.post.ctx i).out) :
    ∃ e k, b.act = .call i e k := by
  cases ctxStep hb i with
  | handler e k act => exact ⟨e, k, act⟩
  | worker e th c pc step => exact ⟨e, _, step.act⟩
  | other j e k act hj post =>
    rw [post] at h
    exact absurd h List.not_mem_nil
  | restart e act post =>
    rw [post] at h
    exact absurd h (Ctx.pushCommand_not_mem_reset rfl)

theorem command_of_call {j : s.Ix} {e : Env} {k : Call} (hb : (system s).Takes b)
    (hact : b.act = .call j e k) (hi : i ≠ j) :
    (b.post.ctx i).command = (b.pre.ctx i).command := by
  have hstep : b.pre.step (.call j e k) = some b.post := by
    rw [← hact]
    exact hb
  obtain ⟨-, c, -, hw⟩ := step_call hstep
  rw [hw]
  show (Function.update b.pre.quiet j c i).command = _
  rw [Function.update_of_ne hi]
  rfl

theorem push_of_mem_handlers {v : World s} {th : AgentThread s} (h : th ∈ v.handlers agents) :
    Effect.pushCommand th.push.cmd ∈ (v.ctx th.push.origin).out ∧
      th.prog.Avoids (AgentOp.strange th.push.cmd) := by
  simp only [World.handlers, List.mem_flatMap, List.mem_filterMap] at h
  obtain ⟨i, -, eff, heff, hth⟩ := h
  cases eff with
  | pushCommand cmd =>
    simp only [handlerOf, Option.ite_none_right_eq_some, Option.map_eq_some_iff] at hth
    obtain ⟨-, p, hp, rfl⟩ := hth
    exact ⟨heff, Agent.strange_doPost hp⟩
  | _ => exact absurd hth (by simp [handlerOf])

theorem Current.snoc (h : Current agents tr n p) (hs : ¬Stores agents p.origin t)
    (hc : ¬Closes agents p.origin t) : Current agents (tr ++ [t]) n p :=
  ⟨h.1, since_snoc.mpr (.inr ⟨⟨hs, hc⟩, h.2⟩)⟩

theorem Current.of_image_eq_none (h : Current agents tr n p)
    (him : (Network.toSite agents).image t = none) : Current agents (tr ++ [t]) n p := by
  refine h.snoc ?_ ?_
  · rintro ⟨b, hb, -⟩
    exact absurd (him.symm.trans hb) (by simp)
  · rintro ⟨b, hb, -⟩
    exact absurd (him.symm.trans hb) (by simp)

/-! ## The invariant -/

/-- What the transitions so far say about a state of the network. -/
structure Tracked (agents : s.Ix → AgentConfig s) (tr : List (NetStep s)) (w : Network s) :
    Prop where
  /-- a thread asks about its own push only -/
  prog : ∀ th ∈ w.threads, th.prog.Avoids (AgentOp.strange th.push.cmd)
  request : ∀ q ∈ w.requests, ∃ p, w.pushes[q.thread]? = some p ∧ q.ups = askedBy agents p.origin ∧
    AgentOp.strange p.cmd (.post q.request) = false
  /-- a push under the name of the pending command is current -/
  current : ∀ n p, w.pushes[n]? = some p → ∀ cmd,
    (w.world.ctx (askedBy agents p.origin)).command = some cmd → cmd.status = .pending →
      p.cmd.SameName cmd → Current agents tr n p

theorem current_step (hb : (system s).Takes b) (him : (Network.toSite agents).image t = some b)
    (hr : ¬Reuses agents t) (hp : p ∈ t.pre.pushes)
    (hpre : ∀ cmd, (b.pre.ctx (askedBy agents p.origin)).command = some cmd →
      cmd.status = .pending → p.cmd.SameName cmd → Current agents tr n p)
    (hcmd : (b.post.ctx (askedBy agents p.origin)).command = some cmd)
    (hpending : cmd.status = .pending) (hsame : p.cmd.SameName cmd) :
    Current agents (tr ++ [t]) n p := by
  cases commandStep hb (askedBy agents p.origin) with
  | keep command saves closes =>
    have hcur := hpre cmd (command.symm.trans hcmd) hpending hsame
    rw [hcur.1] at saves closes
    refine hcur.snoc ?_ ?_
    · rintro ⟨b', hb', h⟩
      obtain rfl := Option.some.inj (him.symm.trans hb')
      exact saves h
    · rintro ⟨b', hb', h⟩
      obtain rfl := Option.some.inj (him.symm.trans hb')
      exact closes h
  | store cmd' _ command _ stores =>
    exact absurd (.inl ⟨b, him, _, stores, cmd, hcmd, p, hp, rfl, hsame⟩) hr
  | close cmd' closed command =>
    obtain rfl := Option.some.inj (command.symm.trans hcmd)
    exact absurd hpending closed

theorem current_push (hb : (system s).Takes b) (hr : ¬Reuses agents t)
    (hworld : b.pre = t.pre.world) (hn : Pushed n t)
    (hp : p ∈ t.post.pushes.drop t.pre.pushes.length)
    (hpush : Effect.pushCommand p.cmd ∈ (b.post.ctx p.origin).out)
    (hcmd : (b.post.ctx (askedBy agents p.origin)).command = some cmd)
    (hsame : p.cmd.SameName cmd) : Current agents (tr ++ [t]) n p := by
  by_cases hi : askedBy agents p.origin = p.origin
  · exact ⟨hi, since_snoc.mpr (.inl hn)⟩
  · obtain ⟨e, k, hact⟩ := call_of_push hb hpush
    rw [command_of_call hb hact hi, hworld] at hcmd
    exact absurd (.inr ⟨p, hp, hi, cmd, hcmd, hsame⟩) hr

theorem exec_requests {o : AgentOp} {i : s.Ix} {e : AgentEnv} {sent sent' : List (Sent s)}
    {ans : o.Ans} (h : o.exec n i e sent = some (ans, sent')) :
    sent' = sent ∨ ∃ r, o = .post r ∧ sent' = sent ++ [⟨n, i, r, none⟩] := by
  cases o with
  | post r => exact .inr ⟨r, rfl, (congrArg Prod.snd (Option.some.inj h)).symm⟩
  | response m =>
    simp only [AgentOp.exec] at h
    split_ifs at h
    · obtain ⟨r, -, hr⟩ := Option.map_eq_some_iff.mp h
      exact .inl (congrArg Prod.snd hr).symm
    · exact .inl (congrArg Prod.snd (Option.some.inj h)).symm
  | _ => exact .inl (congrArg Prod.snd (Option.some.inj h)).symm

theorem pushes_set {q q' : Agent Unit} {l : List (AgentThread s)} (h : l[n]? = some ⟨p, q⟩) :
    (l.set n ⟨p, q'⟩).map (·.push) = l.map (·.push) := by
  obtain ⟨hn, he⟩ := List.getElem?_eq_some_iff.mp h
  have hn' : n < (l.map (·.push)).length := by rwa [List.length_map]
  have hp : (l.map (·.push))[n] = p := by rw [List.getElem_map, he]
  calc (l.set n ⟨p, q'⟩).map (·.push) = (l.map (·.push)).set n p := List.map_set
    _ = (l.map (·.push)).set n (l.map (·.push))[n] := by rw [hp]
    _ = l.map (·.push) := List.set_getElem_self hn'

theorem Tracked.request_set {m : ℕ} {q q' : Sent s} {r : Option Response} (hI : Tracked agents tr w)
    (hq : w.requests[m]? = some q) (hq' : q' ∈ w.requests.set m { q with response := r }) :
    ∃ p, w.pushes[q'.thread]? = some p ∧ q'.ups = askedBy agents p.origin ∧
      AgentOp.strange p.cmd (.post q'.request) = false := by
  rcases List.mem_or_eq_of_mem_set hq' with h | rfl
  · exact hI.request q' h
  · exact hI.request q (List.mem_of_getElem? hq)

theorem tracked_of_init (h : (network agents).init w) : Tracked agents [] w := by
  obtain ⟨-, h1, h2⟩ := h
  refine ⟨by simp [h1], by simp [h2], fun n p hp => ?_⟩
  simp [Network.pushes, h1] at hp

theorem pushes_server (h : t.post.threads = t.pre.threads ++ t.post.world.handlers agents) :
    t.post.pushes = t.pre.pushes ++ (t.post.world.handlers agents).map (·.push) := by
  rw [Network.pushes, h, List.map_append]
  rfl

theorem Tracked.current_server (hI : Tracked agents tr t.pre)
    (hb : (system s).Takes b) (him : (Network.toSite agents).image t = some b)
    (hpre : b.pre = t.pre.world) (hpost : b.post = t.post.world) (hr : ¬Reuses agents t)
    (threads : t.post.threads = t.pre.threads ++ t.post.world.handlers agents)
    (hp : t.post.pushes[n]? = some p)
    (hcmd : (b.post.ctx (askedBy agents p.origin)).command = some cmd)
    (hpending : cmd.status = .pending) (hsame : p.cmd.SameName cmd) :
    Current agents (tr ++ [t]) n p := by
  have hpushes := pushes_server threads
  by_cases hn : n < t.pre.pushes.length
  · have hold : t.pre.pushes[n]? = some p := by
      rwa [hpushes, List.getElem?_append_left hn] at hp
    refine current_step hb him hr (List.mem_of_getElem? hold) ?_ hcmd hpending hsame
    rw [hpre]
    exact hI.current n p hold
  · have hmem : p ∈ (t.post.world.handlers agents).map (·.push) := by
      rw [hpushes, List.getElem?_append_right (not_lt.mp hn)] at hp
      exact List.mem_of_getElem? hp
    have hnew : p ∈ t.post.pushes.drop t.pre.pushes.length := by
      rw [hpushes, List.drop_left]
      exact hmem
    obtain ⟨th, hth, rfl⟩ := List.mem_map.mp hmem
    refine current_push hb hr hpre ⟨not_lt.mp hn, (List.getElem?_eq_some_iff.mp hp).1⟩ hnew ?_ hcmd
      hsame
    rw [hpost]
    exact (push_of_mem_handlers hth).1

theorem Tracked.current_silent (hI : Tracked agents tr t.pre)
    (him : (Network.toSite agents).image t = none) (world : t.post.world = t.pre.world)
    (hp : t.pre.pushes[n]? = some p)
    (hcmd : (t.post.world.ctx (askedBy agents p.origin)).command = some cmd)
    (hpending : cmd.status = .pending) (hsame : p.cmd.SameName cmd) :
    Current agents (tr ++ [t]) n p := by
  rw [world] at hcmd
  exact (hI.current n p hp cmd hcmd hpending hsame).of_image_eq_none him

/-- **The invariant is kept by every step that uses no name again.** -/
theorem tracked_step (ht : (network agents).Takes t) (hr : ¬Reuses agents t)
    (hI : Tracked agents tr t.pre) : Tracked agents (tr ++ [t]) t.post := by
  cases networkStep ht with
  | server a act step threads requests =>
    have hb : (system s).Takes ⟨t.pre.world, a, t.post.world⟩ := step
    have him : (Network.toSite agents).image t = some ⟨t.pre.world, a, t.post.world⟩ := by
      rw [Refinement.image, act]
      rfl
    refine ⟨fun th hth => ?_, fun q hq => ?_, fun n p hp cmd hcmd hpending hsame =>
      hI.current_server hb him rfl rfl hr threads hp hcmd hpending hsame⟩
    · rw [threads] at hth
      rcases List.mem_append.mp hth with hth | hth
      · exact hI.prog th hth
      · exact (push_of_mem_handlers hth).2
    · rw [requests] at hq
      obtain ⟨p, hp, hq'⟩ := hI.request q hq
      refine ⟨p, ?_, hq'⟩
      rw [pushes_server threads, List.getElem?_append_left (List.getElem?_eq_some_iff.mp hp).1]
      exact hp
  | agent n e push o k ans act thread exec world threads =>
    have him : (Network.toSite agents).image t = none := by
      rw [Refinement.image, act]
      rfl
    have hpushes : t.post.pushes = t.pre.pushes := by
      rw [Network.pushes, threads]
      exact pushes_set thread
    have hprog := hI.prog _ (List.mem_of_getElem? thread)
    refine ⟨fun th hth => ?_, fun q hq => ?_, fun n p hp cmd hcmd hpending hsame =>
      hI.current_silent him world (hpushes ▸ hp) hcmd hpending hsame⟩
    · rw [threads] at hth
      rcases List.mem_or_eq_of_mem_set hth with hth | rfl
      · exact hI.prog th hth
      · exact hprog.2 ans
    · rw [hpushes]
      rcases exec_requests exec with h | ⟨r, rfl, h⟩
      · rw [h] at hq
        exact hI.request q hq
      · rw [h] at hq
        rcases List.mem_append.mp hq with hq | hq
        · exact hI.request q hq
        · obtain rfl := List.mem_singleton.mp hq
          refine ⟨push, ?_, rfl, hprog.1⟩
          rw [Network.pushes, List.getElem?_map, thread]
          rfl
  | preflight m q id command act request asks world threads requests =>
    have him : (Network.toSite agents).image t = none := by
      rw [Refinement.image, act]
      rfl
    have hpushes : t.post.pushes = t.pre.pushes := by rw [Network.pushes, threads]; rfl
    refine ⟨fun th hth => hI.prog th (threads ▸ hth), fun q' hq' => ?_,
      fun n p hp cmd hcmd hpending hsame =>
        hI.current_silent him world (hpushes ▸ hp) hcmd hpending hsame⟩
    rw [hpushes]
    exact hI.request_set request (requests ▸ hq')
  | ack m q i e id status response act request step threads requests =>
    have hb : (system s).Takes ⟨t.pre.world, .call i e (.ack id status), t.post.world⟩ := step
    have him : (Network.toSite agents).image t =
        some ⟨t.pre.world, .call i e (.ack id status), t.post.world⟩ := by
      rw [Refinement.image, act]
      rfl
    have hpushes : t.post.pushes = t.pre.pushes := by rw [Network.pushes, threads]; rfl
    refine ⟨fun th hth => hI.prog th (threads ▸ hth), fun q' hq' => ?_,
      fun n p hp cmd hcmd hpending hsame => ?_⟩
    · rw [hpushes]
      exact hI.request_set request (requests ▸ hq')
    · rw [hpushes] at hp
      exact current_step hb him hr (List.mem_of_getElem? hp) (hI.current n p hp) hcmd hpending
        hsame

theorem Tracked.current_of_allows (ht : (network agents).Takes t) (hI : Tracked agents tr t.pre)
    (ha : Allows n t) : ∃ p, t.pre.pushes[n]? = some p ∧ Current agents tr n p := by
  obtain ⟨m, q, hact, hq, rfl, hpost⟩ := ha
  obtain ⟨p, hp, hups, hstrange⟩ := hI.request q (List.mem_of_getElem? hq)
  refine ⟨p, hp, ?_⟩
  cases networkStep ht with
  | preflight m' q' id command act request asks _ _ requests =>
    obtain rfl := NetAction.preflight.inj (act.symm.trans hact)
    obtain rfl := Option.some.inj (request.symm.trans hq)
    have hallow : (t.pre.world.ctx q'.ups).preflight id command = .allow := by
      have hm := (List.getElem?_eq_some_iff.mp hq).1
      rw [requests, List.getElem?_set_self hm] at hpost
      exact Response.preflight.inj (Option.some.inj (congrArg Sent.response (Option.some.inj hpost)))
    obtain ⟨cmd, hcmd, hpending, hid, hname⟩ := Ctx.preflight_eq_allow.mp hallow
    rw [asks] at hstrange
    have hsame : id = p.cmd.id ∧ command = p.cmd.command := by
      simpa [AgentOp.strange] using hstrange
    exact hI.current _ p hp cmd (hups ▸ hcmd) hpending
      ⟨hsame.1.symm.trans hid.symm, hsame.2.symm.trans hname.symm⟩
  | server _ act => exact absurd (act.symm.trans hact) (by simp)
  | agent _ _ _ _ _ _ act => exact absurd (act.symm.trans hact) (by simp)
  | ack _ _ _ _ _ _ _ act => exact absurd (act.symm.trans hact) (by simp)

theorem tracked_of_run {u : Network s} (h : Run (network agents) u tr w) (hu : (network agents).init u)
    (hr : ∀ t ∈ tr, ¬Reuses agents t) : Tracked agents tr w := by
  induction h with
  | nil => exact tracked_of_init hu
  | @snoc v w tr a _ ha ih =>
    have hv := ih fun t ht => hr t (List.mem_append_left _ ht)
    exact tracked_step (t := ⟨v, a, w⟩) ha (hr _ (by simp)) hv

/-- **No stale command passes preflight** in an execution in which no name is used again. -/
theorem noStaleCommand (x : Execution (network agents)) (hr : ∀ t ∈ x.steps, ¬Reuses agents t) :
    NoStaleCommand agents x := by
  intro tr t rest hx n ha
  obtain ⟨h₁, ht, -⟩ := (hx ▸ x.run).around
  have hI : Tracked agents tr t.pre :=
    tracked_of_run h₁ x.init fun t' ht' => hr t' (hx ▸ List.mem_append_left _ ht')
  exact hI.current_of_allows ht ha

/-! ## Two outages -/

instance (n : ℕ) : DecidablePred (Pushed (s := s) n) := fun _ => inferInstanceAs (Decidable (_ ∧ _))

instance (i : s.Ix) : DecidablePred (Stores agents i) :=
  fun t => inferInstanceAs (Decidable (∃ b ∈ (Network.toSite agents).image t, SavesPending i b))

instance (i : s.Ix) : DecidablePred (Closes agents i) :=
  fun t => inferInstanceAs (Decidable (∃ b ∈ (Network.toSite agents).image t, ClosesCommand i b))

instance : DecidablePred (Reuses agents) := fun _ => inferInstanceAs (Decidable (_ ∨ _))

/-- The agent of the desktop, with the default configuration. -/
def deskAgent (i : deskSite.Ix) : AgentConfig deskSite where
  upsDeviceId := i

/-- An outage ends, and the prompt of the next one is answered. -/
def promptOfTheSecond : List (NetAction deskSite) :=
  [.server (.call mainUps (.at 0 online) (.event .onbatt)),
    .server (.call mainUps (.at 1) (.event .online)),
    .server (.call mainUps (.at 2 online) (.event .onbatt)),
    .agent 1 { choice := some .shutdown }, .agent 1 {}]

theorem noStaleCommand_secondOutage : ∃ x : Execution (network deskAgent),
    NoStaleCommand deskAgent x ∧ ∃ t ∈ x.steps, Allows 1 t := by
  obtain ⟨x, tr, t, hx, -, hact, hr, hr', hq, hpost⟩ := exists_execution_last
    (S := network deskAgent) (P := fun tr t =>
      (∀ t' ∈ tr, ¬Reuses deskAgent t') ∧ ¬Reuses deskAgent t ∧
      t.pre.requests[0]? = some ⟨1, mainUps, .preflight "state-2" "ups_state", none⟩ ∧
      t.post.requests[0]? =
        some ⟨1, mainUps, .preflight "state-2" "ups_state", some (.preflight .allow)⟩)
    promptOfTheSecond (.preflight 0) (u := ⟨World.boot (.at 0) fun _ => {}, [], []⟩)
    ⟨⟨.at 0, fun _ => {}, rfl⟩, rfl, rfl⟩ (by decide)
  refine ⟨x, noStaleCommand x fun t' ht' => ?_, t, by simp [hx], 0, _, hact, hq, rfl, hpost⟩
  rw [hx, List.mem_append, List.mem_singleton] at ht'
  rcases ht' with ht' | rfl
  · exact hr t' ht'
  · exact hr'

/-- Both outages in one second; the prompt of the first one is answered in the second one. -/
def promptOfTheFirst : List (NetAction deskSite) :=
  [.server (.call mainUps (.at 0 online) (.event .onbatt)),
    .server (.call mainUps (.at 0) (.event .online)),
    .server (.call mainUps (.at 0 online) (.event .onbatt)),
    .agent 0 { choice := some .shutdown }, .agent 0 {}]

theorem not_noStaleCommand : deskSite.Loaded ∧
    ∃ x : Execution (network deskAgent), ¬NoStaleCommand deskAgent x := by
  refine ⟨deskSite_loaded, ?_⟩
  obtain ⟨x, tr, t, hx, -, hact, hq, hpost, hlate⟩ := exists_execution_last
    (S := network deskAgent) (P := fun tr t =>
      t.pre.requests[0]? = some ⟨0, mainUps, .preflight "state-0" "ups_state", none⟩ ∧
      t.post.requests[0]? =
        some ⟨0, mainUps, .preflight "state-0" "ups_state", some (.preflight .allow)⟩ ∧
      ¬Since (Pushed 0) (fun t => ¬Stores deskAgent mainUps t ∧ ¬Closes deskAgent mainUps t) tr)
    promptOfTheFirst (.preflight 0) (u := ⟨World.boot (.at 0) fun _ => {}, [], []⟩)
    ⟨⟨.at 0, fun _ => {}, rfl⟩, rfl, rfl⟩ (by decide)
  refine ⟨x, fun h => ?_⟩
  obtain ⟨p, -, hcur⟩ := h tr t [] hx 0 ⟨0, _, hact, hq, rfl, hpost⟩
  have hone : ∀ i : deskSite.Ix, i = mainUps := by decide
  have horigin : p.origin = mainUps := hone p.origin
  rw [Current, horigin] at hcur
  exact hlate hcur.2

end UpsOrchestrator

import UpsOrchestrator.PollLoop

/-!
# Recovery

The power is back at every UPS. The poll loop alone brings the server to rest: first the observers,
which follow no other UPS, then the primaries, then the workers that are left.

* `PollAct.OnMains`: a step that shows a UPS on mains.
* `Recovered`: a context is idle, and nothing is about to take it out of that; **`recovered_step`**.
* `Recovering`: the two stages; **`recovering_step`**.
* **`recoveryAnswered`**: from the return of the power to the rest.
-/

set_option autoImplicit false

namespace UpsOrchestrator

open Lts

variable {s : Site} {interval δ limit : Int} {t : PollStep s} {i : s.Ix} {w : Polled s}

/-! ## On mains -/

/-- **UPS `i` is on mains** as far as the step shows: the server is not restarted, `upsc` says so if it is
asked, and NUT does not say otherwise. -/
def PollAct.OnMains (i : s.Ix) : PollAct s → Prop
  | .server (.call j _ k) => j = i → k ≠ .event .onbatt ∧ k ≠ .event .lowbatt
  | .server (.restart _) => False
  | .poll j e pos => j = i → pos = .read → (pollCall e.upsc).ownReport = some false
  | .advance _ => True

instance (a : PollAct s) : Decidable (a.OnMains i) :=
  match a with
  | .server (.call j _ k) =>
    inferInstanceAs (Decidable (j = i → k ≠ .event .onbatt ∧ k ≠ .event .lowbatt))
  | .server (.restart _) => inferInstanceAs (Decidable False)
  | .poll j e pos =>
    inferInstanceAs (Decidable (j = i → pos = .read → (pollCall e.upsc).ownReport = some false))
  | .advance _ => inferInstanceAs (Decidable True)

theorem Call.ownReport_ne_true {k : Call} (hp : k.polls = false)
    (ho : k ≠ .event .onbatt ∧ k ≠ .event .lowbatt) : k.ownReport ≠ some true := by
  cases k with
  | event ev => cases ev <;> simp [Call.ownReport] at ho ⊢
  | upsStatus => exact absurd hp (by simp [Call.polls])
  | _ => simp [Call.ownReport]

theorem PollAct.OnMains.reports {a : PollAct s} (h : a.OnMains i) : a.Reports false i := by
  cases a with
  | server a =>
    cases a with
    | call j e k => exact fun hj hp => Call.ownReport_ne_true hp (h hj)
    | restart e => exact h
  | poll j e pos => exact h
  | advance e => trivial

/-! ## One context -/

/-- **Context `i` has recovered**: it is idle, and no thread is about to report an outage. -/
structure Recovered (i : s.Ix) (u : Polled s) : Prop where
  noticed : Noticed false i u
  idle : (u.world.ctx i).mode = .idle

theorem not_reportsOutage_of_reports {a : Action s} (ht : (polled s interval).Takes t)
    (hb : t.act.Reports false i) (h : Noticed false i t.pre) (ha : t.act.action = some a) :
    ¬a.ReportsOutage i := by
  rintro ⟨e, k, rfl, hk⟩
  cases loopStep ht with
  | call j e' k' act polls loop =>
    rw [act] at hb ha
    obtain ⟨rfl, rfl, rfl⟩ := Action.call.inj (Option.some.inj ha)
    exact hb rfl polls hk
  | restart e' act =>
    rw [act] at hb
    exact hb.elim
  | poll j e' pos threads since act pre here live loop =>
    rw [act] at ha
    obtain ⟨k', hcall, he⟩ := Option.map_eq_some_iff.mp ha
    obtain ⟨rfl, rfl, rfl⟩ := Action.call.inj he
    cases pos with
    | fetch =>
      obtain rfl := Option.some.inj hcall
      exact absurd hk (by simp [Call.ownReport])
    | handle upsStatus =>
      obtain rfl := Option.some.inj hcall
      have hheld := h.held threads since upsStatus pre here
      rw [hk] at hheld
      exact absurd (Option.some.inj hheld) (by decide)
    | _ => exact absurd hcall (by simp [Poll.call])
  | join e' threads since act =>
    rw [act] at ha
    exact absurd ha (by simp [PollAct.action])
  | wake e' since act =>
    rw [act] at ha
    exact absurd ha (by simp [PollAct.action])

/-- **A context that has recovered stays so** while no observer that it follows is out. -/
theorem recovered_step (ht : (polled s interval).Takes t) (hb : t.act.Reports false i)
    (hp : (t.pre.world.peersOf i).desktopUpsOnBattery = false) (h : Recovered i t.pre) :
    Recovered i t.post := by
  refine ⟨noticed_step ht hb h.noticed, ?_⟩
  obtain ⟨-, -, -, hw⟩ := polled_takes ht
  rw [Polled.served] at hw
  cases ha : t.act.action with
  | none =>
    rw [ha] at hw
    rw [← Option.some.inj hw]
    exact h.idle
  | some a =>
    rw [ha] at hw
    have hr := not_reportsOutage_of_reports ht hb h.noticed ha
    exact leaves_idle (t := ⟨t.pre.world, a, t.post.world⟩) hw hp hr h.idle

theorem flags_of_ownReport {upsStatus : Option String}
    (h : (pollCall upsStatus).ownReport = some false) :
    ∃ status, pollCall upsStatus = .upsStatus status ∧ hasFlag "OL" status = true ∧
      hasFlag "OB" status = false ∧ hasFlag "LB" status = false := by
  cases upsStatus with
  | none => exact absurd h (by simp [pollCall, Call.ownReport])
  | some status =>
    by_cases hempty : status = ""
    · exact absurd h (by simp [pollCall, hempty, Call.ownReport])
    · have hcall : pollCall (some status) = .upsStatus status := if_neg hempty
      rw [hcall] at h ⊢
      refine ⟨status, rfl, ?_⟩
      simp only [Call.ownReport] at h
      split_ifs at h with hout hol
      · exact absurd (Option.some.inj h) (by decide)
      · rw [Bool.or_eq_true, not_or, Bool.not_eq_true, Bool.not_eq_true] at hout
        exact ⟨hol, hout.1, hout.2⟩

/-- **A poll on mains stands the context down.** -/
theorem recovered_of_handle (ht : (polled s interval).Takes t) (hh : Handles false i t)
    (hp : (t.pre.world.peersOf i).desktopUpsOnBattery = false) : Recovered i t.post := by
  refine ⟨noticed_of_handle ht hh, ?_⟩
  obtain ⟨e, upsStatus, hact, hs⟩ := hh
  obtain ⟨status, hcall, hol, hob, hlb⟩ := flags_of_ownReport hs
  obtain ⟨-, -, -, hw⟩ := polled_takes ht
  have ha : t.act.action = some (.call i e (.upsStatus status)) := by
    rw [hact, ← hcall]
    rfl
  rw [Polled.served, ha] at hw
  have hexec := exec_of_act (t := ⟨t.pre.world, _, t.post.world⟩) hw rfl
  rw [← Option.some.inj hexec, hp]
  exact Ctx.mode_poll_mains hol hob hlb

/-! ## All contexts -/

/-- By `limit` the loop has noticed, or the context has recovered. -/
def RecoversBy (interval δ limit : Int) (i : s.Ix) (w : Polled s) : Prop :=
  NoticesBy false interval δ i limit w.loop ∨ Recovered i w

theorem recoversBy_step (hi : 0 ≤ interval) (ht : (polled s interval).Takes t)
    (htime : PollsOnTime interval δ t) (hb : t.act.Reports false i)
    (hp : (t.pre.world.peersOf i).desktopUpsOnBattery = false)
    (h : RecoversBy interval δ limit i t.pre) : RecoversBy interval δ limit i t.post := by
  rcases h with h | h
  · rcases noticesBy_step hi ht htime hb h with h | ⟨hh, -⟩
    · exact .inl h
    · exact .inr (recovered_of_handle ht hh hp)
  · exact .inr (recovered_step ht hb hp h)

theorem RecoversBy.recovered (h : RecoversBy interval δ limit i t.pre) (hi : 0 ≤ interval)
    (htime : PollsOnTime interval δ t) (hlate : limit < t.act.env.start) : Recovered i t.pre := by
  rcases h with h | h
  · have hle := h.start_le hi htime
    omega
  · exact h

/-- The observers have recovered. -/
def ObserversRecovered (w : Polled s) : Prop := ∀ i, (s.dev i).isObserver = true → Recovered i w

theorem ObserversRecovered.peersOf_eq_false (h : ObserversRecovered w) (i : s.Ix) :
    (w.world.peersOf i).desktopUpsOnBattery = false :=
  ObserversIdle.peersOf_eq_false (fun j hj => (h j hj).idle) i

/-- **The two stages of a recovery**: of the observers by `limit`, and then of all contexts. -/
structure Recovering (interval δ limit : Int) (w : Polled s) : Prop where
  observers : ∀ i, (s.dev i).isObserver = true → RecoversBy interval δ limit i w
  all : ObserversRecovered w → ∀ i, RecoversBy interval δ (limit + δ + noticeTime interval δ) i w

theorem recovering_step (hN : s.NoTwinObservers) (hi : 0 ≤ interval)
    (ht : (polled s interval).Takes t) (hpre : InTime t.pre) (htime : PollsOnTime interval δ t)
    (hb : ∀ i, t.act.Reports false i) (h : Recovering interval δ limit t.pre) :
    Recovering interval δ limit t.post := by
  refine ⟨fun i ho => ?_, fun _ i => ?_⟩
  · exact recoversBy_step hi ht htime (hb i) (peersOf_eq_false hN ho) (h.observers i ho)
  · by_cases hobs : ObserversRecovered t.pre
    · exact recoversBy_step hi ht htime (hb i) (hobs.peersOf_eq_false i) (h.all hobs i)
    · -- this step is the end of the first stage
      obtain ⟨j, hj⟩ := not_forall.mp hobs
      obtain ⟨ho, hnot⟩ := Classical.not_imp.mp hj
      have hstart := ((h.observers j ho).resolve_right hnot).start_le hi htime
      obtain ⟨-, hnow, -, -⟩ := polled_takes ht
      have hshort := htime.short
      have hspan := t.act.env.start_le_stop
      exact .inl (noticesBy_of_inTime (inTime_step hi ht hpre) (by omega) (by omega))

theorem Recovering.recovered (h : Recovering interval δ limit t.pre) (hi : 0 ≤ interval)
    (htime : PollsOnTime interval δ t)
    (hlate : limit + δ + noticeTime interval δ < t.act.env.start) (i : s.Ix) :
    Recovered i t.pre := by
  have hshort := htime.short
  have hspan := t.act.env.start_le_stop
  have hobs : ObserversRecovered t.pre := fun j hj =>
    (h.observers j hj).recovered hi htime (by unfold noticeTime at hlate; omega)
  exact (h.all hobs i).recovered hi htime hlate

theorem recovering_of_inTime {u : Polled s} (h : InTime u) (hδ : 0 ≤ δ) (hi : 0 ≤ interval)
    (hlim : u.now + noticeTime interval δ ≤ limit) : Recovering interval δ limit u := by
  refine ⟨fun i _ => .inl (noticesBy_of_inTime h hδ hlim), fun _ i => .inl ?_⟩
  exact noticesBy_of_inTime h hδ (by unfold noticeTime at hlim ⊢; omega)

/-! ## The workers that are left -/

/-- All workers of context `i` are done by `limit`. -/
def AllDoneBy (δ : Int) (i : s.Ix) (limit : Int) (tr : List (Step s)) (w : World s) : Prop :=
  ∀ th ∈ (w.ctx i).threads, DoneBy δ i th.id limit tr w

theorem allDoneBy_step {t : Step s} {tr : List (Step s)} (hs : (t.post.ctx i).Sound (s.dev i))
    (ht : (system s).Takes t) (htime : OnTime δ i tr t)
    (hearly : t.post.now + (s.dev i).workTime δ ≤ limit ∨ (t.post.ctx i).mode = .idle)
    (h : AllDoneBy δ i limit tr t.pre) : AllDoneBy δ i limit (tr ++ [t]) t.post := by
  intro th hth
  have hshort := htime.short
  have hspan := t.act.env.start_le_stop
  cases threadStep ht hth with
  | stays mem act => exact doneBy_step ht htime (h th mem)
  | moves e pc c step => exact doneBy_step ht htime (h ⟨th.id, pc⟩ step.mem)
  | launched e k act launch =>
    rcases hearly with hearly | hidle
    · have hfinish : th.pc.finish (s.dev i) δ t.post.now ≤ t.post.now + (s.dev i).workTime δ :=
        Ctx.finish_le_workTime (by omega) launch.pc
      exact doneBy_launch hs hth launch.id.ge (hfinish.trans hearly)
    · exact absurd (launch.mode.symm.trans hidle) (by decide)

theorem allDoneBy_run {x : Execution (system s)} (hx : Punctual δ i x) {tr tr' : List (Step s)}
    {w : World s} (hsteps : x.steps = tr ++ tr') (hr : Run (system s) x.start tr w)
    (hearly : ∀ t ∈ tr, t.post.now + (s.dev i).workTime δ ≤ limit ∨ (t.post.ctx i).mode = .idle) :
    AllDoneBy δ i limit tr w := by
  have hinv := hr.inv_steps
    (J := fun tr w => (system s).Reachable w ∧ AllDoneBy δ i limit tr w)
    (C := fun tr t => OnTime δ i tr t ∧
      (t.post.now + (s.dev i).workTime δ ≤ limit ∨ (t.post.ctx i).mode = .idle))
    (fun tr t ht hC h => by
      have hreach := h.1.run (Run.single ht)
      exact ⟨hreach, allDoneBy_step (Reachable.sound hreach i) ht hC.1 hC.2 h.2⟩)
    [] ⟨⟨_, [], x.init, .nil _⟩, fun th hth => ?_⟩
    (fun tr₁ t tr₂ h => ⟨hx tr₁ t (tr₂ ++ tr') (by simp [hsteps, h]), hearly t (by simp [h])⟩)
  · exact hinv.2
  · rw [(idle_of_init x.init i).2.1] at hth
    exact absurd hth List.not_mem_nil

/-! ## From the return of the power to the rest -/

/-- **How long it takes to stand down at most**: the observers notice, and then the primaries. -/
def standDownTime (interval δ : Int) : Int := 2 * noticeTime interval δ + δ

/-- **Every recovery is answered**: of all UPSes, which have been on mains since the state `u`, as far as
anything can tell. -/
def RecoveryAnswered (interval δ : Int) (x : Execution (polled s interval)) : Prop :=
  ∀ before u recovery t after, x.steps = before ++ (recovery ++ t :: after) →
    Run (polled s interval) x.start before u → (∀ t' ∈ recovery, ∀ i, t'.act.OnMains i) →
    ∀ i, (u.now + standDownTime interval δ < t.act.env.start →
        (t.pre.world.ctx i).mode = .idle ∧ (t.pre.world.ctx i).Resting) ∧
      ∀ a, t.act.action = some a →
        u.now + standDownTime interval δ + δ + (s.dev i).workTime δ < t.act.env.start →
        (t.pre.world.ctx i).threads = []

theorem standDownTime_eq {now : Int} :
    now + noticeTime interval δ + δ + noticeTime interval δ = now + standDownTime interval δ := by
  unfold standDownTime
  omega

theorem now_run {u : Polled s} {tr : List (PollStep s)} (h : Run (polled s interval) u tr w) :
    u.now ≤ w.now :=
  h.inv (I := fun w => u.now ≤ w.now) (fun _ ht hle => hle.trans (now_polled ht)) le_rfl

theorem recovering_run (hN : s.NoTwinObservers) (hi : 0 ≤ interval) (hδ : 0 ≤ δ) {u : Polled s}
    {tr : List (PollStep s)} (h : Run (polled s interval) u tr w) (hu : InTime u)
    (hC : ∀ t ∈ tr, PollsOnTime interval δ t ∧ ∀ i, t.act.OnMains i) :
    Recovering interval δ (u.now + noticeTime interval δ) w := by
  have hinv := h.invWhen (I := fun w => InTime w ∧ Recovering interval δ
      (u.now + noticeTime interval δ) w)
    (fun t ht hC h => ⟨inTime_step hi ht h.1,
      recovering_step hN hi ht h.1 hC.1 (fun i => (hC.2 i).reports) h.2⟩)
    ⟨hu, recovering_of_inTime hu hδ hi le_rfl⟩ hC
  exact hinv.2

/-- **A step on mains is early, or it leaves every context idle.** -/
theorem early_or_idle (hi : 0 ≤ interval)
    (ht : (polled s interval).Takes t) (htime : PollsOnTime interval δ t)
    (hb : ∀ i, t.act.OnMains i) (h : Recovering interval δ limit t.pre) (i : s.Ix) :
    t.post.now ≤ limit + δ + noticeTime interval δ + δ ∨ (t.post.world.ctx i).mode = .idle := by
  by_cases hlate : limit + δ + noticeTime interval δ < t.act.env.start
  · have hall := h.recovered hi htime hlate
    have hobs : ObserversRecovered t.pre := fun j _ => hall j
    exact .inr (recovered_step ht (hb i).reports (hobs.peersOf_eq_false i) (hall i)).idle
  · obtain ⟨-, hnow, -, -⟩ := polled_takes ht
    have hshort := htime.short
    exact .inl (by omega)

theorem early_run (hN : s.NoTwinObservers) (hi : 0 ≤ interval) (hδ : 0 ≤ δ) {u₀ u : Polled s}
    {before recovery : List (PollStep s)} (hbefore : Run (polled s interval) u₀ before u)
    (hr : Run (polled s interval) u recovery w) (hu : InTime u)
    (hC : ∀ t ∈ recovery, PollsOnTime interval δ t ∧ ∀ i, t.act.OnMains i) (i : s.Ix) :
    ∀ t ∈ before ++ recovery, t.post.now ≤ u.now + standDownTime interval δ + δ ∨
      (t.post.world.ctx i).mode = .idle := by
  intro t ht
  rcases List.mem_append.mp ht with hmem | hmem
  · obtain ⟨_, _, -, -, -, hrest⟩ := hbefore.of_mem hmem
    have hle := now_run hrest
    refine .inl ?_
    unfold standDownTime noticeTime
    omega
  · obtain ⟨tr₁, tr₂, hsplit, h₁, ht', -⟩ := hr.of_mem hmem
    have hpre := recovering_run hN hi hδ h₁ hu fun t₁ ht₁ => hC t₁ (by simp [hsplit, ht₁])
    have hstep := early_or_idle hi ht' (hC t hmem).1 (hC t hmem).2 hpre i
    rwa [standDownTime_eq] at hstep

/-- **In punctual executions every recovery is answered**, by the poll loop alone, unless two observers
share a desktop: every context stands down, and its workers end. -/
theorem recoveryAnswered (hN : s.NoTwinObservers) (hi : 0 ≤ interval)
    (x : Execution (polled s interval)) (hx : ∀ i, PunctualPolls interval δ i x) :
    RecoveryAnswered interval δ x := by
  intro before u recovery t after hsteps hbefore hrecovery i
  have hrun := x.run
  rw [hsteps] at hrun
  obtain ⟨v, hv, hrest⟩ := hrun.split
  obtain rfl := hbefore.last_eq hv
  obtain ⟨hr, ht, -⟩ := hrest.around
  have htime : ∀ t' ∈ x.steps, PollsOnTime interval δ t' := (hx i).loop
  have hδ : 0 ≤ δ := by
    have hshort := (htime t (by simp [hsteps])).short
    have hspan := t.act.env.start_le_stop
    omega
  have hintime : ∀ {tr w}, Run (polled s interval) x.start tr w → InTime w := fun h =>
    h.inv (I := InTime) (fun _ ht h => inTime_step hi ht h) (.of_start x.init.2.2 x.init.2.1)
  have hmains : ∀ t' ∈ recovery, PollsOnTime interval δ t' ∧ ∀ i, t'.act.OnMains i := fun t' ht' =>
    ⟨htime t' (by simp [hsteps, ht']), hrecovery t' ht'⟩
  refine ⟨fun hlate => ?_, fun a ha hlate => ?_⟩
  · have hstages := recovering_run hN hi hδ hr (hintime hbefore) hmains
    have hidle := (hstages.recovered hi (htime t (by simp [hsteps])) (standDownTime_eq ▸ hlate) i).idle
    have hreach := (pollsOnly s interval).reachable (w := t.pre)
      ⟨x.start, _, x.init, hbefore.append hr⟩
    exact ⟨hidle, (Reachable.sound hreach i).resting (.inl hidle)⟩
  · -- the server, too, is early or leaves the context idle
    have hearly : ∀ t' ∈ (before ++ recovery).filterMap (pollsOnly s interval).image,
        t'.post.now + (s.dev i).workTime δ ≤
          u.now + standDownTime interval δ + δ + (s.dev i).workTime δ ∨
            (t'.post.ctx i).mode = .idle := by
      intro t' ht'
      obtain ⟨t₁, ht₁, him⟩ := List.mem_filterMap.mp ht'
      obtain ⟨a', -, rfl⟩ := Option.map_eq_some_iff.mp him
      obtain ⟨_, _, -, h₁, h₂, -⟩ := (hbefore.append hr).of_mem ht₁
      have hworld := (hintime (h₁.append (Run.single h₂))).world
      rcases early_run hN hi hδ hbefore hr (hintime hbefore) hmains i t₁ ht₁ with hearly | hidle
      · exact .inl (by dsimp only [pollsOnly]; omega)
      · exact .inr hidle
    have him := image_of_action interval ha
    have hserver : ((pollsOnly s interval).execution x).steps =
        (before ++ recovery).filterMap (pollsOnly s interval).image ++
          ⟨t.pre.world, a, t.post.world⟩ :: after.filterMap (pollsOnly s interval).image := by
      change x.steps.filterMap _ = _
      rw [hsteps, ← List.append_assoc, List.filterMap_append, List.filterMap_cons_some him]
    have hdone := allDoneBy_run (hx i).server hserver
      ((pollsOnly s interval).run (hbefore.append hr)) hearly
    refine List.eq_nil_iff_forall_not_mem.mpr fun th hth => ?_
    have hstart := (hdone th hth).start_le ((hx i).server _ _ _ hserver) hth
    have henv := PollAct.env_action ha
    have hle : t.act.env.start ≤ u.now + standDownTime interval δ + δ + (s.dev i).workTime δ :=
      henv ▸ hstart
    omega

/-! ## A power failure that ends between two rounds -/

/-- The first round notices the outage, for which the desktop and the server are shut down. The power is
back before the second round. -/
def recoveryUnheard : List (PollAct deskSite) :=
  [.poll mainUps (.at 0 online) .fetch, .poll mainUps (.at 0 none (some "OB")) .read,
    .poll mainUps (.at 0 online) (.handle (some "OB")), .advance (.at 0),
    .server (.call mainUps (.at 180) .timer), .server (.call mainUps (.at 180) (.worker 0)),
    .server (.call mainUps (.at 180) (.worker 0)), .server (.call mainUps (.at 240) (.worker 0)),
    .advance (.at 6000), .poll mainUps (.at 6000) .fetch,
    .poll mainUps (.at 6000 none (some "OL")) .read, .poll mainUps (.at 6000) (.handle (some "OL")),
    .advance (.at 6000), .advance (.at 12000), .poll mainUps (.at 12000) .fetch,
    .poll mainUps (.at 12000 none (some "OL")) .read,
    .poll mainUps (.at 12000) (.handle (some "OL")), .advance (.at 12000), .advance (.at 18000),
    .poll mainUps (.at 18000) .fetch]

theorem recoveryAnswered_recoveryUnheard : ∃ x : Execution (polled deskSite 6000),
    RecoveryAnswered 6000 60 x ∧ (∀ t ∈ x.steps.drop 8, ∀ i, t.act.OnMains i) ∧
      ((x.steps.drop 8).head?.any fun t => t.pre.now = 240 ∧
        (t.pre.world.ctx mainUps).mode = .shuttingDown) ∧
      ∃ t ∈ x.steps.drop 19, 240 + standDownTime 6000 60 + 60 + (deskSite.dev mainUps).workTime 60 <
        t.act.env.start := by
  obtain ⟨x, hserver, hloop, hrest⟩ := exists_execution (S := polled deskSite 6000) recoveryUnheard
    (P := fun tr => ((List.range (tr.filterMap (pollsOnly deskSite 6000).image).length).all fun k =>
        ((tr.filterMap (pollsOnly deskSite 6000).image)[k]?).all fun t =>
          onTime 60 mainUps ((tr.filterMap (pollsOnly deskSite 6000).image).take k) t) = true ∧
      (tr.all fun t => pollsOnTime 6000 60 t) = true ∧
      (∀ t ∈ tr.drop 8, ∀ i, t.act.OnMains i) ∧
      ((tr.drop 8).head?.any fun t => t.pre.now = 240 ∧
        (t.pre.world.ctx mainUps).mode = .shuttingDown) ∧
      ∃ t ∈ tr.drop 19, 240 + standDownTime 6000 60 + 60 + (deskSite.dev mainUps).workTime 60 <
        t.act.env.start)
    (u := ⟨0, .boot (.at 0) fun _ => {}, .start deskSite 0⟩)
    ⟨⟨.at 0, fun _ => {}, rfl⟩, rfl, by decide⟩ (by decide)
  have honly : ∀ i : deskSite.Ix, i = mainUps := by decide
  refine ⟨x, recoveryAnswered (by decide) (by decide) x fun i => ?_, hrest⟩
  rw [honly i]
  exact ⟨punctual_of_take hserver, fun t ht =>
    pollsOnTime_of_eq_true (List.all_eq_true.mp hloop t ht)⟩

end UpsOrchestrator

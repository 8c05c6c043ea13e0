import UpsOrchestrator.ResponseTime

/-!
# The poll loop

`poll_loop` asks for the status of every UPS in rounds: a thread for each device, all of them
joined, then a sleep. Without NUT's events it is all that notices an outage.

* `Poll`, `PollLoop`: where the threads of a round are, and the loop.
* `polled`: the server with its poll loop; `pollsOnly`: a refinement of the server alone.
* `PunctualPolls`: executions that are punctual, those of the loop included.
* `NoticesBy`, **`noticed_step`**: a round that has begun ends, and so does the sleep.
* **`failureAnswered`**: from a power failure to the terminal effect, by the poll loop alone.
-/

set_option autoImplicit false

namespace UpsOrchestrator

open Lts

/-! ## The loop -/

/-- Where a thread of `_poll_device` is. -/
inductive Poll
  | fetch
  | read
  | handle (upsStatus : Option String)
  | done
  deriving DecidableEq, Repr

/-- What `_poll_device` calls with a status; an empty one is none. -/
def pollCall : Option String → Call
  | none => .upsUnavailable
  | some upsStatus => if upsStatus = "" then .upsUnavailable else .upsStatus upsStatus

namespace Poll

/-- The call on the context that comes next. `read_ups_status` is none. -/
def call : Poll → Option Call
  | fetch => some .fetch
  | read => none
  | handle upsStatus => some (pollCall upsStatus)
  | done => none

def next (e : Env) : Poll → Poll
  | fetch => read
  | read => handle e.upsc
  | handle _ => done
  | done => done

end Poll

/-- A thread of a round, where it is since `since`. -/
structure PollThread where
  pos : Poll := .fetch
  since : Int
  deriving DecidableEq

/-- Only the poll loop makes the call. -/
def Call.polls : Call → Bool
  | .upsStatus _ => true
  | .upsUnavailable => true
  | _ => false

/-- **`poll_loop`**. -/
inductive PollLoop (s : Site)
  /-- the threads of a round run or are joined; the last of their steps ended at `since` -/
  | round (threads : s.Ix → PollThread) (since : Int)
  | sleeping (since : Int)
  /-- `time.sleep` has raised -/
  | ended

variable {s : Site}

variable (s) in
def PollLoop.start (now : Int) : PollLoop s := .round (fun _ => { since := now }) now

/-- The loop joins the threads and sleeps, or starts the next round. -/
def PollLoop.advance (interval : Int) (e : Env) : PollLoop s → Option (PollLoop s)
  | round threads _ =>
    if ∀ j, (threads j).pos = .done then
      some (if interval < 0 then ended else sleeping e.stop)
    else none
  | sleeping since => if since + interval ≤ e.start then some (start s e.stop) else none
  | ended => none

/-- The thread of device `i`, at `pos`, takes its next step. -/
def PollLoop.poll (i : s.Ix) (e : Env) (pos : Poll) : PollLoop s → Option (PollLoop s)
  | round threads _ =>
    if (threads i).pos = pos ∧ pos ≠ .done then
      some (round (Function.update threads i { pos := pos.next e, since := e.stop }) e.stop)
    else none
  | _ => none

/-- The server and its poll loop. -/
structure Polled (s : Site) where
  now : Int
  world : World s
  loop : PollLoop s

inductive PollAct (s : Site)
  /-- a call that others make, or a restart -/
  | server (a : Action s)
  | poll (i : s.Ix) (e : Env) (pos : Poll)
  | advance (e : Env)

def PollAct.env : PollAct s → Env
  | .server a => a.env
  | .poll _ e _ => e
  | .advance e => e

/-- What the server itself does in the step. -/
def PollAct.action : PollAct s → Option (Action s)
  | .server a => some a
  | .poll i e pos => pos.call.map (.call i e)
  | .advance _ => none

/-- The loop after the step. A restart begins it anew. -/
def PollAct.loop (interval : Int) (l : PollLoop s) : PollAct s → Option (PollLoop s)
  | .server (.call _ _ k) => if k.polls then none else some l
  | .server (.restart e) => some (.start s e.stop)
  | .poll i e pos => l.poll i e pos
  | .advance e => l.advance interval e

/-- The server after the step. -/
def Polled.served (u : Polled s) (a : PollAct s) : Option (World s) :=
  match a.action with
  | none => some u.world
  | some act => u.world.step act

def Polled.step (interval : Int) (u : Polled s) (a : PollAct s) : Option (Polled s) :=
  if u.now ≤ a.env.start then
    (a.loop interval u.loop).bind fun l => (u.served a).map fun w => ⟨a.env.stop, w, l⟩
  else none

variable (interval : Int)

variable (s) in
/-- **The server with its poll loop**, which sleeps for `interval` seconds. -/
def polled : System (Polled s) (PollAct s) where
  init u := (system s).init u.world ∧ u.loop = .start s u.now ∧ u.world.now ≤ u.now
  step := Polled.step interval

abbrev PollStep (s : Site) : Type := Transition (Polled s) (PollAct s)

variable {interval} {t : PollStep s} {i : s.Ix}

/-- **What a step does** to the clock, the loop and the server. -/
theorem polled_takes (ht : (polled s interval).Takes t) :
    t.pre.now ≤ t.act.env.start ∧ t.post.now = t.act.env.stop ∧
      t.act.loop interval t.pre.loop = some t.post.loop ∧ t.pre.served t.act = some t.post.world := by
  obtain ⟨u, a, v⟩ := t
  change Polled.step interval u a = some v at ht
  simp only [Polled.step, Option.ite_none_right_eq_some, Option.bind_eq_some_iff,
    Option.map_eq_some_iff] at ht
  obtain ⟨hle, l, hl, w, hw, rfl⟩ := ht
  exact ⟨hle, rfl, hl, hw⟩

variable (s interval) in
/-- **The poll loop only makes calls that may come at any time.** -/
def pollsOnly : Refinement (polled s interval) (system s) where
  abs u := u.world
  act := PollAct.action
  init _ hu := hu.1
  step := by
    intro t ht
    obtain ⟨-, -, -, hw⟩ := polled_takes ht
    rw [Polled.served] at hw
    cases ha : t.act.action with
    | none =>
      rw [ha] at hw
      exact (Option.some.inj hw).symm
    | some a =>
      rw [ha] at hw
      exact hw

variable (interval) in
theorem image_of_action {a : Action s} (h : t.act.action = some a) :
    (pollsOnly s interval).image t = some ⟨t.pre.world, a, t.post.world⟩ := by
  rw [Refinement.image]
  exact congrArg _ h

/-- **What a step does to the loop.** -/
inductive LoopStep (interval : Int) (t : PollStep s) : Prop
  | call (j : s.Ix) (e : Env) (k : Call) (act : t.act = .server (.call j e k))
      (polls : k.polls = false) (loop : t.post.loop = t.pre.loop)
  | restart (e : Env) (act : t.act = .server (.restart e)) (loop : t.post.loop = .start s e.stop)
  | poll (j : s.Ix) (e : Env) (pos : Poll) (threads : s.Ix → PollThread) (since : Int)
      (act : t.act = .poll j e pos) (pre : t.pre.loop = .round threads since)
      (here : (threads j).pos = pos) (live : pos ≠ .done)
      (loop : t.post.loop = .round
        (Function.update threads j { pos := pos.next e, since := e.stop }) e.stop)
  | join (e : Env) (threads : s.Ix → PollThread) (since : Int) (act : t.act = .advance e)
      (pre : t.pre.loop = .round threads since) (joined : ∀ j, (threads j).pos = .done)
      (loop : t.post.loop = if interval < 0 then .ended else .sleeping e.stop)
  | wake (e : Env) (since : Int) (act : t.act = .advance e) (pre : t.pre.loop = .sleeping since)
      (due : since + interval ≤ e.start) (loop : t.post.loop = .start s e.stop)

theorem loopStep (ht : (polled s interval).Takes t) : LoopStep interval t := by
  obtain ⟨-, -, hloop, -⟩ := polled_takes ht
  cases hact : t.act with
  | server a =>
    rw [hact] at hloop
    cases a with
    | call j e k =>
      simp only [PollAct.loop, Option.ite_none_left_eq_some, Option.some.injEq] at hloop
      exact .call j e k hact (by simpa using hloop.1) hloop.2.symm
    | restart e => exact .restart e hact (Option.some.inj hloop).symm
  | poll j e pos =>
    rw [hact] at hloop
    cases hpre : t.pre.loop with
    | round threads since =>
      simp only [hpre, PollAct.loop, PollLoop.poll, Option.ite_none_right_eq_some,
        Option.some.injEq] at hloop
      exact .poll j e pos threads since hact hpre hloop.1.1 hloop.1.2 hloop.2.symm
    | sleeping since => simp [hpre, PollAct.loop, PollLoop.poll] at hloop
    | ended => simp [hpre, PollAct.loop, PollLoop.poll] at hloop
  | advance e =>
    rw [hact] at hloop
    cases hpre : t.pre.loop with
    | round threads since =>
      simp only [hpre, PollAct.loop, PollLoop.advance, Option.ite_none_right_eq_some,
        Option.some.injEq] at hloop
      exact .join e threads since hact hpre hloop.1 hloop.2.symm
    | sleeping since =>
      simp only [hpre, PollAct.loop, PollLoop.advance, Option.ite_none_right_eq_some,
        Option.some.injEq] at hloop
      exact .wake e since hact hpre hloop.1 hloop.2.symm
    | ended => simp [hpre, PollAct.loop, PollLoop.advance] at hloop

theorem PollAct.env_action {a : PollAct s} {b : Action s} (h : a.action = some b) :
    b.env = a.env := by
  cases a with
  | server a =>
    obtain rfl := Option.some.inj h
    rfl
  | poll j e pos =>
    obtain ⟨k, -, rfl⟩ := Option.map_eq_some_iff.mp h
    rfl
  | advance e => exact absurd h (by simp [PollAct.action])

/-! ## The own-power flag -/

/-- The own-power flag of context `i` after an action. -/
def Action.powerAfter (i : s.Ix) (power : Bool) : Action s → Bool
  | .call j _ k => if j = i then k.ownReport.getD power else power
  | .restart _ => false

theorem powerAfter_step {t : Step s} (ht : (system s).Takes t) :
    (t.post.ctx i).upsOnBattery = t.act.powerAfter i (t.pre.ctx i).upsOnBattery := by
  cases ctxStep ht i with
  | handler e k act hk exec =>
    rw [act, (Ctx.handlerFrame hk exec).power]
    exact (if_pos rfl).symm
  | worker e th c pc step =>
    rw [step.act, step.post]
    exact step.power.trans (if_pos rfl).symm
  | other j e k act hj post =>
    rw [act, post]
    exact (if_neg (Ne.symm hj)).symm
  | restart e act post =>
    rw [act, post]
    exact (Ctx.reset_frame e).2.2.2.1

theorem responding_of_upsOnBattery {u : Polled s} (hu : (polled s interval).Reachable u)
    (hp : (u.world.ctx i).upsOnBattery = true) : (u.world.ctx i).Responding := by
  obtain ⟨w₀, tr, hw₀, hr⟩ := (pollsOnly s interval).reachable hu
  exact (wellFormed ⟨w₀, tr, u.world, hw₀, hr⟩ i).on_battery hp

/-! ## Punctual polls -/

/-- A step that is short, and no later than `δ` after the loop or a thread of it could have gone on. -/
structure PollsOnTime (interval δ : Int) (t : PollStep s) : Prop where
  short : t.act.env.stop ≤ t.act.env.start + δ
  running : ∀ threads since, t.pre.loop = .round threads since → ∀ j, (threads j).pos ≠ .done →
    t.act.env.start ≤ (threads j).since + δ
  joined : ∀ threads since, t.pre.loop = .round threads since → (∀ j, (threads j).pos = .done) →
    t.act.env.start ≤ since + δ
  asleep : ∀ since, t.pre.loop = .sleeping since → t.act.env.start ≤ since + interval + δ

/-- **The execution is punctual**, the poll loop included. -/
structure PunctualPolls (interval δ : Int) (i : s.Ix) (x : Execution (polled s interval)) : Prop where
  server : Punctual δ i ((pollsOnly s interval).execution x)
  loop : ∀ t ∈ x.steps, PollsOnTime interval δ t

/-- The clock has passed all that was done, and the loop goes on. -/
structure InTime (u : Polled s) : Prop where
  world : u.world.now ≤ u.now
  round : ∀ threads since, u.loop = .round threads since →
    since ≤ u.now ∧ ∀ j, (threads j).since ≤ u.now
  asleep : ∀ since, u.loop = .sleeping since → since ≤ u.now
  goes : u.loop ≠ .ended

theorem InTime.of_start {u : Polled s} (hw : u.world.now ≤ u.now) (hl : u.loop = .start s u.now) :
    InTime u where
  world := hw
  round threads since h := by
    obtain ⟨rfl, rfl⟩ := PollLoop.round.inj (hl.symm.trans h)
    exact ⟨le_rfl, fun _ => le_rfl⟩
  asleep since h := absurd (hl.symm.trans h) (by simp [PollLoop.start])
  goes h := absurd (hl.symm.trans h) (by simp [PollLoop.start])

theorem now_polled (ht : (polled s interval).Takes t) : t.pre.now ≤ t.post.now := by
  obtain ⟨hle, hnow, -, -⟩ := polled_takes ht
  have hspan := t.act.env.start_le_stop
  omega

theorem inTime_step (hi : 0 ≤ interval) (ht : (polled s interval).Takes t) (h : InTime t.pre) :
    InTime t.post := by
  obtain ⟨-, hnow, -, hw⟩ := polled_takes ht
  have hpast := now_polled ht
  have hworld : t.post.world.now ≤ t.post.now := by
    rw [Polled.served] at hw
    cases ha : t.act.action with
    | none =>
      rw [ha] at hw
      rw [← Option.some.inj hw]
      exact h.world.trans hpast
    | some a =>
      rw [ha] at hw
      have hstop : t.post.world.now = a.env.stop := (now_step (t := ⟨_, a, _⟩) hw).2
      rw [hstop, PollAct.env_action ha, hnow]
  cases loopStep ht with
  | call j e k act polls loop =>
    refine ⟨hworld, fun threads since hl => ?_, fun since hl => ?_, loop ▸ h.goes⟩
    · obtain ⟨h1, h2⟩ := h.round threads since (loop.symm.trans hl)
      exact ⟨h1.trans hpast, fun j => (h2 j).trans hpast⟩
    · exact (h.asleep since (loop.symm.trans hl)).trans hpast
  | restart e act loop =>
    rw [act] at hnow
    exact .of_start hworld (by rw [loop, hnow]; rfl)
  | poll j e pos threads since act pre here live loop =>
    rw [act] at hnow
    refine ⟨hworld, fun threads' since' hl => ?_, fun since' hl => ?_, by simp [loop]⟩
    · obtain ⟨rfl, rfl⟩ := PollLoop.round.inj (loop.symm.trans hl)
      refine ⟨hnow.ge, fun j' => ?_⟩
      by_cases hj : j' = j
      · subst hj
        rw [Function.update_self]
        exact hnow.ge
      · rw [Function.update_of_ne hj]
        exact ((h.round threads since pre).2 j').trans hpast
    · exact absurd (loop.symm.trans hl) (by simp)
  | join e threads since act pre joined loop =>
    rw [if_neg (not_lt.mpr hi)] at loop
    rw [act] at hnow
    refine ⟨hworld, fun threads' since' hl => ?_, fun since' hl => ?_, by simp [loop]⟩
    · exact absurd (loop.symm.trans hl) (by simp)
    · rw [← PollLoop.sleeping.inj (loop.symm.trans hl)]
      exact hnow.ge
  | wake e since act pre due loop =>
    rw [act] at hnow
    exact .of_start hworld (by rw [loop, hnow]; rfl)

/-! ## Noticing -/

/-- **UPS `i` is on battery** as far as the step shows: the server is not restarted, `upsc` says so if it
is asked, and NUT does not say otherwise. -/
def PollAct.OnBattery (i : s.Ix) : PollAct s → Prop
  | .server (.call j _ k) => j = i → k ≠ .event .online
  | .server (.restart _) => False
  | .poll j e pos => j = i → pos = .read → (pollCall e.upsc).ownReport = some true
  | .advance _ => True

instance (a : PollAct s) : Decidable (a.OnBattery i) := by
  unfold PollAct.OnBattery
  split <;> infer_instance

/-- **The power of UPS `i` is `power`** as far as the step shows: whatever reports it says so. -/
def PollAct.Reports (power : Bool) (i : s.Ix) : PollAct s → Prop
  | .server (.call j _ k) => j = i → k.polls = false → k.ownReport ≠ some (!power)
  | .server (.restart _) => False
  | .poll j e pos => j = i → pos = .read → (pollCall e.upsc).ownReport = some power
  | .advance _ => True

/-- The time that a thread has left. -/
def Poll.left (δ : Int) : Poll → Int
  | .fetch => 6 * δ
  | .read => 4 * δ
  | .handle _ => 2 * δ
  | .done => 0

/-- The thread goes on to handle a status that reports `power`. -/
def Poll.WillNotice (power : Bool) : Poll → Prop
  | .fetch => True
  | .read => True
  | .handle upsStatus => (pollCall upsStatus).ownReport = some power
  | .done => False

/-- **By `limit` the loop has noticed** the power of UPS `i`: in this round, or in the next. -/
def NoticesBy (power : Bool) (interval δ : Int) (i : s.Ix) (limit : Int) : PollLoop s → Prop
  | .round threads since =>
    ((threads i).pos.WillNotice power ∧ (threads i).since + (threads i).pos.left δ ≤ limit) ∨
      (since + interval + 10 * δ ≤ limit ∧
        ∀ j, (threads j).since + (threads j).pos.left δ + interval + 10 * δ ≤ limit)
  | .sleeping since => since + interval + 8 * δ ≤ limit
  | .ended => False

/-- The power of UPS `i` is known, and no thread is about to say otherwise. -/
structure Noticed (power : Bool) (i : s.Ix) (u : Polled s) : Prop where
  known : (u.world.ctx i).upsOnBattery = power
  held : ∀ threads since upsStatus, u.loop = .round threads since →
    (threads i).pos = .handle upsStatus → (pollCall upsStatus).ownReport = some power

theorem Call.ownReport_ne_false {k : Call} (hp : k.polls = false) (ho : k ≠ .event .online) :
    k.ownReport ≠ some false := by
  cases k with
  | event ev => cases ev <;> simp [Call.ownReport] at ho ⊢
  | upsStatus => exact absurd hp (by simp [Call.polls])
  | _ => simp [Call.ownReport]

theorem PollAct.OnBattery.reports {a : PollAct s} (h : a.OnBattery i) : a.Reports true i := by
  cases a with
  | server a =>
    cases a with
    | call j e k => exact fun hj hp => Call.ownReport_ne_false hp (h hj)
    | restart e => exact h
  | poll j e pos => exact h
  | advance e => trivial

theorem power_polled (ht : (polled s interval).Takes t) : (t.post.world.ctx i).upsOnBattery =
    match t.act.action with
    | none => (t.pre.world.ctx i).upsOnBattery
    | some a => a.powerAfter i (t.pre.world.ctx i).upsOnBattery := by
  obtain ⟨-, -, -, hw⟩ := polled_takes ht
  rw [Polled.served] at hw
  cases ha : t.act.action with
  | none =>
    rw [ha] at hw
    rw [← Option.some.inj hw]
  | some a =>
    rw [ha] at hw
    exact powerAfter_step (t := ⟨_, a, _⟩) hw

variable {power : Bool}

theorem getD_of_ne {b : Option Bool} (h : b ≠ some (!power)) : b.getD power = power := by
  cases b with
  | none => rfl
  | some b => simpa using h

theorem noticed_step (ht : (polled s interval).Takes t) (hb : t.act.Reports power i)
    (h : Noticed power i t.pre) : Noticed power i t.post := by
  have hpower := power_polled (i := i) ht
  rw [h.known] at hpower
  cases loopStep ht with
  | call j e k act polls loop =>
    rw [act] at hpower
    refine ⟨hpower.trans ?_, fun threads since upsStatus hl => h.held threads since upsStatus
      (loop.symm.trans hl)⟩
    simp only [PollAct.action, Action.powerAfter]
    split_ifs with hj
    · subst hj
      rw [act] at hb
      exact getD_of_ne (hb rfl polls)
    · rfl
  | restart e act =>
    rw [act] at hb
    exact hb.elim
  | poll j e pos threads since act pre here live loop =>
    rw [act] at hpower
    constructor
    · rw [hpower]
      cases pos with
      | fetch =>
        simp only [PollAct.action, Poll.call, Option.map_some, Action.powerAfter]
        split_ifs <;> rfl
      | read => rfl
      | handle upsStatus =>
        simp only [PollAct.action, Poll.call, Option.map_some, Action.powerAfter]
        split_ifs with hj
        · subst hj
          rw [h.held threads since upsStatus pre here]
          rfl
        · rfl
      | done => rfl
    · intro threads' since' upsStatus hl hpos
      obtain ⟨rfl, rfl⟩ := PollLoop.round.inj (loop.symm.trans hl)
      by_cases hj : i = j
      · subst hj
        rw [Function.update_self] at hpos
        cases pos with
        | read =>
          rw [act] at hb
          rw [← Poll.handle.inj hpos]
          exact hb rfl rfl
        | _ => exact absurd hpos (by simp [Poll.next])
      · rw [Function.update_of_ne hj] at hpos
        exact h.held threads since upsStatus pre hpos
  | join e threads since act pre joined loop =>
    rw [act] at hpower
    refine ⟨hpower, fun threads' since' upsStatus hl => absurd (loop.symm.trans hl) ?_⟩
    split_ifs <;> simp
  | wake e since act pre due loop =>
    rw [act] at hpower
    refine ⟨hpower, fun threads' since' upsStatus hl hpos => ?_⟩
    obtain ⟨rfl, -⟩ := PollLoop.round.inj (loop.symm.trans hl)
    exact absurd hpos (by simp)

variable {δ limit : Int}

theorem Poll.left_next {pos : Poll} {e : Env} {since : Int} (hlive : pos ≠ .done)
    (hstop : e.stop ≤ since + 2 * δ) : e.stop + (pos.next e).left δ ≤ since + pos.left δ := by
  cases pos with
  | done => exact absurd rfl hlive
  | _ =>
    simp only [Poll.next, Poll.left]
    omega

theorem Poll.le_left {pos : Poll} (hδ : 0 ≤ δ) (hlive : pos ≠ .done) : 2 * δ ≤ pos.left δ := by
  cases pos with
  | done => exact absurd rfl hlive
  | _ =>
    simp only [Poll.left]
    omega

/-- The step handles a status of UPS `i` that reports `power`. -/
def Handles (power : Bool) (i : s.Ix) (t : PollStep s) : Prop :=
  ∃ e upsStatus, t.act = .poll i e (.handle upsStatus) ∧ (pollCall upsStatus).ownReport = some power

theorem noticed_of_handle (ht : (polled s interval).Takes t) (h : Handles power i t) :
    Noticed power i t.post := by
  obtain ⟨e, upsStatus, hact, hs⟩ := h
  have hpower := power_polled (i := i) ht
  rw [hact] at hpower
  constructor
  · rw [hpower]
    simp only [PollAct.action, Poll.call, Option.map_some, Action.powerAfter, if_true, hs,
      Option.getD_some]
  · intro threads' since' upsStatus' hl hpos
    cases loopStep ht with
    | poll j e' pos threads since act pre here live loop =>
      obtain ⟨rfl, rfl, rfl⟩ := PollAct.poll.inj (hact.symm.trans act)
      obtain ⟨rfl, rfl⟩ := PollLoop.round.inj (loop.symm.trans hl)
      rw [Function.update_self] at hpos
      exact absurd hpos (by simp [Poll.next])
    | call _ _ _ act => exact absurd (hact.symm.trans act) (by simp)
    | restart _ act => exact absurd (hact.symm.trans act) (by simp)
    | join _ _ _ act => exact absurd (hact.symm.trans act) (by simp)
    | wake _ _ act => exact absurd (hact.symm.trans act) (by simp)

/-- **No step puts the noticing off.** -/
theorem noticesBy_step (hi : 0 ≤ interval) (ht : (polled s interval).Takes t)
    (htime : PollsOnTime interval δ t) (hb : t.act.Reports power i)
    (h : NoticesBy power interval δ i limit t.pre.loop) :
    NoticesBy power interval δ i limit t.post.loop ∨ (Handles power i t ∧ t.post.now ≤ limit) := by
  obtain ⟨-, hnow, -, -⟩ := polled_takes ht
  have hshort := htime.short
  have hspan := t.act.env.start_le_stop
  cases loopStep ht with
  | call j e k act polls loop => exact .inl (loop ▸ h)
  | restart e act =>
    rw [act] at hb
    exact hb.elim
  | poll j e pos threads since act pre here live loop =>
    have hstart := htime.running threads since pre j (here ▸ live)
    have hleft := Poll.le_left (δ := δ) (by omega) live
    rw [act] at hshort hstart hspan hnow
    simp only [PollAct.env] at hshort hstart hspan hnow
    have hstop : e.stop ≤ (threads j).since + 2 * δ := by omega
    have hnext := Poll.left_next live hstop
    rw [pre] at h
    rw [loop]
    rcases h with ⟨hwill, hlim⟩ | ⟨-, hall⟩
    · by_cases hj : i = j
      · subst hj
        rw [here] at hwill hlim
        cases pos with
        | fetch => exact .inl (.inl (by simpa [Poll.next, Poll.WillNotice] using hnext.trans hlim))
        | read =>
          refine .inl (.inl ?_)
          rw [act] at hb
          rw [Function.update_self]
          exact ⟨hb rfl rfl, hnext.trans hlim⟩
        | handle upsStatus => exact .inr ⟨⟨e, upsStatus, act, hwill⟩, by omega⟩
        | done => exact absurd rfl live
      · refine .inl (.inl ?_)
        rw [Function.update_of_ne hj]
        exact ⟨hwill, hlim⟩
    · have hj := hall j
      rw [here] at hj
      refine .inl (.inr ⟨by omega, fun j' => ?_⟩)
      by_cases hj' : j' = j
      · subst hj'
        rw [Function.update_self]
        dsimp only
        omega
      · rw [Function.update_of_ne hj']
        exact hall j'
  | join e threads since act pre joined loop =>
    have hstart := htime.joined threads since pre joined
    rw [act] at hshort hstart
    simp only [PollAct.env] at hshort hstart
    rw [pre] at h
    rw [loop, if_neg (not_lt.mpr hi)]
    rcases h with ⟨hwill, -⟩ | ⟨hlim, -⟩
    · rw [joined i] at hwill
      exact hwill.elim
    · refine .inl ?_
      simp only [NoticesBy]
      omega
  | wake e since act pre due loop =>
    have hstart := htime.asleep since pre
    rw [act] at hshort hstart
    simp only [PollAct.env] at hshort hstart
    rw [pre] at h
    simp only [NoticesBy] at h
    rw [loop]
    refine .inl (.inl ⟨trivial, ?_⟩)
    simp only [Poll.left]
    omega

theorem NoticesBy.start_le (hi : 0 ≤ interval) (htime : PollsOnTime interval δ t)
    (h : NoticesBy power interval δ i limit t.pre.loop) : t.act.env.start ≤ limit := by
  have hshort := htime.short
  have hspan := t.act.env.start_le_stop
  cases hl : t.pre.loop with
  | round threads since =>
    rw [hl] at h
    rcases h with ⟨hwill, hlim⟩ | ⟨hlim, hall⟩
    · have hlive : (threads i).pos ≠ .done := by
        intro hd
        rw [hd] at hwill
        exact hwill
      have hstart := htime.running threads since hl i hlive
      have hleft := Poll.le_left (δ := δ) (by omega) hlive
      omega
    · by_cases hd : ∀ j, (threads j).pos = .done
      · have hstart := htime.joined threads since hl hd
        omega
      · obtain ⟨j, hlive⟩ := not_forall.mp hd
        have hstart := htime.running threads since hl j hlive
        have hleft := Poll.le_left (δ := δ) (by omega) hlive
        have hj := hall j
        omega
  | sleeping since =>
    have hstart := htime.asleep since hl
    rw [hl] at h
    simp only [NoticesBy] at h
    omega
  | ended =>
    rw [hl] at h
    exact h.elim

/-! ## From the failure to its answer -/

/-- **How long an outage stays unnoticed at most**: the rest of a round, the sleep and the next round. -/
def noticeTime (interval δ : Int) : Int := interval + 16 * δ

theorem noticesBy_of_inTime {u : Polled s} (h : InTime u) (hδ : 0 ≤ δ)
    (hlim : u.now + noticeTime interval δ ≤ limit) : NoticesBy power interval δ i limit u.loop := by
  unfold noticeTime at hlim
  cases hl : u.loop with
  | round threads since =>
    obtain ⟨hsince, hall⟩ := h.round threads since hl
    refine .inr ⟨by omega, fun j => ?_⟩
    have hj := hall j
    cases (threads j).pos <;> simp only [Poll.left] <;> omega
  | sleeping since =>
    have hsince := h.asleep since hl
    simp only [NoticesBy]
    omega
  | ended => exact h.goes hl

theorem since_begins {u w : World s} {tr : List (Step s)} (h : Run (system s) u tr w)
    (hu : ¬(u.ctx i).Responding) (hw : w.now ≤ limit) (hr : (w.ctx i).Responding) :
    Since (fun t => BeginsMonitoring i t ∧ t.post.now ≤ limit)
      (fun t => (t.post.ctx i).Responding) tr := by
  induction h with
  | nil => exact absurd hr hu
  | @snoc v w tr a _ ha ih =>
    have ht : (system s).Takes ⟨v, a, w⟩ := ha
    obtain ⟨hle, hnow⟩ := now_step ht
    have hspan := a.env.start_le_stop
    dsimp only at hle hnow
    by_cases hv : (v.ctx i).Responding
    · exact since_snoc.mpr (.inr ⟨hr, ih (by omega) hv⟩)
    · exact since_snoc.mpr (.inl ⟨⟨Mode.at_rest hv, hr⟩, hw⟩)

/-- **Every power failure is answered**: of UPS `i`, which has been on battery since the state `u`, as far
as anything can tell. -/
def FailureAnswered (interval δ : Int) (i : s.Ix) (x : Execution (polled s interval)) : Prop :=
  ∀ before u failure t after a, x.steps = before ++ (failure ++ t :: after) →
    Run (polled s interval) x.start before u → (∀ t' ∈ failure, t'.act.OnBattery i) →
    t.act.action = some a →
    u.now + noticeTime interval δ + (s.dev i).responseTime δ < t.act.env.start →
    Since (TerminalEffect i) (fun t' => (t'.post.ctx i).Responding)
      ((before ++ failure).filterMap (pollsOnly s interval).image)

/-- The loop notices by `limit`, or has noticed an outage that began by then. -/
def Noticing (interval δ : Int) (i : s.Ix) (limit : Int) (tr : List (PollStep s)) (w : Polled s) :
    Prop :=
  NoticesBy true interval δ i limit w.loop ∨ (Noticed true i w ∧
    Since (fun t => BeginsMonitoring i t ∧ t.post.now ≤ limit)
      (fun t => (t.post.ctx i).Responding) (tr.filterMap (pollsOnly s interval).image))

theorem noticing_step {x : Execution (polled s interval)} {tr : List (PollStep s)}
    (hi : 0 ≤ interval) (hr : Run (polled s interval) x.start tr t.pre)
    (ht : (polled s interval).Takes t) (hpre : InTime t.pre) (htime : PollsOnTime interval δ t)
    (hb : t.act.OnBattery i) (h : Noticing interval δ i limit tr t.pre) :
    Noticing interval δ i limit (tr ++ [t]) t.post := by
  have hrun : Run (polled s interval) x.start (tr ++ [t]) t.post := hr.append (Run.single ht)
  have hreach : (polled s interval).Reachable t.post := ⟨x.start, _, x.init, hrun⟩
  rcases h with h | ⟨hnoticed, hsince⟩
  · rcases noticesBy_step hi ht htime hb.reports h with h | ⟨hhandles, hnow⟩
    · exact .inl h
    · have hnoticed := noticed_of_handle ht hhandles
      refine .inr ⟨hnoticed, ?_⟩
      refine since_begins ((pollsOnly s interval).run hrun) ?_ ?_
        (responding_of_upsOnBattery hreach hnoticed.known)
      · have hidle := (idle_of_init x.init.1 i).1
        exact fun h => by rcases h with h | h <;> exact absurd (hidle.symm.trans h) (by decide)
      · exact (inTime_step hi ht hpre).world.trans hnow
  · have hnoticed' := noticed_step ht hb.reports hnoticed
    refine .inr ⟨hnoticed', ?_⟩
    rw [List.filterMap_append]
    cases him : (pollsOnly s interval).image t with
    | none => simpa [him] using hsince
    | some t' =>
      have hpost : t'.post = t.post.world := by
        obtain ⟨a, -, rfl⟩ := Option.map_eq_some_iff.mp him
        rfl
      rw [List.filterMap_cons_some him, List.filterMap_nil]
      refine since_snoc.mpr (.inr ⟨?_, hsince⟩)
      rw [hpost]
      exact responding_of_upsOnBattery hreach hnoticed'.known

/-- **In punctual executions every power failure is answered**, by the poll loop alone: if `upsc` says
so whenever it is asked, a terminal effect has come by the end of its notice and response times, and
the server has not stood down since. -/
theorem failureAnswered (hi : 0 ≤ interval) (x : Execution (polled s interval))
    (hx : PunctualPolls interval δ i x) : FailureAnswered interval δ i x := by
  intro before u failure t after a hsteps hbefore hfailure hact hlate
  have hrun := x.run
  rw [hsteps] at hrun
  obtain ⟨v, hv, hrest⟩ := hrun.split
  obtain rfl := hbefore.last_eq hv
  obtain ⟨hr, ht, -⟩ := hrest.around
  have htime : ∀ t' ∈ x.steps, PollsOnTime interval δ t' := hx.loop
  have hδ : 0 ≤ δ := by
    have hshort := (htime t (by simp [hsteps])).short
    have hspan := t.act.env.start_le_stop
    omega
  have hstart : InTime u := hbefore.inv (I := InTime) (fun _ ht h => inTime_step hi ht h)
    (.of_start x.init.2.2 x.init.2.1)
  -- until it is noticed, the loop is on its way
  let limit := u.now + noticeTime interval δ
  have hinv := hr.inv_steps
    (J := fun tr w => Run (polled s interval) x.start tr w ∧ InTime w ∧
      Noticing interval δ i limit tr w)
    (C := fun _ t => PollsOnTime interval δ t ∧ t.act.OnBattery i)
    (fun tr t ht hC h => ⟨h.1.append (Run.single ht), inTime_step hi ht h.2.1,
      noticing_step hi h.1 ht h.2.1 hC.1 hC.2 h.2.2⟩)
    before ⟨hbefore, hstart, .inl (noticesBy_of_inTime hstart hδ le_rfl)⟩
    (fun tr₁ t₁ tr₂ h => ⟨htime t₁ (by simp [hsteps, h]), hfailure t₁ (by simp [h])⟩)
  obtain ⟨-, -, hnotices⟩ := hinv
  have hwork : 0 ≤ (s.dev i).responseTime δ := by
    have hphase : 0 ≤ (s.dev i).phaseTime := le_max_left _ _
    have hwait : 0 ≤ (s.dev i).workTime δ := le_trans (by omega) (le_max_left _ _)
    unfold UPSDeviceConfig.responseTime
    omega
  rcases hnotices with hnotices | ⟨-, tr₁, b, outage, himage, ⟨hb, hbegan⟩, hout⟩
  · have hle := hnotices.start_le hi (htime t (by simp [hsteps]))
    omega
  · have him := image_of_action interval hact
    have hserver : ((pollsOnly s interval).execution x).steps =
        tr₁ ++ b :: (outage ++ ⟨t.pre.world, a, t.post.world⟩ ::
          after.filterMap (pollsOnly s interval).image) := by
      change x.steps.filterMap _ = _
      rw [hsteps, ← List.append_assoc, List.filterMap_append, himage,
        List.filterMap_cons_some him, List.append_assoc, List.cons_append]
    have henv := PollAct.env_action hact
    obtain ⟨t', ht', heff⟩ := terminalEffect_of_late hx.server hserver hb hout (by
      change _ < a.env.start
      rw [henv]
      omega)
    rw [himage]
    exact since_of_mem ht' heff hout

/-! ## A failure between two rounds -/

/-- `PollsOnTime`, computed. -/
def pollsOnTime (interval δ : Int) (t : PollStep s) : Bool :=
  t.act.env.stop ≤ t.act.env.start + δ && match t.pre.loop with
    | .round threads since =>
      decide (∀ j, (threads j).pos ≠ .done → t.act.env.start ≤ (threads j).since + δ) &&
        decide ((∀ j, (threads j).pos = .done) → t.act.env.start ≤ since + δ)
    | .sleeping since => t.act.env.start ≤ since + interval + δ
    | .ended => true

theorem pollsOnTime_of_eq_true (h : pollsOnTime interval δ t = true) : PollsOnTime interval δ t := by
  simp only [pollsOnTime, Bool.and_eq_true, decide_eq_true_eq] at h
  obtain ⟨hshort, hloop⟩ := h
  refine ⟨hshort, fun threads since hl => ?_, fun threads since hl => ?_, fun since hl => ?_⟩
  · simp only [hl, Bool.and_eq_true, decide_eq_true_eq] at hloop
    exact hloop.1
  · simp only [hl, Bool.and_eq_true, decide_eq_true_eq] at hloop
    exact hloop.2
  · simpa only [hl, decide_eq_true_eq] using hloop

/-- The power fails after the first round, the second one notices it at 6000, and the server goes down
at 6240. -/
def failureUnheard : List (PollAct deskSite) :=
  [.poll mainUps (.at 0 online) .fetch, .poll mainUps (.at 0 none (some "OL")) .read,
    .poll mainUps (.at 0) (.handle (some "OL")), .advance (.at 0), .advance (.at 6000),
    .poll mainUps (.at 6000 online) .fetch, .poll mainUps (.at 6000 none (some "OB")) .read,
    .poll mainUps (.at 6000 online) (.handle (some "OB")), .advance (.at 6000),
    .server (.call mainUps (.at 6180) .timer), .server (.call mainUps (.at 6180) (.worker 0)),
    .server (.call mainUps (.at 6180) (.worker 0)), .server (.call mainUps (.at 6240) (.worker 0)),
    .advance (.at 12000), .poll mainUps (.at 12000) .fetch]

theorem failureAnswered_failureUnheard : ∃ x : Execution (polled deskSite 6000),
    FailureAnswered 6000 60 mainUps x ∧ (∀ t ∈ x.steps.drop 4, t.act.OnBattery mainUps) ∧
      ((x.steps.drop 4).head?.any fun t => t.pre.now = 0) ∧
      (∃ t ∈ x.steps.drop 14,
        noticeTime 6000 60 + (deskSite.dev mainUps).responseTime 60 < t.act.env.start) ∧
      ∃ t ∈ (x.steps.drop 4).filterMap (pollsOnly deskSite 6000).image, TerminalEffect mainUps t := by
  obtain ⟨x, hserver, hloop, hrest⟩ := exists_execution (S := polled deskSite 6000) failureUnheard
    (P := fun tr => ((List.range (tr.filterMap (pollsOnly deskSite 6000).image).length).all fun k =>
        ((tr.filterMap (pollsOnly deskSite 6000).image)[k]?).all fun t =>
          onTime 60 mainUps ((tr.filterMap (pollsOnly deskSite 6000).image).take k) t) = true ∧
      (tr.all fun t => pollsOnTime 6000 60 t) = true ∧
      (∀ t ∈ tr.drop 4, t.act.OnBattery mainUps) ∧
      ((tr.drop 4).head?.any fun t => t.pre.now = 0) ∧
      (∃ t ∈ tr.drop 14,
        noticeTime 6000 60 + (deskSite.dev mainUps).responseTime 60 < t.act.env.start) ∧
      ∃ t ∈ (tr.drop 4).filterMap (pollsOnly deskSite 6000).image,
        .selfShutdown ∈ (t.post.ctx mainUps).out ∨ .powerOffUps ∈ (t.post.ctx mainUps).out)
    (u := ⟨0, .boot (.at 0) fun _ => {}, .start deskSite 0⟩)
    ⟨⟨.at 0, fun _ => {}, rfl⟩, rfl, by decide⟩ (by decide)
  refine ⟨x, failureAnswered (by decide) x ⟨punctual_of_take hserver, fun t ht => ?_⟩, hrest⟩
  exact pollsOnTime_of_eq_true (List.all_eq_true.mp hloop t ht)

end UpsOrchestrator

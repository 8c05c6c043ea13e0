import UpsOrchestrator.Reports

/-!
# Reports in order

* `Overlap.engaged`: what the two calls do once the report has read a record that it writes;
  `follows_body`: the power calls keep to it.
* `Overlap.Ordered`: the invariant of the interleaved runs; **`serialisable`**: without a clash every
  interleaving ends as one of the two orders.
-/

set_option autoImplicit false

namespace UpsOrchestrator

open Lts

/-- The operation reads or writes the record. -/
def Op.touchesRecord : Op → Bool
  | .getOrchestratorState => true
  | .saveOrchestratorState _ => true
  | _ => false

theorem touchesRecord_of_not_coordinates {op : Op} (h : op.coordinates = false) :
    op.touchesRecord = false := by
  cases op with
  | getOrchestratorState => exact h
  | saveOrchestratorState => exact h
  | _ => rfl

theorem orch_exec {op : Op} {e : Answers} {u v : Shared} {a : op.Ans}
    (ho : op.touchesRecord = false) (h : op.exec e u = some (a, v)) : v.ctx.orch = u.ctx.orch := by
  cases op with
  | getOrchestratorState => exact absurd ho (by decide)
  | saveOrchestratorState => exact absurd ho (by simp [Op.touchesRecord])
  | acquire lock =>
    cases lock <;>
    · simp only [Op.exec] at h
      split_ifs at h
      obtain ⟨-, rfl⟩ := Prod.ext_iff.mp (Option.some.inj h)
      rfl
  | release lock =>
    cases lock <;>
    · obtain ⟨-, rfl⟩ := Prod.ext_iff.mp (Option.some.inj h)
      rfl
  | _ =>
    obtain ⟨-, rfl⟩ := Prod.ext_iff.mp (Option.some.inj h)
    rfl

theorem Mode.spared_rfl (m : Mode) : Mode.Spared m m := by
  refine ⟨?_, ?_⟩ <;> rintro rfl <;> decide

namespace Overlap

/-! ## Once the report has read a record that it writes -/

/-- Whether the report has been made, and whether the power call has read a later record. -/
inductive Stage
  | report (made : Bool)
  | power (late : Bool)

/-- The stages of the two calls. -/
def stages (made late : Bool) : Caller → Stage
  | .report => .report made
  | .power => .power late

/-- **The report turns the record `o` into `n`.** The power call executes a phase action only if `S`
holds, and over a record that has been reported unless the report does the same. -/
def engaged (x : Overlap) (o n : OrchState) (S : Prop) : Discipline Op Op.Ans Stage where
  allowed
    | .report made, .saveOrchestratorState orch => made = false ∧ orch = n
    | .power late, .saveOrchestratorState orch =>
      S ∧ (late = true ∨ n = o.struck) ∧ orch = n.struck
    | _, _ => True
  possible
    | .report made, .getOrchestratorState, orch =>
      made = false → orch = o ∨ (n = o.struck ∧ orch = n)
    | .power late, .getOrchestratorState, orch =>
      (late = false ∧ orch = o) ∨ orch = n ∨ (S ∧ orch = n.struck)
    | .report _, .nowTs r, t => t = (x.answers .report).1.clock r
    | .power _, .nowTs r, t => t = (x.answers .power).1.clock r
    | .power _, .desktopUpsOnBattery, b => b = (x.answers .power).2
    | _, _, _ => True
  next
    | .report made, .getOrchestratorState, orch => .report (made || orch.mode = .shuttingDown)
    | .report _, .saveOrchestratorState _, _ => .report true
    | .power late, .getOrchestratorState, orch => .power (late || orch ≠ o)
    | q, _, _ => q

/-- The stages fit the record `r`. -/
structure Fit (o n : OrchState) (S : Prop) (made late : Bool) (r : OrchState) : Prop where
  after : made = true ∨ late = true → r = n ∨ (S ∧ r = n.struck)
  before : made = false → r = o ∨ (n = o.struck ∧ r = n)

def Fits (o n : OrchState) (S : Prop) (q : Caller → Stage) (u : Shared) : Prop :=
  ∃ made late, q = stages made late ∧ Fit o n S made late u.ctx.orch

/-- The report ends with the report made. -/
def Ended : Caller → Stage → Prop
  | .report, .report made => made = true
  | _, _ => True

variable {x : Overlap} {o n r : OrchState} {S : Prop} {made late : Bool}

theorem update_report {made' : Bool} :
    Function.update (stages made late) .report (.report made') = stages made' late := by
  funext i
  cases i <;> rfl

theorem update_power {late' : Bool} :
    Function.update (stages made late) .power (.power late') = stages made late' := by
  funext i
  cases i <;> rfl

theorem Triggers.reported_ne (h : x.Triggers o) (hn : x.Reported o n) :
    n ≠ o ∧ n.struck ≠ o ∧ (n = o.struck ∨ n.mode = .monitoring) := by
  have hm := h.2.1
  have hstruck : ∀ r : OrchState, r.struck ≠ o := fun r he => by
    rw [← he] at hm
    exact absurd hm (by simp [OrchState.struck])
  rcases hn with ⟨-, rfl⟩ | ⟨-, hp, rfl⟩
  · exact ⟨hstruck o, hstruck _, .inl rfl⟩
  · refine ⟨fun he => ?_, hstruck _, .inr hm⟩
    rw [← he] at hp
    exact absurd hp (by simp [suspended])

@[simp] theorem struck_struck (r : OrchState) : r.struck.struck = r.struck := rfl

namespace Fit

variable (hf : Fit o n S made late r)
include hf

theorem cases : r = o ∨ r = n ∨ (S ∧ r = n.struck) := by
  by_cases hmade : made = true
  · exact .inr (hf.after (.inl hmade))
  · rcases hf.before (by simpa using hmade) with h | ⟨-, h⟩
    · exact .inl h
    · exact .inr (.inl h)

theorem reportReads (h : x.Triggers o) :
    Fit o n S (made || r.mode = .shuttingDown) late r := by
  refine ⟨fun hor => ?_, fun hmade => hf.before (by simp at hmade; exact hmade.1)⟩
  by_cases hold : made = true ∨ late = true
  · exact hf.after hold
  obtain ⟨hmade, hlate⟩ := not_or.mp hold
  have hsd : r.mode = .shuttingDown := by simpa [hmade, hlate] using hor
  rcases hf.before (by simpa using hmade) with rfl | ⟨-, hr⟩
  · exact absurd (h.2.1.symm.trans hsd) (by decide)
  · exact .inl hr

theorem powerReads : Fit o n S made (late || r ≠ o) r := by
  refine ⟨fun hor => ?_, hf.before⟩
  by_cases hold : made = true ∨ late = true
  · exact hf.after hold
  obtain ⟨hmade, hlate⟩ := not_or.mp hold
  have hne : r ≠ o := by simpa [hmade, hlate] using hor
  exact .inl ((hf.before (by simpa using hmade)).resolve_left hne).2

theorem powerWrites (hS : S) (hl : late = true ∨ n = o.struck) (hne : n ≠ o)
    (hne' : n.struck ≠ o) : Fit o n S made late n.struck := by
  refine ⟨fun _ => .inr ⟨hS, rfl⟩, fun hmade => ?_⟩
  have hn : n = o.struck := by
    rcases hl with hl | hl
    · -- it has read a later record, so the report has been made unless it does the same
      rcases hf.before hmade with hr | ⟨hn, -⟩
      · rcases hf.after (.inr hl) with h | ⟨-, h⟩
        · exact absurd (h.symm.trans hr) hne
        · exact absurd (h.symm.trans hr) hne'
      · exact hn
    · exact hl
  exact .inr ⟨hn, by rw [hn, struck_struck]⟩

end Fit

/-- **Every operation keeps the fit**, and spares the modes. -/
theorem keeps_engaged (h : x.Triggers o) (hn : x.Reported o n) :
    (x.engaged o n S).KeepsWith Op.exec (Fits o n S) (fun i e => e = x.answers i)
      fun i _ u v => i = .report → Mode.Spared u.ctx.mode v.ctx.mode := by
  obtain ⟨hne, hne', hcases⟩ := h.reported_ne hn
  rintro q u i op e a v rfl ⟨made, late, rfl, hf⟩ hal hex
  have hframe : op.touchesRecord = false → Mode.Spared u.ctx.mode v.ctx.mode := by
    intro ho
    rw [Ctx.mode, Ctx.mode, orch_exec ho hex]
    exact Mode.spared_rfl _
  cases op with
  | getOrchestratorState =>
    obtain ⟨rfl, rfl⟩ := Prod.ext_iff.mp (Option.some.inj hex)
    cases i with
    | report =>
      refine ⟨hf.before, ⟨_, late, update_report, hf.reportReads h⟩, fun _ => Mode.spared_rfl _⟩
    | power =>
      refine ⟨?_, ⟨made, _, update_power, hf.powerReads⟩, fun hi => absurd hi (by decide)⟩
      by_cases hl : late = true
      · exact .inr (hf.after (.inr hl))
      · rcases hf.cases with hr | hr
        · exact .inl ⟨by simpa using hl, hr⟩
        · exact .inr hr
  | saveOrchestratorState orch =>
    obtain ⟨-, rfl⟩ := Prod.ext_iff.mp (Option.some.inj hex)
    cases i with
    | report =>
      obtain ⟨hmade, rfl⟩ := hal
      refine ⟨trivial, ⟨true, late, update_report, fun _ => .inl rfl, by simp⟩, fun _ => ?_⟩
      rcases hf.before hmade with hr | ⟨hs, hr⟩
      · rw [Ctx.mode, hr]
        refine ⟨fun hi => ?_, fun hi => ?_⟩
        · exact absurd (h.2.1.symm.trans hi) (by decide)
        · exact absurd (h.2.1.symm.trans hi) (by decide)
      · rw [Ctx.mode, hr]
        exact Mode.spared_rfl _
    | power =>
      obtain ⟨hS, hl, rfl⟩ := hal
      refine ⟨trivial, ⟨made, late, ?_, hf.powerWrites hS hl hne hne'⟩,
        fun hi => absurd hi (by decide)⟩
      exact Function.update_eq_self _ _
  | nowTs r =>
    have hrec := orch_exec rfl hex
    obtain ⟨rfl, -⟩ := Prod.ext_iff.mp (Option.some.inj hex)
    cases i with
    | report => exact ⟨rfl, ⟨made, late, Function.update_eq_self _ _, hrec ▸ hf⟩, fun _ => hframe rfl⟩
    | power => exact ⟨rfl, ⟨made, late, Function.update_eq_self _ _, hrec ▸ hf⟩, fun _ => hframe rfl⟩
  | desktopUpsOnBattery =>
    have hrec := orch_exec rfl hex
    obtain ⟨rfl, -⟩ := Prod.ext_iff.mp (Option.some.inj hex)
    cases i with
    | report =>
      exact ⟨trivial, ⟨made, late, Function.update_eq_self _ _, hrec ▸ hf⟩, fun _ => hframe rfl⟩
    | power => exact ⟨rfl, ⟨made, late, Function.update_eq_self _ _, hrec ▸ hf⟩, fun _ => hframe rfl⟩
  | _ =>
    have hrec := orch_exec rfl hex
    cases i with
    | report =>
      exact ⟨trivial, ⟨made, late, Function.update_eq_self _ _, hrec ▸ hf⟩, fun _ => hframe rfl⟩
    | power =>
      exact ⟨trivial, ⟨made, late, Function.update_eq_self _ _, hrec ▸ hf⟩, fun _ => hframe rfl⟩

/-! ### The power calls keep to it -/

section Follows

variable {d : UPSDeviceConfig} {e : Env} {b : Bool} {k : PowerKind}

theorem follows_of_avoids {α : Type} {p : Handler α} {Q : Stage → α → Prop}
    (hp : p.Avoids Op.touchesRecord) (hQ : ∀ a, Q (.power late) a) :
    Follows (x.engaged o n S) (.power late) p Q := by
  refine .of_avoids hp (fun op ho => ?_) hQ
  cases op with
  | getOrchestratorState => exact absurd ho (by decide)
  | saveOrchestratorState => exact absurd ho (by simp [Op.touchesRecord])
  | _ => exact ⟨trivial, fun _ => rfl⟩

theorem follows_executePhaseAction (reason : Reason) (hS : S) (hl : late = true ∨ n = o.struck) :
    Follows (x.engaged o n S) (.power late) (Handler.executePhaseAction d reason)
      fun _ _ => True := by
  refine ⟨trivial, fun _ _ => ⟨trivial, fun orch horch => ?_⟩⟩
  simp only [Prog.ret_bind]
  split_ifs
  · exact ⟨trivial, fun _ _ => trivial⟩
  · have hlate : (late || decide (orch ≠ o)) = true ∨ n = o.struck :=
      hl.imp_left fun h => by rw [h, Bool.true_or]
    have hwrite : orch.struck = n.struck := by
      rcases horch with ⟨hfresh, rfl⟩ | rfl | ⟨-, rfl⟩
      · have hn : n = orch.struck := hl.resolve_left (by simp [hfresh])
        rw [hn, struck_struck]
      · rfl
      · rfl
    refine ⟨trivial, fun _ _ => ⟨⟨hS, hlate, hwrite⟩, fun _ _ => ?_⟩⟩
    exact ⟨trivial, fun _ _ => ⟨trivial, fun _ _ => ⟨trivial, fun _ _ => trivial⟩⟩⟩

theorem follows_checkPhaseDeadline (h : x.Triggers o) (hn : x.Reported o n)
    (hd : (n = o.struck ∧ S) ∨
      (¬o.due (x.answers .power).1 ∧ (n.due (x.answers .power).1 → S))) :
    Follows (x.engaged o n S) (.power late) (Handler.checkPhaseDeadline d) fun _ _ => True := by
  obtain ⟨hne, hne', -⟩ := h.reported_ne hn
  refine ⟨trivial, fun orch horch => ⟨trivial, fun now hnow => ?_⟩⟩
  obtain rfl : now = (x.answers .power).1.clock .check := hnow
  simp only [Prog.ret_bind]
  split_ifs with hlt
  · trivial
  · have hdue : orch.due (x.answers .power).1 := not_lt.mp hlt
    rcases hd with ⟨hs, hS⟩ | ⟨ho, hS⟩
    · exact follows_executePhaseAction _ hS (.inr hs)
    · rcases horch with ⟨-, rfl⟩ | rfl | ⟨hS', rfl⟩
      · exact absurd hdue ho
      · exact follows_executePhaseAction _ (hS hdue) (.inl (by simp [hne]))
      · exact follows_executePhaseAction _ hS' (.inl (by simp [hne']))

theorem follows_noteProgram (call : PowerCall) : Follows (x.engaged o n S) (.power late)
    call.noteProgram fun q _ => ∃ late', q = .power late' := by
  unfold PowerCall.noteProgram
  cases call.ownReport with
  | none => exact ⟨late, rfl⟩
  | some onBattery =>
    refine ⟨trivial, fun power _ => ?_⟩
    simp only [Prog.ret_bind]
    split_ifs
    · exact ⟨late, rfl⟩
    · exact ⟨trivial, fun _ _ => ⟨trivial, fun _ _ => ⟨late, rfl⟩⟩⟩
    · refine ⟨trivial, fun _ _ => ⟨trivial, fun orch _ => ?_⟩⟩
      simp only [Prog.ret_bind]
      split_ifs
      · exact ⟨trivial, fun _ _ => ⟨trivial, fun _ _ => ⟨_, rfl⟩⟩⟩
      · exact ⟨_, rfl⟩

/-- **A power call that does not clash** keeps to the discipline from its body on. -/
theorem follows_body (h : x.Triggers o) (hn : x.Reported o n)
    (hk : k.standsDown (x.answers .power).2 = false)
    (hs : (n = o.struck ∧ S) ∨ (¬k.Leaves (x.answers .power).1 (x.answers .power).2 o ∧
      (k.checks (x.answers .power).2 = true → n.due (x.answers .power).1 → S))) :
    Follows (x.engaged o n S) (.power late) (k.body d) fun _ _ => True := by
  obtain ⟨-, -, hcases⟩ := h.reported_ne hn
  -- the modes that the call can read
  have hmode : ∀ {late' : Bool} {orch : OrchState},
      (x.engaged o n S).possible (.power late') .getOrchestratorState orch →
        orch.mode = .monitoring ∨ orch.mode = .shuttingDown := by
    rintro late' orch (⟨-, rfl⟩ | rfl | ⟨-, rfl⟩)
    · exact .inl h.2.1
    · exact hcases.elim (fun hr => .inr (by rw [hr]; rfl)) .inl
    · exact .inr rfl
  have hstrike : k.strikes = true → n = o.struck ∧ S := fun hk' =>
    hs.resolve_right fun hr => hr.1 (.inr (.inl hk'))
  have hcheck : k.checks (x.answers .power).2 = true → (n = o.struck ∧ S) ∨
      (¬o.due (x.answers .power).1 ∧ (n.due (x.answers .power).1 → S)) := fun hk' =>
    hs.imp_right fun hr => ⟨fun hdue => hr.1 (.inr (.inr ⟨hk', hdue⟩)), hr.2 hk'⟩
  cases k with
  | low reason =>
    obtain ⟨hr, hS⟩ := hstrike rfl
    refine ⟨trivial, fun orch horch => ?_⟩
    simp only [Prog.ret_bind, Handler.lowBatteryAction]
    rcases hmode horch with hm | hm
    · rw [hm]
      exact follows_executePhaseAction _ hS (.inr hr)
    · rw [if_pos hm]
      trivial
  | battery checks =>
    refine ⟨trivial, fun orch horch => ?_⟩
    have hrest : ¬(orch.mode = .idle ∨ orch.mode = .desktopHandled) := by
      rcases hmode horch with hm | hm <;> simp [hm]
    simp only [Prog.ret_bind]
    rw [if_neg hrest]
    split_ifs with hc
    · exact follows_checkPhaseDeadline h hn (hcheck hc.1)
    · trivial
  | mains reason =>
    refine ⟨trivial, fun orch horch => ⟨trivial, fun out hout => ?_⟩⟩
    obtain rfl : out = (x.answers .power).2 := hout
    have hout : (x.answers .power).2 = true := by simpa [PowerKind.standsDown] using hk
    simp only [Prog.ret_bind, hout, if_true]
    rcases hmode horch with hm | hm
    · rw [if_neg (by simp [hm]), if_pos hm]
      exact follows_checkPhaseDeadline h hn (hcheck hout)
    · rw [if_neg (by simp [hm]), if_neg (by simp [hm])]
      trivial
  | suspendDue =>
    obtain ⟨hr, hS⟩ := hstrike rfl
    refine ⟨trivial, fun orch _ => ?_⟩
    simp only [Prog.ret_bind]
    split_ifs
    · exact follows_executePhaseAction _ hS (.inr hr)
    · trivial
  | timer =>
    obtain ⟨hr, hS⟩ := hstrike rfl
    exact follows_executePhaseAction _ hS (.inr hr)
  | reset reason => exact absurd hk (by simp [PowerKind.standsDown])
  | nothing => exact ⟨trivial, fun _ _ => trivial⟩

end Follows

/-! ### The report keeps to it -/

theorem follows_reactToReport (h : x.Triggers o) (hn : x.Reported o n) :
    Follows (x.engaged o n S) (.report false) (Handler.reactToReport x.dev x.status o)
      fun q _ => Ended .report q := by
  have hm : ¬o.mode ≠ .monitoring := not_not.mpr h.2.1
  unfold Handler.reactToReport
  rw [if_neg hm]
  rcases hn with ⟨hd, rfl⟩ | ⟨hs, hp, rfl⟩
  · rw [if_pos (show _ ∨ _ from hd)]
    refine ⟨trivial, fun _ _ => ⟨trivial, fun cur hcur => ?_⟩⟩
    simp only [Prog.ret_bind]
    have hread : cur = o ∨ cur = o.struck := (hcur rfl).imp_right And.right
    split_ifs with hsd
    · refine ⟨trivial, fun _ _ => ?_⟩
      show (false || decide (cur.mode = .shuttingDown)) = true
      rw [decide_eq_true hsd]
      rfl
    · have hmade : (false || decide (cur.mode = .shuttingDown)) = false := by simp [hsd]
      have hwrite : cur.struck = o.struck := by rcases hread with rfl | rfl <;> rfl
      refine ⟨⟨hmade, hwrite⟩, fun _ _ => ?_⟩
      exact ⟨trivial, fun _ _ => ⟨trivial, fun _ _ => ⟨trivial, fun _ _ => rfl⟩⟩⟩
  · rw [if_neg (show ¬(_ ∨ _) from not_down_of_suspended hs), if_pos ⟨hs, hp⟩]
    refine ⟨trivial, fun now hnow => ?_⟩
    obtain rfl : now = (x.answers .report).1.clock .deadline := hnow
    exact ⟨⟨rfl, rfl⟩, fun _ _ => rfl⟩

theorem reactToReport_of_not_triggers (ho : x.dev.isObserver = false) (h : ¬x.Triggers r) :
    Handler.reactToReport x.dev x.status r = .ret () := by
  unfold Handler.reactToReport
  split_ifs with h1 h2 h3
  · rfl
  · exact absurd ⟨ho, not_not.mp h1, .inl h2⟩ h
  · exact absurd ⟨ho, not_not.mp h1, .inr h3⟩ h
  · rfl

/-! ## The invariant -/

/-- From the record `o` on, with the power call about to go on with `p`, both orders are met. -/
def Engages (x : Overlap) (o : OrchState) (p : Handler Unit) : Prop :=
  ∃ n S, x.Reported o n ∧ x.InOrder n ∧ (S → x.InOrder n.struck) ∧
    Follows (x.engaged o n S) (.power false) p fun _ _ => True

/-- What holds while the report has not read the record. -/
def Point (x : Overlap) (p : Handler Unit) (u : Shared) : Prop :=
  (x.Triggers u.ctx.orch → x.Engages u.ctx.orch p) ∧
    (¬x.Triggers u.ctx.orch → ∀ v, p.solo Op.exec (x.answers .power) u = some ((), v) →
      x.InOrder v.ctx.orch)

/-- What is left of the two programs. -/
def both (p q : Handler Unit) : Caller → Handler Unit
  | .report => p
  | .power => q

/-- **The invariant of the interleaved runs**: the report has not begun, or it has read a record that
it does not write, or it has read one that it writes. -/
inductive Ordered (x : Overlap) : Pool Op Op.Ans Shared Caller → Prop
  | before (p : Handler Unit) (u : Shared) (along : p.Along Op.exec (x.answers .power) x.Point u) :
      Ordered x ⟨u, both (x.program .report) p⟩
  | unmoved (p : Handler Unit) (u : Shared)
      (last : ∀ v, p.solo Op.exec (x.answers .power) u = some ((), v) → x.InOrder v.ctx.orch) :
      Ordered x ⟨u, both (.ret ()) p⟩
  | engaged (w : Pool Op Op.Ans Shared Caller) (o n : OrchState) (S : Prop) (trigger : x.Triggers o)
      (reported : x.Reported o n) (made : x.InOrder n) (struck : S → x.InOrder n.struck)
      (disciplined : DisciplinedTo (x.engaged o n S) (Fits o n S) Ended w) : Ordered x w

variable {p q : Handler Unit} {w : Pool Op Op.Ans Shared Caller}
  {t : Transition (Pool Op Op.Ans Shared Caller) (Caller × Answers)}

theorem update_both_report {p' : Handler Unit} :
    Function.update (both p q) .report p' = both p' q := by
  funext i
  cases i <;> rfl

theorem update_both_power {q' : Handler Unit} :
    Function.update (both p q) .power q' = both p q' := by
  funext i
  cases i <;> rfl

theorem start_eq :
    x.start = ⟨⟨x.ctx, false, false⟩, both (x.program .report) (x.program .power)⟩ := by
  have hthreads : x.program = both (x.program .report) (x.program .power) := by
    funext i
    cases i <;> rfl
  rw [start, ← hthreads]

theorem engaged_of_engages {u : Shared} (ht : x.Triggers u.ctx.orch)
    (h : x.Engages u.ctx.orch p) :
    x.Ordered ⟨u, both (Handler.reactToReport x.dev x.status u.ctx.orch) p⟩ := by
  obtain ⟨n, S, hn, hmade, hstruck, hp⟩ := h
  refine .engaged _ u.ctx.orch n S ht hn hmade hstruck ⟨stages false false, ?_, fun i => ?_⟩
  · exact ⟨false, false, rfl, by simp, fun _ => .inl rfl⟩
  · cases i with
    | report => exact follows_reactToReport ht hn
    | power => exact hp.mono fun _ _ _ => trivial

/-- **Every step keeps the invariant**, and spares the modes. -/
theorem Ordered.step (ht : (pool Op.exec x.start).Takes t) (he : t.act.2 = x.answers t.act.1)
    (h : x.Ordered t.pre) : x.Ordered t.post ∧
      (t.act.1 = .report → Mode.Spared t.pre.shared.ctx.mode t.post.shared.ctx.mode) := by
  obtain ⟨w, ⟨i, e⟩, w'⟩ := t
  obtain rfl : e = x.answers i := he
  obtain ⟨op, k, b, v, hi, hb, hpost⟩ := Pool.of_step ht
  change w.threads i = .op op k at hi
  change op.exec (x.answers i) w.shared = some (b, v) at hb
  change w' = ⟨v, Function.update w.threads i (k b)⟩ at hpost
  subst hpost
  cases h with
  | before p u along =>
    cases i with
    | report =>
      -- the report reads the record
      by_cases ho : x.dev.isObserver = true
      · have hret : x.program .report = .ret () := if_pos ho
        exact absurd (hret.symm.trans hi) (by simp)
      have hprog : x.program .report = .op .getOrchestratorState
          (Handler.reactToReport x.dev x.status) := if_neg ho
      obtain ⟨rfl, hk⟩ := Prog.op.inj (hprog.symm.trans hi)
      obtain rfl := eq_of_heq hk
      obtain ⟨rfl, rfl⟩ := Prod.ext_iff.mp (Option.some.inj hb)
      rw [update_both_report]
      refine ⟨?_, fun _ => Mode.spared_rfl _⟩
      by_cases htr : x.Triggers u.ctx.orch
      · exact engaged_of_engages htr (along.here.1 htr)
      · have hret := reactToReport_of_not_triggers (r := u.ctx.orch) (by simpa using ho) htr
        have hnext := Ordered.unmoved p u (along.here.2 htr)
        rw [← hret] at hnext
        exact hnext
    | power =>
      change p = .op op k at hi
      subst hi
      rw [update_both_power]
      exact ⟨.before _ v (along.2 b v hb), fun h => absurd h (by simp)⟩
  | unmoved p u last =>
    cases i with
    | report => exact absurd (show Prog.ret () = _ from hi) (by simp)
    | power =>
      change p = .op op k at hi
      subst hi
      rw [update_both_power]
      refine ⟨.unmoved _ v fun v' hv' => last v' ?_, fun h => absurd h (by simp)⟩
      rw [Prog.solo, show op.exec (x.answers .power) u = _ from hb]
      exact hv'
  | engaged w o n S trigger reported made struck disciplined =>
    obtain ⟨hd, op', -, hR⟩ := disciplined.step (keeps_engaged trigger reported) ht rfl
    exact ⟨.engaged _ o n S trigger reported made struck hd, hR⟩

/-- **At the end** the record is in order. -/
theorem Ordered.inOrder (h : x.Ordered w) (hw : ∀ i, w.threads i = .ret ()) :
    x.InOrder w.shared.ctx.orch := by
  cases h with
  | before p u along =>
    obtain rfl : p = .ret () := hw .power
    have hnot : ¬x.Triggers u.ctx.orch := by
      intro htr
      have hret : x.program .report = .ret () := hw .report
      have hprog : x.program .report = .op .getOrchestratorState
          (Handler.reactToReport x.dev x.status) := if_neg (by simp [htr.1])
      exact absurd (hprog.symm.trans hret) (by simp)
    exact along.here.2 hnot u rfl
  | unmoved p u last =>
    obtain rfl : p = .ret () := hw .power
    exact last u rfl
  | engaged w o n S trigger reported made struck disciplined =>
    obtain ⟨q, ⟨b, late, rfl, hf⟩, hq⟩ := disciplined
    have hend := hq .report
    rw [hw .report] at hend
    rcases hf.after (.inl hend) with hr | ⟨hS, hr⟩
    · rw [hr]
      exact made
    · rw [hr]
      exact struck hS

/-! ## The power call alone -/

theorem along_fit (h : x.Triggers o) (hn : x.Reported o n) {u : Shared}
    (hp : Follows (x.engaged o n S) (.power late) p fun _ _ => True)
    (hf : Fit o n S made late u.ctx.orch) :
    p.Along Op.exec (x.answers .power) (fun q v => ∃ late',
      Follows (x.engaged o n S) (.power late') q (fun _ _ => True) ∧
        Fit o n S made late' v.ctx.orch) u := by
  induction p generalizing late u with
  | ret a => exact ⟨late, hp, hf⟩
  | op op k ih =>
    refine ⟨⟨late, hp, hf⟩, fun a v hv => ?_⟩
    obtain ⟨hposs, ⟨made', late', hstages, hf'⟩, -⟩ := keeps_engaged h hn (stages made late) u
      .power op _ a v rfl ⟨made, late, rfl, hf⟩ hp.1 hv
    -- its own operations do not change what the report has done
    have hmade : Stage.report made = .report made' := congrFun hstages .report
    have hlate : (x.engaged o n S).next (.power late) op a = .power late' :=
      congrFun hstages .power
    obtain rfl := Stage.report.inj hmade
    have hk := hp.2 a hposs
    rw [hlate] at hk
    exact ih a hk hf'

/-- From a record that triggers the report, the power call alone keeps the orders in reach. -/
theorem along_point {u : Shared} (ht : x.Triggers u.ctx.orch) (h : x.Engages u.ctx.orch p) :
    p.Along Op.exec (x.answers .power) x.Point u := by
  obtain ⟨n, S, hn, hmade, hstruck, hp⟩ := h
  obtain ⟨hne, -, -⟩ := ht.reported_ne hn
  have hf : Fit u.ctx.orch n S false false u.ctx.orch := ⟨by simp, fun _ => .inl rfl⟩
  refine (along_fit ht hn hp hf).mono ?_
  rintro q v ⟨late, hq, hv⟩
  rcases hv.before rfl with hr | ⟨hs, hr⟩
  · have hlate : late = false := by
      by_contra hl
      rcases hv.after (.inr (by simpa using hl)) with h | ⟨-, h⟩
      · exact hne (h.symm.trans hr)
      · exact (ht.reported_ne hn).2.1 (h.symm.trans hr)
    rw [Point, hr]
    subst hlate
    exact ⟨fun _ => ⟨n, S, hn, hmade, hstruck, hq⟩, fun hnot => absurd ht hnot⟩
  · refine ⟨fun htr => ?_, fun _ v' hv' => ?_⟩
    · rw [hr, hs] at htr
      exact absurd htr.2.1 (by simp [OrchState.struck])
    · -- the power call has done what the report would do
      have hf' : Fit u.ctx.orch n S true late v.ctx.orch := ⟨fun _ => .inl hr, by simp⟩
      have hfit : q.Along Op.exec (x.answers .power)
          (fun _ w => ∃ late', Fit u.ctx.orch n S true late' w.ctx.orch) v := by
        refine (along_fit ht hn hq hf').mono ?_
        rintro _ w ⟨late', -, hw⟩
        exact ⟨late', hw⟩
      obtain ⟨late', hw⟩ := hfit.last hv'
      rcases hw.after (.inl rfl) with h | ⟨-, h⟩
      · rw [h]
        exact hmade
      · rw [h, hs, struck_struck, ← hs]
        exact hmade

/-- What the record asks for if it triggers the report. -/
def Engaging (x : Overlap) (p : Handler Unit) (u : Shared) : Prop :=
  x.Triggers u.ctx.orch → x.Engages u.ctx.orch p

/-- A part that starts no monitoring does not come to a record that triggers the report. -/
theorem along_quiet {α : Type} {p : Handler α} {u : Shared} (hp : p.Avoids Op.startsMonitoring)
    (hu : ¬x.Triggers u.ctx.orch) :
    p.Along Op.exec (x.answers .power) (fun _ v => ¬x.Triggers v.ctx.orch) u := by
  refine Prog.Along.of_avoids (I := fun u : Shared => ¬x.Triggers u.ctx.orch) hp ?_ hu
  intro op e u a v hop hv hu
  cases op with
  | saveOrchestratorState orch =>
    obtain ⟨-, rfl⟩ := Prod.ext_iff.mp (Option.some.inj hv)
    intro htr
    have hm : orch.mode ≠ .monitoring := by simpa [Op.startsMonitoring] using hop
    exact hm htr.2.1
  | getOrchestratorState =>
    obtain ⟨-, rfl⟩ := Prod.ext_iff.mp (Option.some.inj hv)
    exact hu
  | _ =>
    rw [orch_exec rfl hv]
    exact hu

theorem along_of_avoids {u : Shared} (hp : p.Avoids Op.startsMonitoring)
    (hu : ¬x.Triggers u.ctx.orch) : p.Along Op.exec (x.answers .power) x.Engaging u :=
  (along_quiet hp hu).mono fun _ _ hv htr => absurd htr hv

theorem avoids_executePhaseAction (d : UPSDeviceConfig) (reason : Reason) :
    (Handler.executePhaseAction d reason).Avoids Op.startsMonitoring := by
  refine ⟨rfl, fun _ => ⟨rfl, fun orch => ?_⟩⟩
  simp only [Prog.ret_bind]
  split_ifs
  · exact ⟨rfl, fun _ => trivial⟩
  · exact ⟨rfl, fun _ => ⟨rfl, fun _ => ⟨rfl, fun _ => ⟨rfl, fun _ => ⟨rfl, fun _ => trivial⟩⟩⟩⟩⟩

theorem avoids_checkPhaseDeadline (d : UPSDeviceConfig) :
    (Handler.checkPhaseDeadline d).Avoids Op.startsMonitoring := by
  refine ⟨rfl, fun _ => ⟨rfl, fun now => ?_⟩⟩
  simp only [Prog.ret_bind]
  split_ifs
  · trivial
  · exact avoids_executePhaseAction d _

theorem avoids_resetToIdle (reason : String) :
    (Handler.resetToIdle reason).Avoids Op.startsMonitoring := by
  refine ⟨rfl, fun _ => ⟨rfl, fun _ => ⟨rfl, fun _ => ⟨rfl, fun _ => ⟨rfl, fun _ => ⟨rfl, fun _ =>
    ⟨rfl, fun cmd => ?_⟩⟩⟩⟩⟩⟩⟩
  simp only [Prog.ret_bind]
  cases cmd with
  | none => trivial
  | some cmd =>
    dsimp only
    split_ifs
    · exact ⟨rfl, fun _ => ⟨rfl, fun _ => trivial⟩⟩
    · trivial

theorem avoids_noteProgram (call : PowerCall) : call.noteProgram.Avoids Op.steers := by
  unfold PowerCall.noteProgram
  cases call.ownReport with
  | none => trivial
  | some onBattery => exact Handler.avoids_noteOwnPower onBattery

theorem along_startBatteryMonitoring {rest : Handler Unit} {c : Ctx} {a s : Bool}
    (hc : ¬x.Triggers c.orch) (hrest : rest.Avoids Op.startsMonitoring)
    (hE : ∀ phase, x.Triggers (x.fresh c) →
      x.Engages (x.fresh c) ((Handler.finishMonitoring (x.fresh c) phase).bind fun _ => rest)) :
    ((Handler.startBatteryMonitoring x.dev).bind fun _ => rest).Along Op.exec (x.answers .power)
      x.Engaging ⟨c, a, s⟩ := by
  obtain ⟨log, h1⟩ := Ctx.logOwnOutage_eq (c := c) (e := (x.answers .power).1)
  obtain ⟨st, h2⟩ := Ctx.fetchAtStart_eq (c := c.logOwnOutage (x.answers .power).1) (d := x.dev)
    (e := (x.answers .power).1)
  rw [Handler.startBatteryMonitoring, Prog.bind_eq, Prog.bind_assoc]
  refine Prog.Along.bind ((along_quiet (Handler.starts_nothing Handler.avoids_prepareMonitoring) hc).mono
    fun _ _ hv htr => absurd htr hv) fun r v hv => ?_
  have hsolo := Handler.solo_prepareMonitoring (d := x.dev) (e := (x.answers .power).1)
    (o := (x.answers .power).2) (c := c) (a := a) (s := s)
  obtain ⟨rfl, rfl⟩ := Prod.ext_iff.mp (Option.some.inj (hsolo.symm.trans hv))
  refine ⟨fun htr => ?_, fun _ v' hv' => ?_⟩
  · dsimp only at htr
    rw [h2, h1] at htr
    exact absurd htr hc
  · obtain ⟨-, rfl⟩ := Prod.ext_iff.mp (Option.some.inj hv')
    by_cases hW : x.Triggers (x.fresh c)
    · exact (along_point hW (hE _ hW)).mono fun _ _ h => h.1
    · refine along_of_avoids ?_ hW
      have hfinish := (Handler.avoids_finishMonitoring (x.fresh c) (Ctx.startPhase x.dev
        (x.answers .power).1 c)).mono fun _ => Op.steers_of_not_coordinates
      exact (Handler.starts_nothing hfinish).bind fun _ => hrest

/-- What follows the start of monitoring. -/
inductive Rest (x : Overlap) : Handler Unit → Prop
  | strike (reason : Reason) (low : x.call.kind.isLow = true) :
      Rest x (Handler.executePhaseAction x.dev reason)
  | release (low : x.call.kind.isLow = false) : Rest x (Handler.release .start)

theorem Rest.avoids (h : x.Rest p) : p.Avoids Op.startsMonitoring := by
  cases h with
  | strike reason => exact avoids_executePhaseAction x.dev reason
  | release => exact ⟨rfl, fun _ => trivial⟩

/-- **A start that does not clash**: the report meets the record of the start, and both orders are met
from there. -/
theorem engages_fresh {rest : Handler Unit} (hx : ¬x.Clash)
    (hm : x.ctx.mode = .idle ∨ x.ctx.mode = .desktopHandled) (hrest : x.Rest rest)
    (heff : (x.power x.ctx).orch =
      if x.call.kind.isLow then (x.fresh x.ctx).struck else x.fresh x.ctx)
    (phase : Phase) (hW : x.Triggers (x.fresh x.ctx)) : x.Engages (x.fresh x.ctx)
      ((Handler.finishMonitoring (x.fresh x.ctx) phase).bind fun _ => rest) := by
  have hfinish : (Handler.finishMonitoring (x.fresh x.ctx) phase).Avoids Op.touchesRecord :=
    (Handler.avoids_finishMonitoring _ _).mono fun _ => touchesRecord_of_not_coordinates
  rcases hW.2.2 with hd | ⟨hs, hp⟩
  · have hn : x.Reported (x.fresh x.ctx) (x.fresh x.ctx).struck := .inl ⟨hd, rfl⟩
    have horder : x.InOrder (x.fresh x.ctx).struck := by
      right
      by_cases hl : x.call.kind.isLow = true
      · rw [if_pos hl] at heff
        have hnot : ¬x.Triggers (x.power x.ctx).orch := by
          rw [heff]
          exact fun htr => absurd htr.2.1 (by simp [OrchState.struck])
        rw [report_of_not_triggers hnot, heff]
      · rw [if_neg hl] at heff
        rw [← heff] at hW hn ⊢
        rw [orch_report hW hn]
    refine ⟨_, True, hn, horder, fun _ => horder, Follows.bind (follows_of_avoids hfinish fun _ => ?_)⟩
    cases hrest with
    | strike reason => exact follows_executePhaseAction reason trivial (.inr rfl)
    | release => exact ⟨trivial, fun _ _ => trivial⟩
  · have hn : x.Reported (x.fresh x.ctx) (x.suspended (x.fresh x.ctx)) := .inr ⟨hs, hp, rfl⟩
    cases hrest with
    | strike reason hl =>
      exact absurd (.low hW.1 hs hm hl (Option.some.inj hp)) hx
    | release hl =>
      rw [if_neg (by simp [hl])] at heff
      refine ⟨_, False, hn, .inr ?_, False.elim, Follows.bind (follows_of_avoids hfinish fun _ => ?_)⟩
      · rw [← heff] at hW hn ⊢
        rw [orch_report hW hn]
      · exact ⟨trivial, fun _ _ => trivial⟩

theorem solo_noteProgram (call : PowerCall) {e : Env} {b : Bool} {c : Ctx} {a s : Bool} :
    call.noteProgram.solo Op.exec (e, b) ⟨c, a, s⟩ = some ((), ⟨call.noted e c, a, s⟩) := by
  unfold PowerCall.noteProgram PowerCall.noted
  cases call.ownReport with
  | none => rfl
  | some onBattery => exact Handler.solo_noteOwnPower onBattery

theorem noted_frame : (x.call.noted (x.answers .power).1 x.ctx).orch = x.ctx.orch ∧
    x.fresh (x.call.noted (x.answers .power).1 x.ctx) = x.fresh x.ctx := by
  unfold PowerCall.noted
  cases x.call.ownReport with
  | none => exact ⟨rfl, rfl⟩
  | some b =>
    obtain ⟨log, h⟩ := Ctx.noteOwnPower_eq (c := x.ctx) (e := (x.answers .power).1) b
    dsimp only
    rw [h]
    exact ⟨rfl, rfl⟩

theorem along_startMonitoringIfMode {c : Ctx} {ms : List Mode} (hx : ¬x.Clash)
    (hc : ¬x.Triggers c.orch) (hfresh : x.fresh c = x.fresh x.ctx) (hms : c.mode ∈ ms)
    (hrest : x.ctx.mode = .idle ∨ x.ctx.mode = .desktopHandled)
    (hl : x.call.kind.isLow = false) (heff : (x.power x.ctx).orch = x.fresh x.ctx) :
    (Handler.startMonitoringIfMode x.dev ms).Along Op.exec (x.answers .power) x.Engaging
      ⟨c, false, false⟩ := by
  refine ⟨fun htr => absurd htr hc, fun _ v hv => ?_⟩
  obtain ⟨-, rfl⟩ := Prod.ext_iff.mp (Option.some.inj hv)
  refine ⟨fun htr => absurd htr hc, fun orch v hv => ?_⟩
  obtain ⟨rfl, rfl⟩ := Prod.ext_iff.mp (Option.some.inj hv)
  simp only [Prog.ret_bind]
  rw [if_pos hms]
  refine along_startBatteryMonitoring hc (Rest.release hl).avoids fun phase htr => ?_
  rw [hfresh] at htr ⊢
  refine engages_fresh hx hrest (.release hl) ?_ phase htr
  rw [if_neg (by simp [hl]), heff]

theorem along_read {c : Ctx} {f : OrchState → Handler Unit} (hc : ¬x.Triggers c.orch)
    (hf : (f c.orch).Along Op.exec (x.answers .power) x.Engaging ⟨c, false, false⟩) :
    (Prog.bind Handler.getOrchestratorState f).Along Op.exec (x.answers .power) x.Engaging
      ⟨c, false, false⟩ := by
  refine ⟨fun htr => absurd htr hc, fun orch v hv => ?_⟩
  obtain ⟨rfl, rfl⟩ := Prod.ext_iff.mp (Option.some.inj hv)
  exact hf

theorem along_lowBatteryAction {c : Ctx} {reason : Reason} (hx : ¬x.Clash)
    (hc : ¬x.Triggers c.orch) (horch : c.orch = x.ctx.orch) (hfresh : x.fresh c = x.fresh x.ctx)
    (hk : x.call.kind = .low reason) :
    (Handler.lowBatteryAction x.dev c.mode reason).Along Op.exec (x.answers .power) x.Engaging
      ⟨c, false, false⟩ := by
  have hmode : c.mode = x.ctx.mode := congrArg OrchState.mode horch
  have hlow : x.call.kind.isLow = true := by rw [hk]; rfl
  have heff := orch_power (x := x) (c := x.ctx)
  rw [hk] at heff
  simp only [Handler.lowBatteryAction]
  by_cases hsd : c.mode = .shuttingDown
  · rw [if_pos hsd]
    exact along_of_avoids trivial hc
  rw [if_neg hsd]
  by_cases hmon : c.mode = .monitoring
  · rw [if_neg (not_not.mpr hmon)]
    exact along_of_avoids (avoids_executePhaseAction _ _) hc
  · rw [if_pos hmon]
    have hrest := Mode.at_rest (not_or.mpr ⟨hmon, hsd⟩)
    refine along_startBatteryMonitoring hc (avoids_executePhaseAction _ _) fun phase htr => ?_
    rw [hfresh] at htr ⊢
    refine engages_fresh hx (hmode ▸ hrest) (.strike reason hlow) ?_ phase htr
    have hsd' : ¬x.ctx.mode = .shuttingDown := hmode ▸ hsd
    have hmon' : ¬x.ctx.mode = .monitoring := hmode ▸ hmon
    rw [if_pos hlow, heff, PowerKind.effect, if_neg hsd', if_neg hmon']

theorem along_battery {c : Ctx} {checks : Bool} (hx : ¬x.Clash) (hc : ¬x.Triggers c.orch)
    (horch : c.orch = x.ctx.orch) (hfresh : x.fresh c = x.fresh x.ctx)
    (hk : x.call.kind = .battery checks) :
    ((PowerKind.battery checks).body x.dev).Along Op.exec (x.answers .power) x.Engaging
      ⟨c, false, false⟩ := by
  have hmode : c.mode = x.ctx.mode := congrArg OrchState.mode horch
  have heff := orch_power (x := x) (c := x.ctx)
  rw [hk] at heff
  refine along_read hc ?_
  by_cases hrest : c.mode = .idle ∨ c.mode = .desktopHandled
  · rw [if_pos hrest]
    have hrest' : x.ctx.mode = .idle ∨ x.ctx.mode = .desktopHandled := hmode ▸ hrest
    refine along_startMonitoringIfMode hx hc hfresh (by simpa using hrest) hrest'
      (by rw [hk]; rfl) ?_
    rw [heff, PowerKind.effect, if_pos hrest']
  · rw [if_neg hrest]
    split_ifs
    · exact along_of_avoids (avoids_checkPhaseDeadline _) hc
    · exact along_of_avoids trivial hc

theorem along_followDesktopUps {c : Ctx} {reason : String} (hx : ¬x.Clash)
    (hc : ¬x.Triggers c.orch) (horch : c.orch = x.ctx.orch) (hfresh : x.fresh c = x.fresh x.ctx)
    (hk : x.call.kind = .mains reason) :
    (Handler.followDesktopUps x.dev c.mode reason).Along Op.exec (x.answers .power) x.Engaging
      ⟨c, false, false⟩ := by
  have hmode : c.mode = x.ctx.mode := congrArg OrchState.mode horch
  have heff := orch_power (x := x) (c := x.ctx)
  rw [hk] at heff
  refine ⟨fun htr => absurd htr hc, fun out v hv => ?_⟩
  obtain ⟨rfl, rfl⟩ := Prod.ext_iff.mp (Option.some.inj hv)
  simp only [Prog.ret_bind]
  by_cases ho : (x.answers .power).2 = true
  · rw [if_pos ho]
    by_cases hidle : c.mode = .idle
    · rw [if_pos hidle]
      have hidle' : x.ctx.mode = .idle := hmode ▸ hidle
      refine along_startMonitoringIfMode hx hc hfresh (by simp [hidle]) (.inl hidle')
        (by rw [hk]; rfl) ?_
      rw [heff, PowerKind.effect, if_pos ho, if_pos hidle']
    · rw [if_neg hidle]
      split_ifs
      · exact along_of_avoids (avoids_checkPhaseDeadline _) hc
      · exact along_of_avoids trivial hc
  · rw [if_neg ho]
    split_ifs
    · exact along_of_avoids (avoids_resetToIdle _) hc
    · exact along_of_avoids trivial hc

/-- **Over a record that does not trigger the report**, the power call alone comes to no record that
does, unless both orders are met from there. -/
theorem along_program (hx : ¬x.Clash) (hc : ¬x.Triggers x.ctx.orch) :
    (x.call.program x.dev).Along Op.exec (x.answers .power) x.Engaging ⟨x.ctx, false, false⟩ := by
  obtain ⟨horch, hfresh⟩ := noted_frame (x := x)
  rw [PowerCall.program_eq]
  refine Prog.Along.bind ((along_quiet (Handler.starts_nothing (avoids_noteProgram _)) hc).mono
    fun _ _ hv htr => absurd htr hv) fun _ v hv => ?_
  obtain ⟨-, rfl⟩ := Prod.ext_iff.mp (Option.some.inj ((solo_noteProgram (x.call)
    (e := (x.answers .power).1) (b := (x.answers .power).2)).symm.trans hv))
  generalize x.call.noted (x.answers .power).1 x.ctx = c at horch hfresh
  have hc' : ¬x.Triggers c.orch := by rw [horch]; exact hc
  cases hk : x.call.kind with
  | low reason => exact along_read hc' (along_lowBatteryAction hx hc' horch hfresh hk)
  | battery checks => exact along_battery hx hc' horch hfresh hk
  | mains reason => exact along_read hc' (along_followDesktopUps hx hc' horch hfresh hk)
  | suspendDue =>
    refine along_read hc' ?_
    split_ifs
    · exact along_of_avoids (avoids_executePhaseAction _ _) hc'
    · exact along_of_avoids trivial hc'
  | timer => exact along_of_avoids (avoids_executePhaseAction _ _) hc'
  | reset reason => exact along_of_avoids (avoids_resetToIdle _) hc'
  | nothing => exact along_read hc' (along_of_avoids trivial hc')

/-! ## Without a clash -/

/-- **Over a record that triggers the report**, both orders are met from the start. -/
theorem engages_program (hx : ¬x.Clash) (ht : x.Triggers x.ctx.orch) :
    x.Engages x.ctx.orch (x.call.program x.dev) := by
  obtain ⟨ho, hm, hwhy⟩ := id ht
  -- the power call from the record that the report leaves, and from the one that it found
  have hafter := orch_power (x := x) (c := x.report x.ctx)
  have hbefore := orch_power (x := x) (c := x.ctx)
  have hfollows : ∀ n S, x.Reported x.ctx.orch n →
      x.call.kind.standsDown (x.answers .power).2 = false →
      ((n = x.ctx.orch.struck ∧ S) ∨
        (¬x.call.kind.Leaves (x.answers .power).1 (x.answers .power).2 x.ctx.orch ∧
          (x.call.kind.checks (x.answers .power).2 = true → n.due (x.answers .power).1 → S))) →
      Follows (x.engaged x.ctx.orch n S) (.power false) (x.call.program x.dev) fun _ _ => True := by
    intro n S hn hk hs
    rw [PowerCall.program_eq]
    refine Follows.bind ((follows_noteProgram x.call).mono ?_)
    rintro q _ ⟨late, rfl⟩
    exact follows_body ht hn hk hs
  rcases hwhy with hd | ⟨hs, hp⟩
  · have hn : x.Reported x.ctx.orch x.ctx.orch.struck := .inl ⟨hd, rfl⟩
    have hk : x.call.kind.standsDown (x.answers .power).2 = false := by
      by_contra hk
      exact hx (.standDown ho hd hm (by simpa using hk))
    rw [orch_report ht hn, PowerKind.effect_struck hk] at hafter
    have horder : x.InOrder x.ctx.orch.struck := .inl (by rw [hafter])
    exact ⟨_, True, hn, horder, fun _ => horder, hfollows _ _ hn hk (.inl ⟨rfl, trivial⟩)⟩
  · have hn : x.Reported x.ctx.orch (x.suspended x.ctx.orch) := .inr ⟨hs, hp, rfl⟩
    have hk : ¬x.call.kind.Leaves (x.answers .power).1 (x.answers .power).2 x.ctx.orch :=
      fun hk => hx (.leave ho hs hm hp hk)
    rw [PowerKind.effect_of_not_leaves hm hk] at hbefore
    refine ⟨_, x.call.kind.checks (x.answers .power).2 = true ∧
      (x.suspended x.ctx.orch).due (x.answers .power).1, hn, .inr ?_, fun ⟨hc, hdue⟩ => .inl ?_,
      hfollows _ _ hn ?_ (.inr ⟨hk, fun hc hdue => ⟨hc, hdue⟩⟩)⟩
    · rw [← hbefore] at ht hn
      rw [orch_report ht hn, hbefore]
    · have hm' : (x.suspended x.ctx.orch).mode = .monitoring := hm
      rw [hafter, orch_report ht hn, PowerKind.effect_of_due hm' hc hdue]
    · by_contra hsd
      exact hk (.inl (by simpa using hsd))

theorem ordered_start (hx : ¬x.Clash) : x.Ordered x.start := by
  rw [start_eq]
  refine .before _ _ ?_
  by_cases ht : x.Triggers x.ctx.orch
  · exact along_point ht (engages_program hx ht)
  · -- the report before the power call leaves the context as it is
    have hsolo := PowerCall.solo_program x.dev (x.answers .power).1 (x.answers .power).2 x.ctx x.call
    have horder : x.InOrder (x.power x.ctx).orch := .inl (by rw [report_of_not_triggers ht])
    refine ((along_program hx ht).and (Prog.along_solo hsolo)).mono fun q v hv => ⟨hv.1, fun _ w hw => ?_⟩
    obtain ⟨-, rfl⟩ := Prod.ext_iff.mp (Option.some.inj (hv.2.symm.trans hw))
    exact horder

/-- **Without a clash** the report is serialisable with the power call. -/
theorem serialisable (hx : ¬x.Clash) : x.Serialisable where
  outcome tr w hr hw := by
    refine (hr.1.invWhen (I := x.Ordered) (C := fun t => t.act.2 = x.answers t.act.1)
      (fun t ht he h => (h.step ht he).1) (ordered_start hx) hr.2).inOrder hw
  spared tr w hr := by
    exact hr.1.forall_of_inv (I := x.Ordered) (C := fun t => t.act.2 = x.answers t.act.1)
      (P := fun t => t.act.1 = .report → Mode.Spared t.pre.shared.ctx.mode t.post.shared.ctx.mode)
      (fun t ht he h => (h.step ht he).1) (fun t ht he h => (h.step ht he).2) (ordered_start hx) hr.2

end Overlap

end UpsOrchestrator

import UpsOrchestrator.Desktop

/-!
# What the agent decides

* `DesktopEvent.powers`, `DesktopEvent.returnsZero`: power commands, and those that return 0.
* `DecisionLaw`: at most one power command succeeds, none is run after a cancel or a rejection or
  before the server has been asked, what does not end in a suspend ends in `_execute_shutdown`, and
  `done` is acknowledged after a success.
* **`decisionLaw`**: in every run of the handler of a pushed message.
-/

set_option autoImplicit false

namespace UpsOrchestrator

open Lts

/-! ## Events -/

/-- A power command. -/
def ShellCmd.isPower : ShellCmd → Bool
  | fsd _ => true
  | poweroff => true
  | shutdown => true
  | suspend _ _ => true
  | _ => false

namespace DesktopOp

def powers : DesktopOp → Bool
  | run cmd => cmd.isPower
  | _ => false

def suspends : DesktopOp → Bool
  | run (.suspend _ _) => true
  | _ => false

/-- The agent talks to the server. -/
def talks : DesktopOp → Bool
  | postPreflight _ _ => true
  | postAck _ _ _ => true
  | _ => false

end DesktopOp

namespace DesktopEvent

/-- A power command is run. -/
def powers (e : DesktopEvent) : Prop := e.1.powers = true

/-- A power command returns 0. -/
def returnsZero : DesktopEvent → Bool
  | ⟨.run cmd, some (code, _)⟩ => cmd.isPower && decide (code = 0)
  | _ => false

/-- A suspend command returns 0. -/
def suspended : DesktopEvent → Bool
  | ⟨.run (.suspend _ _), some (code, _)⟩ => decide (code = 0)
  | _ => false

/-- A suspend command cannot be run. -/
def suspendRaises : DesktopEvent → Bool
  | ⟨.run (.suspend _ _), none⟩ => true
  | _ => false

/-- The server is asked, and does not reject the command. -/
def passes : DesktopEvent → Bool
  | ⟨.postPreflight _ _, x⟩ => x ≠ some false
  | _ => false

/-- It is asked about the command `name` with this id, and does not reject it. -/
def clears (id name : String) : DesktopEvent → Bool
  | ⟨.postPreflight id' name', x⟩ => id' = id ∧ name' = name ∧ x ≠ some false
  | _ => false

/-- It allows the command `name` with this id. -/
def permits (id name : String) : DesktopEvent → Bool
  | ⟨.postPreflight id' name', x⟩ => id' = id ∧ name' = name ∧ x = some true
  | _ => false

/-- The server rejects it. -/
def rejects : DesktopEvent → Bool
  | ⟨.postPreflight _ _, some false⟩ => true
  | _ => false

/-- `done` is acknowledged. -/
def acksDone : DesktopEvent → Bool
  | ⟨.postAck _ .done _, _⟩ => true
  | _ => false

end DesktopEvent

open DesktopEvent

/-- **Without talk with the server** nothing is allowed, rejected or acknowledged. -/
theorem eq_false_of_silent {e : DesktopEvent} (h : e.1.talks = false) :
    passes e = false ∧ rejects e = false ∧ acksDone e = false := by
  obtain ⟨o, x⟩ := e
  cases o <;> simp_all [DesktopOp.talks, passes, rejects, acksDone]

/-- **Without a power command** nothing succeeds, and no suspend raises. -/
theorem eq_false_of_not_powers {e : DesktopEvent} (h : ¬powers e) :
    returnsZero e = false ∧ suspendRaises e = false := by
  obtain ⟨o, x⟩ := e
  cases o with
  | run cmd => cases cmd <;> cases x <;>
      simp_all [powers, DesktopOp.powers, ShellCmd.isPower, returnsZero, suspendRaises]
  | _ => exact ⟨rfl, rfl⟩

theorem powers_of_suspends {o : DesktopOp} (h : o.suspends = true) : o.powers = true := by
  unfold DesktopOp.suspends at h
  split at h
  · rfl
  · exact absurd h (by simp)

theorem passes_of_clears {id name : String} {e : DesktopEvent} (h : clears id name e = true) :
    passes e = true := by
  obtain ⟨o, x⟩ := e
  cases o <;> simp_all [clears, passes]

theorem clears_of_permits {id name : String} {e : DesktopEvent} (h : permits id name e = true) :
    clears id name e = true := by
  obtain ⟨o, x⟩ := e
  cases o <;> simp_all [clears, permits]

theorem suspends_of_suspendRaises {e : DesktopEvent} (h : suspendRaises e = true) :
    e.1.suspends = true := by
  unfold suspendRaises at h
  split at h
  · rfl
  · exact absurd h (by simp)

/-! ## Traces -/

/-- How many power commands returned 0. -/
def wins (tr : List DesktopEvent) : ℕ := tr.countP returnsZero

@[simp] theorem wins_append (tr tr' : List DesktopEvent) : wins (tr ++ tr') = wins tr + wins tr' :=
  List.countP_append

theorem wins_pos {tr : List DesktopEvent} : 0 < wins tr ↔ ∃ e ∈ tr, returnsZero e = true :=
  List.countP_pos_iff

theorem wins_eq_zero {tr : List DesktopEvent} (h : ∀ e ∈ tr, ¬powers e) : wins tr = 0 :=
  List.countP_eq_zero.mpr fun e he => by simp [(eq_false_of_not_powers (h e he)).1]

/-- No commands that matter, and no talk with the server. -/
def Idle (tr : List DesktopEvent) : Prop := ∀ e ∈ tr, ¬powers e ∧ e.1.talks = false

/-- Every event with `p` comes after one with `q`. -/
def Preceded (p q : DesktopEvent → Bool) (tr : List DesktopEvent) : Prop :=
  ∀ tr₁ e tr₂, tr = tr₁ ++ e :: tr₂ → p e = true → ∃ e' ∈ tr₁, q e' = true

/-- `done` is acknowledged after a success. -/
abbrev AcksAfter (tr : List DesktopEvent) : Prop := Preceded acksDone returnsZero tr

/-- **The law of a run** `tr` of a handler. -/
structure Orderly (tr : List DesktopEvent) : Prop where
  /-- at most one power command succeeds -/
  once : wins tr ≤ 1
  /-- none is run when the server rejects the preflight -/
  rejected : (∃ e ∈ tr, rejects e = true) → ∀ e ∈ tr, ¬powers e
  /-- what is not rejected ends in a suspend or in `_execute_shutdown` -/
  fallsBack : (∃ e ∈ tr, passes e = true) → (∀ e ∈ tr, suspended e = false) →
    Desktop.executeShutdown.run.Within tr
  /-- and so does a suspend that cannot be run -/
  suspendRaised : (∃ e ∈ tr, suspendRaises e = true) → Desktop.executeShutdown.run.Within tr
  acksAfter : AcksAfter tr

/-- The prompt of the thread for `ups_state`. -/
def Desktop.prompted (m : Message) : Desktop Choice := do
  delay m.delaySeconds
  promptSoftSuspend

/-- **The law of a run** of the handler of the message `m`. -/
structure DecisionLaw (m : Message) (tr : List DesktopEvent) : Prop extends Orderly tr where
  /-- no power command is run when the user cancels -/
  cancelled : m.command = "ups_state" → (Desktop.prompted m).run.Begins (some .cancel) tr →
    ∀ e ∈ tr, ¬powers e
  /-- a power command comes after the server has been asked about this command and has not rejected
  it, unless the prompt has raised -/
  asked : Preceded (·.1.powers) (clears m.id m.command) tr ∨
    (m.command = "ups_state" ∧ (Desktop.prompted m).run.Begins none tr)
  /-- a suspend comes after the server has allowed this command -/
  allowed : Preceded (·.1.suspends) (permits m.id m.command) tr
  /-- the desktop is shut down if all attempts to suspend it fail -/
  suspendFailed : (∃ e ∈ tr, e.1.suspends = true) → (∀ e ∈ tr, suspended e = false) →
    Desktop.executeShutdown.run.Within tr
  /-- it is shut down anyway, unless the user cancels, the server rejects the command or a suspend
  succeeds -/
  shutsDown : (m.command = "ups_state" → ¬(Desktop.prompted m).run.Begins (some .cancel) tr) →
    (∀ e ∈ tr, rejects e = false) → (∀ e ∈ tr, suspended e = false) →
    Desktop.executeShutdown.run.Within tr

/-- The server is asked about the command before anything is done, and allows a suspend. -/
structure AsksFirst (id name : String) (tr : List DesktopEvent) : Prop where
  asked : Preceded (·.1.powers) (clears id name) tr
  allowed : Preceded (·.1.suspends) (permits id name) tr
  answered : (∃ e ∈ tr, rejects e = true) ∨ ∃ e ∈ tr, clears id name e = true

/-- What a part of a handler does, which can raise. -/
structure Decides (tr : List DesktopEvent) (r : Option Unit) : Prop where
  once : wins tr ≤ 1
  rejected : (∃ e ∈ tr, rejects e = true) → ∀ e ∈ tr, ¬powers e
  acksAfter : AcksAfter tr
  fallsBack : r ≠ none → (∃ e ∈ tr, passes e = true) → (∀ e ∈ tr, suspended e = false) →
    Desktop.executeShutdown.run.Within tr
  suspendRaised : (∃ e ∈ tr, suspendRaises e = true) → r = none
  raised : r = none → wins tr = 0 ∧ ∀ e ∈ tr, rejects e = false

/-- What a fail-safe shutdown does. -/
structure FailSafe (tr : List DesktopEvent) : Prop where
  once : wins tr ≤ 1
  silent : ∀ e ∈ tr, e.1.talks = false
  suspends : ∀ e ∈ tr, e.1.suspends = false
  within : Desktop.executeShutdown.run.Within tr

section

variable {tr tr' : List DesktopEvent}

theorem exists_mem_right {p : DesktopEvent → Bool} (h : ∀ e ∈ tr, p e = false)
    (hs : ∃ e ∈ tr ++ tr', p e = true) : ∃ e ∈ tr', p e = true := by
  obtain ⟨e, he, hp⟩ := hs
  refine ⟨e, (List.mem_append.mp he).resolve_left fun he => ?_, hp⟩
  exact absurd hp (by simp [h e he])

section

variable {p q : DesktopEvent → Bool}

theorem preceded_of_none (h : ∀ e ∈ tr, p e = false) : Preceded p q tr := by
  intro tr₁ e tr₂ htr he
  exact absurd he (by simp [h e (by simp [htr])])

/-- **Two parts**: what the second one has to come after is in the first, or in the second itself. -/
theorem Preceded.append (h : Preceded p q tr) (h' : (∃ e ∈ tr, q e = true) ∨ Preceded p q tr') :
    Preceded p q (tr ++ tr') := by
  intro tr₁ e tr₂ htr he
  rcases List.append_eq_append_iff.mp htr with ⟨as, rfl, htr'⟩ | ⟨bs, rfl, htr'⟩
  · rcases h' with ⟨e', he', hs⟩ | h'
    · exact ⟨e', List.mem_append_left _ he', hs⟩
    · obtain ⟨e', he', hs⟩ := h' as e tr₂ htr' he
      exact ⟨e', List.mem_append_right _ he', hs⟩
  · cases bs with
    | nil =>
      have htr' : tr' = e :: tr₂ := by simpa using htr'.symm
      rcases h' with ⟨e', he', hs⟩ | h'
      · exact ⟨e', by simpa using he', hs⟩
      · obtain ⟨e', he', -⟩ := h' [] e tr₂ htr' he
        exact absurd he' List.not_mem_nil
    | cons b bs =>
      obtain ⟨rfl, rfl⟩ := List.cons.inj htr'
      exact h tr₁ e bs rfl he

end

theorem acksAfter_of_none (h : ∀ e ∈ tr, acksDone e = false) : AcksAfter tr := preceded_of_none h

theorem acksAfter_of_silent (h : ∀ e ∈ tr, e.1.talks = false) : AcksAfter tr :=
  acksAfter_of_none fun e he => (eq_false_of_silent (h e he)).2.2

theorem AcksAfter.append (h : AcksAfter tr)
    (h' : (∃ e ∈ tr', acksDone e = true) → 0 < wins tr ∨ AcksAfter tr') :
    AcksAfter (tr ++ tr') := by
  by_cases hack : ∃ e ∈ tr', acksDone e = true
  · exact Preceded.append h ((h' hack).imp_left wins_pos.mp)
  · refine Preceded.append h (.inr (acksAfter_of_none fun e he => ?_))
    by_contra hs
    exact hack ⟨e, he, by simpa using hs⟩

end

section

variable {tr tr' : List DesktopEvent} {r : Option Unit}

/-- **A part that follows** something without a success, a rejection or an acknowledgement. -/
theorem Decides.after (h : Decides tr' r) (hwins : wins tr = 0)
    (hrej : ∀ e ∈ tr, rejects e = false)
    (hpower : (∃ e ∈ tr', rejects e = true) → ∀ e ∈ tr, ¬powers e)
    (hpass : (∃ e ∈ tr, passes e = true) → Desktop.executeShutdown.run.Within tr')
    (hraise : ∀ e ∈ tr, suspendRaises e = false) (hack : ∀ e ∈ tr, acksDone e = false) :
    Decides (tr ++ tr') r := by
  refine ⟨?_, fun hs => ?_, (acksAfter_of_none hack).append fun _ => .inr h.acksAfter,
    fun hr hs hnone => ?_, fun hs => h.suspendRaised (exists_mem_right hraise hs),
    fun hr => ⟨?_, ?_⟩⟩
  · rw [wins_append, hwins, Nat.zero_add]
    exact h.once
  · have hs' := exists_mem_right hrej hs
    exact List.forall_mem_append.mpr ⟨hpower hs', h.rejected hs'⟩
  · obtain ⟨e, he, hs⟩ := hs
    rcases List.mem_append.mp he with he | he
    · exact (hpass ⟨e, he, hs⟩).append_left
    · exact (h.fallsBack hr ⟨e, he, hs⟩ (List.forall_mem_append.mp hnone).2).append_left
  · rw [wins_append, hwins, (h.raised hr).1]
  · exact List.forall_mem_append.mpr ⟨hrej, (h.raised hr).2⟩

theorem Decides.after_idle (h : Decides tr' r) (htr : Idle tr) : Decides (tr ++ tr') r := by
  have hsilent := fun e he => eq_false_of_silent (htr e he).2
  refine h.after (wins_eq_zero fun e he => (htr e he).1) (fun e he => (hsilent e he).2.1)
    (fun _ e he => (htr e he).1) (fun ⟨e, he, hs⟩ => ?_)
    (fun e he => (eq_false_of_not_powers (htr e he).1).2) fun e he => (hsilent e he).2.2
  exact absurd hs (by simp [(hsilent e he).1])

theorem Decides.of_not_powers (hpower : ∀ e ∈ tr, ¬powers e)
    (hack : ∀ e ∈ tr, acksDone e = false) (hpass : ∀ e ∈ tr, passes e = false)
    (hrej : r = none → ∀ e ∈ tr, rejects e = false) : Decides tr r := by
  have hwins := wins_eq_zero hpower
  refine ⟨by omega, fun _ => hpower, acksAfter_of_none hack, fun _ ⟨e, he, hs⟩ => ?_,
    fun ⟨e, he, hs⟩ => ?_, fun hr => ⟨hwins, hrej hr⟩⟩
  · exact absurd hs (by simp [hpass e he])
  · exact absurd hs (by simp [(eq_false_of_not_powers (hpower e he)).2])

theorem Decides.of_idle (h : Idle tr) (r : Option Unit) : Decides tr r := by
  have hsilent := fun e he => eq_false_of_silent (h e he).2
  exact .of_not_powers (fun e he => (h e he).1) (fun e he => (hsilent e he).2.2)
    (fun e he => (hsilent e he).1) fun _ e he => (hsilent e he).2.1

theorem Orderly.after_idle (h : Orderly tr') (htr : Idle tr) : Orderly (tr ++ tr') := by
  have hpower : ∀ e ∈ tr, ¬powers e := fun e he => (htr e he).1
  have hsilent := fun e he => eq_false_of_silent (htr e he).2
  have hafter : AcksAfter tr := acksAfter_of_none fun e he => (hsilent e he).2.2
  refine ⟨?_, fun hs => ?_, fun hs hnone => ?_, fun hs => ?_,
    hafter.append fun _ => .inr h.acksAfter⟩
  · rw [wins_append, wins_eq_zero hpower, Nat.zero_add]
    exact h.once
  · have hs' := exists_mem_right (fun e he => (hsilent e he).2.1) hs
    exact List.forall_mem_append.mpr ⟨hpower, h.rejected hs'⟩
  · have hs' := exists_mem_right (fun e he => (hsilent e he).1) hs
    exact (h.fallsBack hs' (List.forall_mem_append.mp hnone).2).append_left
  · have hs' := exists_mem_right (fun e he => (eq_false_of_not_powers (hpower e he)).2) hs
    exact (h.suspendRaised hs').append_left

/-- **A failed suspend** has passed. -/
theorem Orderly.within_of_suspends {id name : String} (h : Orderly tr)
    (hallowed : Preceded (·.1.suspends) (permits id name) tr)
    (hs : ∃ e ∈ tr, e.1.suspends = true) (hnone : ∀ e ∈ tr, suspended e = false) :
    Desktop.executeShutdown.run.Within tr := by
  obtain ⟨e, he, hs⟩ := hs
  obtain ⟨tr₁, tr₂, rfl⟩ := List.append_of_mem he
  obtain ⟨e', he', hp⟩ := hallowed tr₁ e tr₂ rfl hs
  exact h.fallsBack ⟨e', List.mem_append_left _ he', passes_of_clears (clears_of_permits hp)⟩ hnone

theorem preceded_of_not_powers (q q' : DesktopEvent → Bool) (h : ∀ e ∈ tr, ¬powers e) :
    Preceded (·.1.powers) q tr ∧ Preceded (·.1.suspends) q' tr := by
  have hpower : ∀ e ∈ tr, e.1.powers = false := fun e he => by simpa [powers] using h e he
  refine ⟨preceded_of_none hpower, preceded_of_none fun e he => ?_⟩
  by_contra hs
  exact absurd (powers_of_suspends (by simpa using hs)) (by simp [hpower e he])

/-- **A preflight comes first.** -/
theorem asksFirst_preflight {id name : String} {x : Option Bool}
    (hpower : x = some false → ∀ e ∈ tr, ¬powers e)
    (hsuspend : x ≠ some true → ∀ e ∈ tr, e.1.suspends = false) :
    AsksFirst id name ([⟨.postPreflight id name, x⟩] ++ tr) := by
  have hfirst : ∀ e ∈ [(⟨.postPreflight id name, x⟩ : DesktopEvent)], ¬powers e := by
    simp [powers, DesktopOp.powers]
  obtain ⟨hasked, hallowed⟩ := preceded_of_not_powers (clears id name) (permits id name) hfirst
  refine ⟨hasked.append ?_, hallowed.append ?_, ?_⟩
  · by_cases hx : x = some false
    · exact .inr (preceded_of_not_powers _ (permits id name) (hpower hx)).1
    · exact .inl ⟨_, List.mem_singleton_self _, by simp [clears, hx]⟩
  · by_cases hx : x = some true
    · exact .inl ⟨_, List.mem_singleton_self _, by simp [permits, hx]⟩
    · exact .inr (preceded_of_none (hsuspend hx))
  · by_cases hx : x = some false
    · exact .inl ⟨⟨.postPreflight id name, x⟩, by simp, by rw [hx]; rfl⟩
    · exact .inr ⟨⟨.postPreflight id name, x⟩, by simp, by simp [clears, hx]⟩

/-- **A shutdown after something was raised** brings the run to its end. -/
theorem Decides.caught (h : Decides tr none) (h' : FailSafe tr') : Orderly (tr ++ tr') := by
  obtain ⟨hwins, hrej⟩ := h.raised rfl
  have hrej' : ∀ e ∈ tr ++ tr', rejects e = false :=
    List.forall_mem_append.mpr ⟨hrej, fun e he => (eq_false_of_silent (h'.silent e he)).2.1⟩
  refine ⟨?_, fun ⟨e, he, hs⟩ => absurd hs (by simp [hrej' e he]),
    fun _ _ => h'.within.append_left, fun _ => h'.within.append_left,
    h.acksAfter.append fun _ => .inr (acksAfter_of_silent h'.silent)⟩
  rw [wins_append, hwins, Nat.zero_add]
  exact h'.once

theorem Decides.orderly (h : Decides tr r) (hr : r ≠ none) : Orderly tr :=
  ⟨h.once, h.rejected, h.fallsBack hr, fun hs => absurd (h.suspendRaised hs) hr, h.acksAfter⟩

end

/-! ## Commands -/

namespace Desktop

open Prog Raising

/-- The command returned 0. -/
def won (r : Option (Int × String)) : Bool := r.any fun p => decide (p.1 = 0)

theorem ensures_runCmd (cmd : ShellCmd) : (runCmd cmd).run.Ensures fun tr r =>
    ∃ x : Option (Int × String), tr = [⟨.run cmd, x⟩] ∧ r = x.map fun p => (p.1, strip p.2) := by
  intro tr r h
  obtain ⟨tr₁, x, tr₂, rfl, h₁, h₂⟩ := runs_seq.mp h
  obtain rfl : tr₁ = [⟨.run cmd, x⟩] := runs_perform.mp h₁
  cases x with
  | none =>
    obtain ⟨rfl, rfl⟩ := h₂
    exact ⟨none, rfl, rfl⟩
  | some p =>
    obtain ⟨rfl, rfl⟩ := h₂
    exact ⟨some p, rfl, rfl⟩

theorem runs_ack {id : String} {status : Ctx.AckStatus} {result : List (String × String)}
    {tr : List DesktopEvent} {r : Option Unit} (h : (ack id status result).run.Runs tr r) :
    tr = [⟨.postAck id status result, ()⟩] ∧ r = some () := by
  obtain ⟨⟨⟩, rfl, hp⟩ := runs_lift.mp h
  exact ⟨runs_perform.mp hp, rfl⟩

theorem wins_runCmd {cmd : ShellCmd} (hc : cmd.isPower = true) :
    (runCmd cmd).run.Ensures fun tr r => wins tr = (won r).toNat := by
  refine (ensures_runCmd cmd).mono fun tr r => ?_
  rintro ⟨x, rfl, rfl⟩
  rcases x with _ | ⟨code, out⟩
  · rfl
  · by_cases h : code = 0 <;> simp [wins, won, returnsZero, hc, h]

theorem wins_idleCmd {cmd : ShellCmd} (hc : cmd.isPower = false) :
    (runCmd cmd).run.Ensures fun tr _ => wins tr = 0 := by
  refine (ensures_runCmd cmd).mono fun tr r => ?_
  rintro ⟨x, rfl, rfl⟩
  rcases x with _ | ⟨code, out⟩
  · rfl
  · simp [wins, returnsZero, hc]

/-- **A shutdown succeeds once**, with the method that it returns. -/
theorem wins_executeShutdown : executeShutdown.run.Ensures fun tr r => wins tr = (won r).toNat := by
  refine ensures_seq (wins_idleCmd rfl) (fun tr h => h) ?_
  rintro tr ⟨-, pidOut⟩ hpid
  refine ensures_seq (wins_runCmd rfl) (fun tr' h => by simp [hpid, h]) ?_
  rintro tr₁ ⟨code, out⟩ hfsd
  show Prog.Ensures (OptionT.run (if code = 0 then _ else _)) _
  split_ifs with hcode
  · refine ensures_ret ?_
    simp [hpid, hfsd]
  refine ensures_seq (wins_runCmd rfl) ?_ ?_
  · intro tr₂ h
    simp [hpid, hfsd, h, won, hcode]
  rintro tr₂ ⟨code', out'⟩ hoff
  show Prog.Ensures (OptionT.run (if code' = 0 then _ else _)) _
  split_ifs with hcode'
  · refine ensures_ret ?_
    simp [hpid, hfsd, hoff, won, hcode]
  · refine (wins_runCmd rfl).mono fun tr₃ r h => ?_
    simp [hpid, hfsd, hoff, h, won, hcode, hcode']

/-! ## What is not run -/

section

variable {stop : DesktopOp → Bool}

theorem avoids_runCmd {cmd : ShellCmd} (h : stop (.run cmd) = false) :
    (runCmd cmd).run.Avoids stop := by
  refine avoids_seq ?_ fun _ => trivial
  exact avoids_perform.mpr h

theorem avoids_ack {id : String} {status : Ctx.AckStatus} {result : List (String × String)}
    (h : stop (.postAck id status result) = false) : (ack id status result).run.Avoids stop :=
  ⟨h, fun _ => trivial⟩

theorem avoids_sleep {seconds : Int} (h : stop (.sleep seconds) = false) :
    (sleep seconds).run.Avoids stop := by
  unfold sleep
  split_ifs
  · trivial
  · exact ⟨h, fun _ => trivial⟩

theorem avoids_delay {seconds : Int} (h : stop (.sleep seconds) = false) :
    (delay seconds).run.Avoids stop := by
  unfold delay
  split_ifs
  · exact avoids_sleep h
  · trivial

/-- **Dialogs** run no power command. -/
theorem avoids_notify (hwhich : ∀ tool, stop (.which tool) = false)
    (hrun : ∀ cmd : ShellCmd, cmd.isPower = false → stop (.run cmd) = false) :
    notify.run.Avoids stop := by
  refine avoids_seq ⟨hwhich _, fun _ => trivial⟩ fun found => ?_
  cases found with
  | false => trivial
  | true => exact avoids_seq (avoids_runCmd (hrun _ rfl)) fun _ => trivial

theorem avoids_promptSoftSuspend (hwhich : ∀ tool, stop (.which tool) = false)
    (hrun : ∀ cmd : ShellCmd, cmd.isPower = false → stop (.run cmd) = false) :
    promptSoftSuspend.run.Avoids stop := by
  refine avoids_seq ⟨hwhich _, fun _ => trivial⟩ fun zenity => ?_
  cases zenity with
  | true =>
    refine avoids_seq (avoids_runCmd (hrun _ rfl)) fun ⟨code, out⟩ => ?_
    show Prog.Avoids _ (OptionT.run (if code = 0 then _ else _))
    split_ifs <;> trivial
  | false =>
    refine avoids_seq ⟨hwhich _, fun _ => trivial⟩ fun kdialog => ?_
    cases kdialog with
    | true =>
      refine avoids_seq (avoids_runCmd (hrun _ rfl)) fun ⟨code, out⟩ => ?_
      show Prog.Avoids _ (OptionT.run (if code = 0 then _ else _))
      split_ifs <;> trivial
    | false => exact avoids_seq (avoids_notify hwhich hrun) fun _ => trivial

theorem avoids_showCriticalWarning (hwhich : ∀ tool, stop (.which tool) = false)
    (hrun : ∀ cmd : ShellCmd, cmd.isPower = false → stop (.run cmd) = false) :
    showCriticalWarning.run.Avoids stop := by
  refine avoids_seq ⟨hwhich _, fun _ => trivial⟩ fun zenity => ?_
  cases zenity with
  | true => exact avoids_seq (avoids_runCmd (hrun _ rfl)) fun _ => trivial
  | false =>
    refine avoids_seq ⟨hwhich _, fun _ => trivial⟩ fun kdialog => ?_
    cases kdialog with
    | true => exact avoids_seq (avoids_runCmd (hrun _ rfl)) fun _ => trivial
    | false => exact avoids_notify hwhich hrun

theorem avoids_executeShutdown
    (hrun : ∀ cmd, DesktopOp.suspends (.run cmd) = false → stop (.run cmd) = false) :
    executeShutdown.run.Avoids stop := by
  refine avoids_seq (avoids_runCmd (hrun _ rfl)) fun ⟨_, pidOut⟩ => ?_
  refine avoids_seq (avoids_runCmd (hrun _ rfl)) fun ⟨code, out⟩ => ?_
  show Prog.Avoids _ (OptionT.run (if code = 0 then _ else _))
  split_ifs
  · trivial
  refine avoids_seq (avoids_runCmd (hrun _ rfl)) fun ⟨code', out'⟩ => ?_
  show Prog.Avoids _ (OptionT.run (if code' = 0 then _ else _))
  split_ifs
  · trivial
  · exact avoids_runCmd (hrun _ rfl)

theorem avoids_suspendOnce (hrun : ∀ cmd, stop (.run cmd) = false) (force : Bool) :
    (suspendOnce force).run.Avoids stop := by
  refine avoids_seq (avoids_runCmd (hrun _)) fun ⟨code, out⟩ => ?_
  show Prog.Avoids _ (OptionT.run (if _ then _ else _))
  split_ifs
  · exact avoids_runCmd (hrun _)
  · trivial

theorem avoids_attempts {cfg : SuspendConfig} (hrun : ∀ cmd, stop (.run cmd) = false)
    (hsleep : ∀ seconds, stop (.sleep seconds) = false) (n : ℕ) :
    (attempts cfg n).run.Avoids stop := by
  induction n with
  | zero => trivial
  | succ n ih =>
    refine avoids_seq (avoids_suspendOnce hrun _) fun ⟨code, out⟩ => ?_
    show Prog.Avoids _ (OptionT.run (if code = 0 then _ else if 0 < n then _ else _))
    split_ifs
    · trivial
    · exact avoids_seq (avoids_sleep (hsleep _)) fun _ => ih
    · exact ih

end

/-! ## Suspending -/

/-- A suspend command: a success shows in the trace, and what cannot be run raises. -/
structure Suspends (tr : List DesktopEvent) (ok raised : Prop) [Decidable ok] : Prop where
  wins : wins tr = if ok then 1 else 0
  shows : ok → ∃ e ∈ tr, suspended e = true
  raises : (∃ e ∈ tr, suspendRaises e = true) → raised

theorem Suspends.of_idle {tr : List DesktopEvent} {ok raised : Prop} [Decidable ok]
    (h : ∀ e ∈ tr, e.1.powers = false) (hok : ¬ok) : Suspends tr ok raised := by
  refine ⟨?_, fun h' => absurd h' hok, ?_⟩
  · rw [if_neg hok]
    exact wins_eq_zero fun e he => by simp [powers, h e he]
  · rintro ⟨e, he, hs⟩
    have hno : ¬e.powers := by simp [powers, h e he]
    exact absurd hs (by simp [(eq_false_of_not_powers hno).2])

theorem suspends_runCmd (force viaSudo : Bool) :
    (runCmd (.suspend force viaSudo)).run.Ensures fun tr r =>
      Suspends tr (won r = true) (r = none) := by
  refine (ensures_runCmd _).mono fun tr r => ?_
  rintro ⟨x, rfl, rfl⟩
  rcases x with _ | ⟨code, out⟩
  · exact ⟨rfl, fun h => absurd h (by simp [won]), fun _ => rfl⟩
  · refine ⟨?_, ?_, ?_⟩
    · by_cases h : code = 0 <;> simp [UpsOrchestrator.wins, won, returnsZero, ShellCmd.isPower, h]
    · intro h
      exact ⟨_, List.mem_singleton_self _, by simpa [won, suspended] using h⟩
    · simp [suspendRaises]

theorem Suspends.append {tr tr' : List DesktopEvent} {ok ok' raised raised' : Prop} [Decidable ok]
    [Decidable ok'] (h : Suspends tr ok raised) (h' : Suspends tr' ok' raised') (hok : ¬ok)
    (hraised : ¬raised) : Suspends (tr ++ tr') ok' raised' := by
  refine ⟨?_, fun hok' => ?_, ?_⟩
  · rw [wins_append, h.wins, h'.wins, if_neg hok, Nat.zero_add]
  · obtain ⟨e, he, hs⟩ := h'.shows hok'
    exact ⟨e, List.mem_append_right _ he, hs⟩
  · rintro ⟨e, he, hs⟩
    rcases List.mem_append.mp he with he | he
    · exact absurd (h.raises ⟨e, he, hs⟩) hraised
    · exact h'.raises ⟨e, he, hs⟩

theorem suspends_suspendOnce (force : Bool) : (suspendOnce force).run.Ensures fun tr r =>
    Suspends tr (won r = true) (r = none) := by
  refine ensures_seq (suspends_runCmd force false) (fun tr h => h) ?_
  rintro tr ⟨code, out⟩ h
  show Prog.Ensures (OptionT.run (if _ then _ else _)) _
  split_ifs with hc
  · exact (suspends_runCmd force true).mono fun tr' r h' =>
      h.append h' (by simp [won, hc.1]) (by simp)
  · refine ensures_ret ?_
    rw [List.append_nil]
    exact h

/-- **The attempts** succeed at most once, and fail if none does. -/
theorem suspends_attempts {cfg : SuspendConfig} (n : ℕ) : (attempts cfg n).run.Ensures fun tr r =>
    Suspends tr (r = some true) (r = none) := by
  induction n with
  | zero => exact ensures_ret ⟨rfl, fun h => absurd h (by simp), by simp⟩
  | succ n ih =>
    refine ensures_seq (suspends_suspendOnce _) (fun tr h => ⟨?_, fun h => ?_, fun _ => rfl⟩) ?_
    · simpa [won] using h.wins
    · exact absurd h (by simp)
    rintro tr ⟨code, out⟩ h
    show Prog.Ensures (OptionT.run (if code = 0 then _ else if 0 < n then _ else _)) _
    split_ifs with hcode hn
    · refine ensures_ret ?_
      rw [List.append_nil]
      exact ⟨by simpa [won, hcode] using h.wins, fun _ => h.shows (by simp [won, hcode]),
        fun hr => absurd (h.raises hr) (by simp)⟩
    · have hwait : (sleep cfg.suspendRetryDelay).run.Ensures fun tr' _ =>
          ∀ e ∈ tr', e.1.powers = false := (avoids_sleep rfl).ensures
      refine ensures_seq hwait (fun tr' h' => ?_) fun tr' _ h' => ?_
      · exact h.append (Suspends.of_idle h' (by simp)) (by simp [won, hcode]) (by simp)
      · have hfailed : Suspends (tr ++ tr') False False :=
          h.append (Suspends.of_idle h' id) (by simp [won, hcode]) (by simp)
        refine ih.mono fun tr'' r h'' => ?_
        rw [← List.append_assoc]
        exact hfailed.append h'' id id
    · exact ih.mono fun tr' r h' => h.append h' (by simp [won, hcode]) (by simp)

/-! ## Shutting down -/

/-- The trace of a preflight. -/
structure Preflighted (tr : List DesktopEvent) (status : PreflightStatus) : Prop where
  powers : ∀ e ∈ tr, ¬powers e
  acksDone : ∀ e ∈ tr, acksDone e = false
  rejects : (∃ e ∈ tr, rejects e = true) → status = .rejected
  passes : (∃ e ∈ tr, passes e = true) → status ≠ .rejected

theorem Preflighted.not_rejects {tr : List DesktopEvent} {status : PreflightStatus}
    (h : Preflighted tr status) (hs : status ≠ .rejected) :
    ∀ e ∈ tr, DesktopEvent.rejects e = false := by
  intro e he
  by_contra hrej
  exact hs (h.rejects ⟨e, he, by simpa using hrej⟩)

theorem Preflighted.not_passes {tr : List DesktopEvent} (h : Preflighted tr .rejected) :
    ∀ e ∈ tr, DesktopEvent.passes e = false := by
  intro e he
  by_contra hpass
  exact h.passes ⟨e, he, by simpa using hpass⟩ rfl

/-- The status that `preflight` reads off an answer. -/
def statusOf : Option Bool → PreflightStatus
  | none => .error
  | some true => .allowed
  | some false => .rejected

theorem preflighted_answer {id name : String} {x : Option Bool} :
    Preflighted [⟨.postPreflight id name, x⟩] (statusOf x) := by
  constructor
  · simp [DesktopEvent.powers, DesktopOp.powers]
  · simp [DesktopEvent.acksDone]
  · rcases x with _ | _ | _ <;> simp [statusOf, DesktopEvent.rejects]
  · rcases x with _ | _ | _ <;> simp [statusOf, DesktopEvent.passes]

theorem runs_preflight {id name : String} {tr : List DesktopEvent} {r : Option PreflightStatus}
    (h : (preflight id name).run.Runs tr r) :
    ∃ x, tr = [⟨.postPreflight id name, x⟩] ∧ r = some (statusOf x) := by
  obtain ⟨tr₁, x, tr₂, rfl, h₁, h₂⟩ := runs_seq.mp h
  obtain ⟨x, rfl, hx⟩ := runs_lift.mp h₁
  obtain rfl := runs_perform.mp hx
  rcases x with _ | _ | _
  all_goals
    obtain ⟨rfl, rfl⟩ := h₂
    exact ⟨_, rfl, rfl⟩

theorem preflighted_preflight (id name : String) : (preflight id name).run.Ensures fun tr r =>
    ∃ status, r = some status ∧ Preflighted tr status := by
  intro tr r h
  obtain ⟨x, rfl, rfl⟩ := runs_preflight h
  exact ⟨_, rfl, preflighted_answer⟩

theorem preflighted_shutdownPreflight (id name : String) (failSafe : Bool) :
    (shutdownPreflight id failSafe name).run.Ensures fun tr r =>
      ∃ status, r = some status ∧ Preflighted tr status := by
  unfold shutdownPreflight
  split_ifs
  · exact ensures_ret ⟨_, rfl, by constructor <;> simp⟩
  · exact preflighted_preflight id name

section

variable {tr tr' tr₁ tr₂ tr₃ : List DesktopEvent} {r : Option Unit}

theorem decides_rejected {id : String} {result : List (String × String)}
    (h : Preflighted tr .rejected) :
    Decides (tr ++ [⟨.postAck id .failed result, ()⟩]) (some ()) := by
  refine .of_not_powers ?_ ?_ ?_ (by simp)
  · exact List.forall_mem_append.mpr ⟨h.powers, by simp [powers, DesktopOp.powers]⟩
  · exact List.forall_mem_append.mpr ⟨h.acksDone, by simp [acksDone]⟩
  · exact List.forall_mem_append.mpr ⟨h.not_passes, by simp [passes]⟩

/-- **A shutdown**, between a preflight and an acknowledgement. -/
theorem decides_shutdown {status : PreflightStatus} {c : Option (Int × String)}
    (h₁ : Preflighted tr₁ status) (hstatus : status ≠ .rejected)
    (h₂ : executeShutdown.run.Runs tr₂ c) (hpower : ∀ e ∈ tr₃, ¬powers e)
    (hrej : ∀ e ∈ tr₃, rejects e = false) (hack : (∃ e ∈ tr₃, acksDone e = true) → won c = true)
    (hraise : r = none → c = none) : Decides (tr₁ ++ (tr₂ ++ tr₃)) r := by
  have hwins₂ : wins tr₂ = (won c).toNat := wins_executeShutdown _ _ h₂
  have hsilent : ∀ e ∈ tr₂, e.1.talks = false :=
    (avoids_executeShutdown fun _ _ => rfl).runs h₂
  have hsuspend : ∀ e ∈ tr₂, e.1.suspends = false := (avoids_executeShutdown fun _ h => h).runs h₂
  have hwins : wins (tr₁ ++ (tr₂ ++ tr₃)) = (won c).toNat := by
    simp [wins_eq_zero h₁.powers, wins_eq_zero hpower, hwins₂]
  have hnorej : ∀ e ∈ tr₁ ++ (tr₂ ++ tr₃), rejects e = false := by
    refine List.forall_mem_append.mpr ⟨h₁.not_rejects hstatus, ?_⟩
    refine List.forall_mem_append.mpr ⟨fun e he => ?_, hrej⟩
    exact (eq_false_of_silent (hsilent e he)).2.1
  have hnoraise : ∀ e ∈ tr₁ ++ (tr₂ ++ tr₃), suspendRaises e = false := by
    refine List.forall_mem_append.mpr ⟨fun e he => (eq_false_of_not_powers (h₁.powers e he)).2,
      List.forall_mem_append.mpr ⟨fun e he => ?_, fun e he => ?_⟩⟩
    · by_contra hs
      exact absurd (suspends_of_suspendRaises (by simpa using hs)) (by simp [hsuspend e he])
    · exact (eq_false_of_not_powers (hpower e he)).2
  refine ⟨?_, fun ⟨e, he, h⟩ => absurd h (by simp [hnorej e he]), ?_, fun _ _ _ => ?_,
    fun ⟨e, he, h⟩ => absurd h (by simp [hnoraise e he]), fun hr => ?_⟩
  · rw [hwins]
    exact Bool.toNat_le _
  · rw [← List.append_assoc]
    refine ((acksAfter_of_none h₁.acksDone).append fun _ =>
      .inr (acksAfter_of_silent hsilent)).append fun h => .inl ?_
    rw [wins_append, hwins₂, hack h]
    exact Nat.lt_add_left _ Nat.zero_lt_one
  · exact (Prog.Within.of_runs h₂).append_right.append_left
  · rw [hwins, hraise hr]
    exact ⟨rfl, hnorej⟩

end

/-- **`do_shutdown`**. -/
theorem decides_doShutdown (id : String) (failSafe : Bool) (name : String) :
    (doShutdown id failSafe name).run.Ensures Decides := by
  refine ensures_seq (preflighted_shutdownPreflight id name failSafe) ?_ ?_
  · rintro tr ⟨status, h, -⟩
    exact absurd h (by simp)
  rintro tr₁ status ⟨_, hs, h₁⟩
  obtain rfl := Option.some.inj hs
  show Prog.Ensures (OptionT.run (if status = .rejected then _ else _)) _
  by_cases hstatus : status = .rejected
  · rw [if_pos hstatus]
    intro tr r h
    obtain ⟨rfl, rfl⟩ := runs_ack h
    subst hstatus
    exact decides_rejected h₁
  rw [if_neg hstatus]
  intro tr r h
  obtain ⟨tr₂, c, tr₃, rfl, h₂, h₃⟩ := runs_seq.mp h
  rcases c with _ | ⟨code, out⟩
  · obtain ⟨rfl, rfl⟩ := h₃
    exact decides_shutdown h₁ hstatus h₂ (by simp) (by simp) (by simp) fun _ => rfl
  change Prog.Runs (OptionT.run (if failSafe = true then _ else if code = 0 then _ else _)) _ _ at h₃
  split_ifs at h₃ with hsafe hcode
  · obtain ⟨rfl, rfl⟩ := h₃
    exact decides_shutdown h₁ hstatus h₂ (by simp) (by simp) (by simp) (by simp)
  · obtain ⟨rfl, rfl⟩ := runs_ack h₃
    refine decides_shutdown h₁ hstatus h₂ ?_ ?_ ?_ (by simp)
    · simp [powers, DesktopOp.powers]
    · simp [rejects]
    · simp [won, hcode]
  · obtain ⟨rfl, rfl⟩ := runs_ack h₃
    refine decides_shutdown h₁ hstatus h₂ ?_ ?_ ?_ (by simp)
    · simp [powers, DesktopOp.powers]
    · simp [rejects]
    · simp [acksDone]

theorem failSafe_doShutdown (id name : String) :
    (doShutdown id true name).run.Ensures fun tr _ => FailSafe tr := by
  intro tr r h
  obtain ⟨tr₁, status, tr₂, rfl, ⟨rfl, rfl⟩, h⟩ := runs_seq.mp h
  obtain ⟨tr₂, c, tr₃, rfl, h₂, h₃⟩ := runs_seq.mp h
  have hnil : tr₃ = [] := by
    rcases c with _ | ⟨code, out⟩
    · exact h₃.1
    · exact h₃.1
  rw [hnil, List.append_nil, List.nil_append]
  refine ⟨?_, (avoids_executeShutdown fun _ _ => rfl).runs h₂,
    (avoids_executeShutdown fun _ h => h).runs h₂, Prog.Within.of_runs h₂⟩
  rw [wins_executeShutdown _ _ h₂]
  exact Bool.toNat_le _

/-! ## Handlers -/

section

variable {cfg : SuspendConfig}

theorem silent_attempts {n : ℕ} {tr : List DesktopEvent} {ok : Option Bool}
    (h : (attempts cfg n).run.Runs tr ok) : ∀ e ∈ tr, e.1.talks = false :=
  (avoids_attempts (fun _ => rfl) (fun _ => rfl) n).runs h

/-- **`do_suspend`**. -/
theorem decides_doSuspend (id : String) : (doSuspend cfg id).run.Ensures Decides := by
  intro tr r h
  obtain ⟨tr₁, _, tr₂, rfl, h₁, h⟩ := runs_seq.mp h
  obtain ⟨status, rfl, hpre⟩ := preflighted_preflight _ _ _ _ h₁
  have hwins₁ : wins tr₁ = 0 := wins_eq_zero hpre.powers
  have hraise₁ : ∀ e ∈ tr₁, suspendRaises e = false :=
    fun e he => (eq_false_of_not_powers (hpre.powers e he)).2
  cases status with
  | rejected =>
    obtain ⟨rfl, rfl⟩ := runs_ack h
    exact decides_rejected hpre
  | error =>
    exact (decides_doShutdown _ _ _ _ _ h).after hwins₁ (hpre.not_rejects (by simp))
      (fun _ => hpre.powers) (fun _ => (failSafe_doShutdown _ _ _ _ h).within) hraise₁ hpre.acksDone
  | allowed =>
    obtain ⟨tr₂, ok, tr₃, rfl, h₂, h₃⟩ := runs_seq.mp h
    have hsus := suspends_attempts _ _ _ h₂
    have hsilent := fun e he => eq_false_of_silent (silent_attempts h₂ e he)
    have hrej : ∀ e ∈ tr₁ ++ tr₂, rejects e = false :=
      List.forall_mem_append.mpr ⟨hpre.not_rejects (by simp), fun e he => (hsilent e he).2.1⟩
    have hack : ∀ e ∈ tr₁ ++ tr₂, acksDone e = false :=
      List.forall_mem_append.mpr ⟨hpre.acksDone, fun e he => (hsilent e he).2.2⟩
    have hraise : ok ≠ none → ∀ e ∈ tr₁ ++ tr₂, suspendRaises e = false := by
      refine fun hok => List.forall_mem_append.mpr ⟨hraise₁, fun e he => ?_⟩
      by_contra hs
      exact hok (hsus.raises ⟨e, he, by simpa using hs⟩)
    have hwins : wins (tr₁ ++ tr₂) = if ok = some true then 1 else 0 := by
      rw [wins_append, hwins₁, hsus.wins, Nat.zero_add]
    rw [← List.append_assoc]
    rcases ok with _ | _ | _
    · obtain ⟨rfl, rfl⟩ := h₃
      rw [List.append_nil]
      exact ⟨by simp [hwins], fun ⟨e, he, hs⟩ => absurd hs (by simp [hrej e he]),
        acksAfter_of_none hack, fun hr => absurd rfl hr, fun _ => rfl,
        fun _ => ⟨by simp [hwins], hrej⟩⟩
    · have hsafe := failSafe_doShutdown _ _ _ _ h₃
      refine (decides_doShutdown _ _ _ _ _ h₃).after (by simp [hwins]) hrej ?_
        (fun _ => hsafe.within) (hraise (by simp)) hack
      rintro ⟨e, he, hs⟩
      exact absurd hs (by simp [(eq_false_of_silent (hsafe.silent e he)).2.1])
    · obtain ⟨rfl, rfl⟩ := runs_ack h₃
      obtain ⟨e, he, hs⟩ := hsus.shows rfl
      refine ⟨?_, fun hs => ?_, (acksAfter_of_none hack).append fun _ => .inl (by simp [hwins]),
        fun _ _ hnone => ?_, fun hs => ?_, by simp⟩
      · rw [wins_append, hwins]
        simp [wins, returnsZero]
      · obtain ⟨e', he', hs'⟩ := exists_mem_right hrej hs
        simp [List.mem_singleton.mp he', rejects] at hs'
      · have hno := hnone e (List.mem_append_left _ (List.mem_append_right _ he))
        exact absurd hs (by simp [hno])
      · obtain ⟨e', he', hs'⟩ := exists_mem_right (hraise (by simp)) hs
        simp [List.mem_singleton.mp he', suspendRaises] at hs'

theorem suspends_doShutdown (id : String) (failSafe : Bool) (name : String) :
    (doShutdown id failSafe name).run.Avoids DesktopOp.suspends := by
  have hpre : (shutdownPreflight id failSafe name).run.Avoids DesktopOp.suspends := by
    unfold shutdownPreflight
    split_ifs
    · trivial
    · refine avoids_seq ⟨rfl, fun _ => trivial⟩ fun answer => ?_
      cases answer <;> trivial
  refine avoids_seq hpre fun status => ?_
  show Prog.Avoids _ (OptionT.run (if status = .rejected then _ else _))
  by_cases hstatus : status = .rejected
  · rw [if_pos hstatus]
    exact avoids_ack rfl
  rw [if_neg hstatus]
  refine avoids_seq (avoids_executeShutdown fun _ h => h) fun ⟨code, out⟩ => ?_
  show Prog.Avoids _ (OptionT.run (if failSafe = true then _ else if code = 0 then _ else _))
  split_ifs
  · trivial
  · exact avoids_ack rfl
  · exact avoids_ack rfl

theorem asksFirst_doShutdown (id name : String) :
    (doShutdown id false name).run.Ensures fun tr _ => AsksFirst id name tr := by
  intro tr r h
  have hsuspend := (suspends_doShutdown id false name).runs h
  obtain ⟨tr₁, status, tr₂, rfl, h₁, h₂⟩ := runs_seq.mp h
  obtain ⟨x, rfl, rfl⟩ := runs_preflight h₁
  refine asksFirst_preflight (fun hx => ?_) fun _ => (List.forall_mem_append.mp hsuspend).2
  subst hx
  obtain ⟨rfl, -⟩ := runs_ack h₂
  simp [powers, DesktopOp.powers]

theorem asksFirst_doSuspend (id : String) :
    (doSuspend cfg id).run.Ensures fun tr _ => AsksFirst id "ups_state" tr := by
  intro tr r h
  obtain ⟨tr₁, status, tr₂, rfl, h₁, h₂⟩ := runs_seq.mp h
  obtain ⟨x, rfl, rfl⟩ := runs_preflight h₁
  rcases x with _ | _ | _
  · exact asksFirst_preflight (by simp) fun _ => (suspends_doShutdown id true _).runs h₂
  · obtain ⟨rfl, -⟩ := runs_ack h₂
    exact asksFirst_preflight (by simp [powers, DesktopOp.powers]) (by simp [DesktopOp.suspends])
  · exact asksFirst_preflight (by simp) (by simp)

theorem asksFirst_choose (id : String) {choice : Choice} (hc : choice ≠ .cancel) :
    (choose cfg id choice).run.Ensures fun tr _ => AsksFirst id "ups_state" tr := by
  cases choice with
  | sleep => exact asksFirst_doSuspend id
  | shutdown => exact asksFirst_doShutdown id "ups_state"
  | cancel => exact absurd rfl hc

theorem decides_choose (id : String) (choice : Choice) :
    (choose cfg id choice).run.Ensures Decides := by
  cases choice with
  | sleep => exact decides_doSuspend id
  | shutdown => exact decides_doShutdown id false "ups_state"
  | cancel =>
    intro tr r h
    obtain ⟨rfl, rfl⟩ := runs_ack h
    exact .of_not_powers (by simp [powers, DesktopOp.powers]) (by simp [acksDone])
      (by simp [passes]) (by simp)

theorem idle_delay (seconds : Int) : (delay seconds).run.Ensures fun tr _ => Idle tr := by
  have hpower : (delay seconds).run.Avoids DesktopOp.powers := avoids_delay rfl
  have htalk : (delay seconds).run.Avoids DesktopOp.talks := avoids_delay rfl
  intro tr _ h e he
  exact ⟨by simp [powers, hpower.runs h e he], htalk.runs h e he⟩

theorem idle_promptSoftSuspend : promptSoftSuspend.run.Ensures fun tr _ => Idle tr := by
  have hpower : promptSoftSuspend.run.Avoids DesktopOp.powers :=
    avoids_promptSoftSuspend (fun _ => rfl) fun _ h => h
  have htalk : promptSoftSuspend.run.Avoids DesktopOp.talks :=
    avoids_promptSoftSuspend (fun _ => rfl) fun _ _ => rfl
  intro tr _ h e he
  exact ⟨by simp [powers, hpower.runs h e he], htalk.runs h e he⟩

theorem idle_prompted (m : Message) : (prompted m).run.Ensures fun tr _ => Idle tr := by
  refine ensures_seq (idle_delay _) (fun tr h => h) fun tr _ h => ?_
  exact idle_promptSoftSuspend.mono fun tr' _ h' => List.forall_mem_append.mpr ⟨h, h'⟩

theorem runs_delay {seconds : Int} {tr : List DesktopEvent} {r : Option Unit}
    (h : (delay seconds).run.Runs tr r) : r = some () := by
  unfold delay sleep at h
  split_ifs at h
  · omega
  · obtain ⟨⟨⟩, rfl, -⟩ := runs_lift.mp h
    rfl
  · exact h.2

/-- **The thread for `ups_state`**: a prompt, what the choice leads to, and a shutdown if something
was raised. -/
theorem runs_handleUpsState {m : Message} {tr : List DesktopEvent} {r : Option Unit}
    (h : (handleUpsState cfg m.id m.delaySeconds).run.Runs tr r) :
    ∃ tr₁ c tr₂ b tr₃, tr = (tr₁ ++ tr₂) ++ tr₃ ∧ (prompted m).run.Runs tr₁ c ∧
      (c.elim (ret none) fun c => (choose cfg m.id c).run).Runs tr₂ b ∧
      (b.elim (doShutdown m.id true "critical_shutdown").run fun a => ret (some a)).Runs tr₃ r := by
  obtain ⟨tr₀, d, tr', rfl, h₀, h⟩ := runs_seq.mp h
  obtain rfl := runs_delay h₀
  obtain ⟨tr', b, tr₃, rfl, h, h₃⟩ := runs_catch.mp h
  obtain ⟨tr₁, c, tr₂, rfl, h₁, h₂⟩ := runs_seq.mp h
  have hprompted : (prompted m).run.Runs (tr₀ ++ tr₁) c :=
    runs_seq.mpr ⟨tr₀, some (), tr₁, rfl, h₀, h₁⟩
  exact ⟨tr₀ ++ tr₁, c, tr₂, b, tr₃, by simp, hprompted, h₂, h₃⟩

/-- **What follows the prompt** asks first, and so does the shutdown if something is raised then. -/
theorem preceded_choose {id : String} {choice : Choice} {tr₂ tr₃ : List DesktopEvent}
    {b r : Option Unit} (h₂ : (choose cfg id choice).run.Runs tr₂ b)
    (h₃ : (b.elim (doShutdown id true "critical_shutdown").run fun a => ret (some a)).Runs tr₃ r) :
    Preceded (·.1.powers) (clears id "ups_state") (tr₂ ++ tr₃) ∧
      Preceded (·.1.suspends) (permits id "ups_state") (tr₂ ++ tr₃) := by
  by_cases hc : choice = .cancel
  · subst hc
    obtain ⟨rfl, rfl⟩ := runs_ack h₂
    obtain ⟨rfl, -⟩ := h₃
    exact preceded_of_not_powers _ _ (by simp [powers, DesktopOp.powers])
  have hasks := asksFirst_choose id hc _ _ h₂
  rcases b with _ | _
  · -- something was raised, which is no rejection
    have hclear : ∃ e ∈ tr₂, clears id "ups_state" e = true := by
      refine hasks.answered.resolve_left fun ⟨e, he, hrej⟩ => ?_
      have hno := (decides_choose id choice _ _ h₂).raised rfl |>.2 e he
      exact absurd hrej (by simp [hno])
    have hsuspend := (suspends_doShutdown id true "critical_shutdown").runs h₃
    exact ⟨hasks.asked.append (.inl hclear),
      hasks.allowed.append (.inr (preceded_of_none hsuspend))⟩
  · obtain ⟨rfl, -⟩ := h₃
    rw [List.append_nil]
    exact ⟨hasks.asked, hasks.allowed⟩

theorem lawful_handleUpsState {m : Message} (hm : m.command = "ups_state") :
    (handleUpsState cfg m.id m.delaySeconds).run.Ensures fun tr _ => DecisionLaw m tr := by
  intro tr r h
  obtain ⟨tr₁, c, tr₂, b, tr₃, rfl, h₁, h₂, h₃⟩ := runs_handleUpsState h
  have hidle := idle_prompted m _ _ h₁
  have hdecides : Decides (tr₁ ++ tr₂) b := by
    rcases c with _ | c
    · obtain ⟨rfl, rfl⟩ := h₂
      rw [List.append_nil]
      exact .of_idle hidle none
    · exact (decides_choose m.id c _ _ h₂).after_idle hidle
  have horderly : Orderly ((tr₁ ++ tr₂) ++ tr₃) := by
    rcases b with _ | _
    · exact hdecides.caught (failSafe_doShutdown _ _ _ _ h₃)
    · obtain ⟨rfl, rfl⟩ := h₃
      rw [List.append_nil]
      exact hdecides.orderly (by simp)
  have hpower : ∀ e ∈ tr₁, ¬powers e := fun e he => (hidle e he).1
  obtain ⟨hasked₁, hallowed₁⟩ := preceded_of_not_powers (clears m.id "ups_state")
    (permits m.id "ups_state") hpower
  have hbegins : (prompted m).run.Begins c (tr₁ ++ tr₂ ++ tr₃) := ⟨tr₁, tr₂ ++ tr₃, by simp, h₁⟩
  rcases c with _ | c
  · -- the prompt has raised
    obtain ⟨rfl, rfl⟩ := h₂
    have hsafe := failSafe_doShutdown _ _ _ _ h₃
    rw [List.append_nil] at horderly hbegins ⊢
    have hallowed := hallowed₁.append (.inr (preceded_of_none hsafe.suspends))
    rw [← hm] at hallowed
    refine ⟨horderly, fun _ hcancel => ?_, .inr ⟨hm, hbegins⟩, hallowed,
      horderly.within_of_suspends hallowed, fun _ _ _ => hsafe.within.append_left⟩
    exact absurd (hcancel.result h₁) (by simp)
  · obtain ⟨hasked, hallowed⟩ := preceded_choose h₂ h₃
    replace hasked := hasked₁.append (.inr hasked)
    replace hallowed := hallowed₁.append (.inr hallowed)
    rw [List.append_assoc] at horderly hbegins ⊢
    rw [← hm] at hasked hallowed
    refine ⟨horderly, fun _ hcancel => ?_, .inl hasked, hallowed,
      horderly.within_of_suspends hallowed, fun hcancel hrej hnone => ?_⟩
    · -- the prompt of the run is the one that was cancelled
      obtain rfl := Option.some.inj (hcancel.result h₁)
      obtain ⟨rfl, rfl⟩ := runs_ack h₂
      obtain ⟨rfl, rfl⟩ := h₃
      rw [List.append_nil]
      refine List.forall_mem_append.mpr ⟨hpower, ?_⟩
      simp [powers, DesktopOp.powers]
    · have hc : c ≠ .cancel := by
        rintro rfl
        exact hcancel hm hbegins
      rcases (asksFirst_choose m.id hc _ _ h₂).answered with ⟨e, he, h⟩ | ⟨e, he, h⟩
      · exact absurd h (by simp [hrej e (by simp [he])])
      · exact horderly.fallsBack ⟨e, by simp [he], passes_of_clears h⟩ hnone

theorem within_doShutdown (id : String) (failSafe : Bool) (name : String) :
    (doShutdown id failSafe name).run.Ensures fun tr _ =>
      (∃ e ∈ tr, passes e = true) → executeShutdown.run.Within tr := by
  rintro tr r h ⟨e, he, hs⟩
  obtain ⟨tr₁, _, tr₂, rfl, h₁, h⟩ := runs_seq.mp h
  obtain ⟨status, rfl, hpre⟩ := preflighted_shutdownPreflight _ _ _ _ _ h₁
  change Prog.Runs (OptionT.run (if status = .rejected then _ else _)) _ _ at h
  by_cases hstatus : status = .rejected
  · rw [if_pos hstatus] at h
    obtain ⟨rfl, rfl⟩ := runs_ack h
    subst hstatus
    obtain ⟨e', he', hs'⟩ := exists_mem_right hpre.not_passes ⟨e, he, hs⟩
    simp [List.mem_singleton.mp he', passes] at hs'
  · rw [if_neg hstatus] at h
    obtain ⟨tr₂, c, tr₃, rfl, h₂, -⟩ := runs_seq.mp h
    exact (Prog.Within.of_runs h₂).append_right.append_left

theorem orderly_doShutdown (id : String) (failSafe : Bool) (name : String) :
    (doShutdown id failSafe name).run.Ensures fun tr _ => Orderly tr := by
  intro tr r h
  have hdecides := decides_doShutdown _ _ _ _ _ h
  refine ⟨hdecides.once, hdecides.rejected, fun hs _ => within_doShutdown _ _ _ _ _ h hs, ?_,
    hdecides.acksAfter⟩
  rintro ⟨e, he, hs⟩
  have hno := (suspends_doShutdown id failSafe name).runs h e he
  exact absurd (suspends_of_suspendRaises hs) (by simp [hno])

/-- **The thread for `critical_shutdown`**: a shutdown that asks first. -/
theorem lawful_handleCriticalShutdown {m : Message} (hm : m.command = "critical_shutdown") :
    (handleCriticalShutdown m.id m.delaySeconds).run.Ensures fun tr _ => DecisionLaw m tr := by
  intro tr r h
  obtain ⟨tr₁, d, tr', rfl, h₁, h⟩ := runs_seq.mp h
  obtain rfl := runs_delay h₁
  obtain ⟨tr₂, w, tr₃, rfl, h₂, h₃⟩ := runs_seq.mp h
  obtain ⟨⟨⟩, rfl, hwarn⟩ := runs_lift.mp h₂
  obtain rfl := runs_perform.mp hwarn
  rw [← List.append_assoc]
  have hidle : Idle (tr₁ ++ [⟨.startWarning, ()⟩]) := by
    refine List.forall_mem_append.mpr ⟨idle_delay _ _ _ h₁, List.forall_mem_singleton.mpr ?_⟩
    exact ⟨by simp [powers, DesktopOp.powers], rfl⟩
  have horderly := (orderly_doShutdown _ _ _ _ _ h₃).after_idle hidle
  have hasks := asksFirst_doShutdown _ _ _ _ h₃
  obtain ⟨hasked₁, hallowed₁⟩ := preceded_of_not_powers (clears m.id "critical_shutdown")
    (permits m.id "critical_shutdown") fun e he => (hidle e he).1
  have hasked := hasked₁.append (.inr hasks.asked)
  have hallowed := hallowed₁.append (.inr hasks.allowed)
  rw [← hm] at hasked hallowed
  refine ⟨horderly, fun hups => absurd (hups.symm.trans hm) (by decide), .inl hasked, hallowed,
    horderly.within_of_suspends hallowed, fun _ hrej hnone => ?_⟩
  rcases hasks.answered with ⟨e, he, h⟩ | ⟨e, he, h⟩
  · exact absurd h (by simp [hrej e (List.mem_append_right _ he)])
  · exact horderly.fallsBack ⟨e, List.mem_append_right _ he, passes_of_clears h⟩ hnone

end

end Desktop

/-- **Every run of the handler of a pushed message is lawful**, and the warning that is shown beside
it runs no power command. -/
theorem decisionLaw (cfg : SuspendConfig) (m : Message) (handler : Desktop Unit)
    (h : Desktop.doPost cfg m = some handler) :
    (handler.run.Ensures fun tr _ => DecisionLaw m tr) ∧
      Desktop.showCriticalWarning.run.Ensures fun tr _ => ∀ e ∈ tr, ¬powers e := by
  constructor
  · unfold Desktop.doPost at h
    split_ifs at h with hups hcritical
    · obtain rfl := Option.some.inj h
      exact Desktop.lawful_handleUpsState hups.1
    · obtain rfl := Option.some.inj h
      exact Desktop.lawful_handleCriticalShutdown hcritical
  · have havoids : Desktop.showCriticalWarning.run.Avoids DesktopOp.powers :=
      Desktop.avoids_showCriticalWarning (fun _ => rfl) fun _ h => h
    intro tr _ htr e he
    simp [powers, havoids.runs htr e he]

/-- A desktop on which the user chooses to sleep, nothing can be suspended, and only `systemctl`
can power off. -/
def sleeplessDesk : (o : DesktopOp) → DesktopOp.Ans o
  | .which _ => true
  | .run .zenityList => some (0, "Sleep\n")
  | .run .poweroff => some (0, "")
  | .run _ => some (1, "Access denied")
  | .postPreflight _ _ => some true
  | .postAck _ _ _ => ()
  | .sleep _ => ()
  | .startWarning => ()

/-- The user's choice ends in a shutdown. -/
theorem decisionLaw_sleepless :
    let m : Message := { command := "ups_state", id := "c1", event := some "ONBATT" }
    let tr := ((Desktop.handleUpsState {} m.id m.delaySeconds).run.play sleeplessDesk).2
    wins tr = 1 ∧ DecisionLaw m tr := by
  intro m tr
  have hlaw := (decisionLaw {} m (Desktop.handleUpsState {} m.id m.delaySeconds) rfl).1
  exact ⟨by decide, hlaw _ _ (Prog.runs_play _ _)⟩

end UpsOrchestrator

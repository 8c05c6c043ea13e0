import UpsOrchestrator.Lib.Prog

/-!
# The event log

`event_log.py`: `record` reads the whole list, puts its entry in front and writes the list back, cut
at `OUTAGE_LOG_MAX_ENTRIES`. Nothing keeps two calls apart.

* `EventLog`, `RecordOp`, `EventLog.record`: the function, over the operations that are atomic.
* `recordPool`: any number of calls at once, on a log that was kept so far.
* `RecordHistory`: the writes in their order, and which of them were made on the list that its call
  had read.
* `KeepsNewest`: nothing is lost but the oldest entries; `RecentlyFresh`: the recent writes were made
  on the current list; **`eventLog_keeps_newest`**.
-/

set_option autoImplicit false

namespace UpsOrchestrator

open Lts

/-- An entry of the log; `δ` is what a detail is. -/
structure EventEntry (δ : Type) where
  time : ℤ
  timeDt : String
  event : String
  detail : Option δ
  deriving DecidableEq

/-- What the functions take from the configuration and from `to_iso`. -/
structure EventLog where
  maxEntries : ℤ
  toIso : ℤ → String

/-- The arguments of a call of `record`. -/
structure RecordCall (δ : Type) where
  event : String
  detail : Option δ := none

variable {δ : Type}

/-- `entries[:n]` -/
def sliceTo {α : Type} (entries : List α) (n : ℤ) : List α :=
  if 0 ≤ n then entries.take n.toNat else entries.take (entries.length - (-n).toNat)

@[simp] theorem sliceTo_of_pos {α : Type} {n : ℤ} (hn : 0 < n) (entries : List α) :
    sliceTo entries n = entries.take n.toNat := by
  unfold sliceTo
  exact if_pos (by omega)

namespace EventLog

/-- The entry of a call. -/
def entry (g : EventLog) (ts : ℤ) (c : RecordCall δ) : EventEntry δ where
  time := ts
  timeDt := g.toIso ts
  event := c.event
  detail := c.detail

end EventLog

/-! ## The function -/

inductive RecordOp (δ : Type)
  | nowTs
  /-- `read_json(path, [])` -/
  | readJson
  | writeJson (entries : List (EventEntry δ))

abbrev RecordOp.Ans : RecordOp δ → Type
  | nowTs => ℤ
  | readJson => List (EventEntry δ)
  | writeJson _ => Unit

/-- What an operation does; the file is none when there is none or it cannot be read. -/
def RecordOp.exec : Prog.Exec (RecordOp δ) RecordOp.Ans (Option (List (EventEntry δ))) ℤ
  | nowTs, now, file => some (now, file)
  | readJson, _, file => some (file.getD [], file)
  | writeJson entries, _, _ => some ((), some entries)

/-- One operation. -/
abbrev RecordOp.perform (o : RecordOp δ) : Prog (RecordOp δ) RecordOp.Ans o.Ans := Prog.perform o

namespace EventLog

variable (g : EventLog)

/-- `_read` -/
def read : Prog (RecordOp δ) RecordOp.Ans (List (EventEntry δ)) := RecordOp.perform .readJson

/-- `_write` -/
def write (entries : List (EventEntry δ)) : Prog (RecordOp δ) RecordOp.Ans Unit :=
  RecordOp.perform (.writeJson (sliceTo entries g.maxEntries))

/-- `record` -/
def record (c : RecordCall δ) : Prog (RecordOp δ) RecordOp.Ans Unit := do
  let ts ← RecordOp.perform (.nowTs : RecordOp δ)
  let entries ← read
  g.write (g.entry ts c :: entries)

end EventLog

/-! ## The calls -/

/-- A log that has been kept so far: the events of the past, newest first, and the file. -/
structure KeptLog (g : EventLog) (δ : Type) where
  old : List (EventEntry δ)
  file : Option (List (EventEntry δ))
  kept : file.getD [] = old.take g.maxEntries.toNat

variable {ι : Type} [DecidableEq ι] {g : EventLog} (log : KeptLog g δ) (calls : ι → RecordCall δ)

/-- **The interleaved calls.** -/
def recordPool : System (Pool (RecordOp δ) RecordOp.Ans (Option (List (EventEntry δ))) ι) (ι × ℤ) :=
  pool RecordOp.exec ⟨log.file, fun i => g.record (calls i)⟩

/-- A step of one of the calls. -/
abbrev RecordStep (δ ι : Type) : Type :=
  Transition (Pool (RecordOp δ) RecordOp.Ans (Option (List (EventEntry δ))) ι) (ι × ℤ)

/-- The operation that the step performs. -/
def RecordStep.op (t : RecordStep δ ι) : Option (RecordOp δ) := (t.pre.threads t.act.1).head

/-- What is remembered of a run: the time of each call, how many writes there had been when it read
the file, and the writes, newest first. -/
structure RecordHistory (δ ι : Type) where
  stamp : ι → ℤ := fun _ => 0
  readAt : ι → ℕ := fun _ => 0
  writers : List ι := []
  logged : List (EventEntry δ) := []
  /-- no write has been made since the call of this one read the file -/
  fresh : List Bool := []

/-- What a step adds. -/
def RecordHistory.add (g : EventLog) (calls : ι → RecordCall δ) (h : RecordHistory δ ι)
    (t : RecordStep δ ι) : RecordHistory δ ι :=
  match RecordStep.op t with
  | some .nowTs => { h with stamp := Function.update h.stamp t.act.1 t.act.2 }
  | some .readJson => { h with readAt := Function.update h.readAt t.act.1 h.writers.length }
  | some (.writeJson _) =>
    { h with
      writers := t.act.1 :: h.writers
      logged := g.entry (h.stamp t.act.1) (calls t.act.1) :: h.logged
      fresh := decide (h.readAt t.act.1 = h.writers.length) :: h.fresh }
  | none => h

/-- What is remembered after the steps `tr`. -/
def recorded (g : EventLog) (calls : ι → RecordCall δ) (tr : List (RecordStep δ ι)) :
    RecordHistory δ ι :=
  hist (RecordHistory.add g calls) {} tr

variable {log calls}

/-- **Nothing is lost but the oldest entries.** -/
structure KeepsNewest (x : Execution (recordPool log calls)) : Prop where
  once : (recorded g calls x.steps).writers.Nodup
  returned : ∀ i, i ∈ (recorded g calls x.steps).writers ↔ x.last.threads i = .ret ()
  file : x.last.shared.getD [] =
    ((recorded g calls x.steps).logged ++ log.old).take g.maxEntries.toNat

/-- Of the writes that still count, all but the oldest were made with no other write since the call
read the file. -/
def RecentlyFresh (x : Execution (recordPool log calls)) : Prop :=
  ∀ fresh ∈ (recorded g calls x.steps).fresh.take (g.maxEntries.toNat - 1), fresh = true

/-! ## Stages -/

/-- How far a call is. -/
inductive RecordStage (δ : Type)
  | begins (call : RecordCall δ)
  | reads (entry : EventEntry δ)
  | writes (entry : EventEntry δ) (entries : List (EventEntry δ))
  | returned

namespace RecordStage

/-- The operation that comes next. -/
def op (g : EventLog) : RecordStage δ → Option (RecordOp δ)
  | begins _ => some .nowTs
  | reads _ => some .readJson
  | writes entry entries => some (.writeJson (sliceTo (entry :: entries) g.maxEntries))
  | returned => none

/-- The stage after an answer. -/
def next (g : EventLog) : RecordStage δ → (o : RecordOp δ) → o.Ans → RecordStage δ
  | begins call, .nowTs, ts => reads (g.entry ts call)
  | reads entry, .readJson, entries => writes entry entries
  | writes _ _, .writeJson _, _ => returned
  | s, _, _ => s

end RecordStage

variable (g) in
/-- A call does what its stage says. -/
def recordDiscipline : Discipline (RecordOp δ) RecordOp.Ans (RecordStage δ) where
  allowed s o := s.op g = some o
  possible _ _ _ := True
  next s o a := s.next g o a

theorem follows_record (c : RecordCall δ) :
    Follows (recordDiscipline g) (.begins c) (g.record c) fun s _ => s = .returned :=
  ⟨rfl, fun _ _ => ⟨rfl, fun _ _ => ⟨rfl, fun _ _ => rfl⟩⟩⟩

theorem returned_iff {s : RecordStage δ} {p : Prog (RecordOp δ) RecordOp.Ans Unit}
    (h : Follows (recordDiscipline g) s p fun s _ => s = .returned) :
    p = .ret () ↔ s = .returned := by
  cases p with
  | ret a => exact ⟨fun _ => h, fun _ => rfl⟩
  | op o k =>
    constructor
    · intro hp
      cases hp
    · rintro rfl
      cases h.1

/-! ## What is true of a call -/

variable (g calls)

/-- **What is true of a call** at its stage. What it has read is older than the writes since. -/
def CallHolds (old : List (EventEntry δ)) (h : RecordHistory δ ι)
    (file : Option (List (EventEntry δ))) (i : ι) : RecordStage δ → Prop
  | .begins call => call = calls i ∧ i ∉ h.writers
  | .reads entry => entry = g.entry (h.stamp i) (calls i) ∧ i ∉ h.writers
  | .writes entry entries => entry = g.entry (h.stamp i) (calls i) ∧ i ∉ h.writers ∧
      h.readAt i ≤ h.writers.length ∧ (h.readAt i = h.writers.length → entries = file.getD []) ∧
      entries ⊆ h.logged.drop (h.writers.length - h.readAt i) ++ old
  | .returned => i ∈ h.writers

variable {g calls}
variable {old : List (EventEntry δ)} {h h' : RecordHistory δ ι}
  {file file' : Option (List (EventEntry δ))} {i j : ι} {s : RecordStage δ}

omit [DecidableEq ι] in
theorem CallHolds.write {e : EventEntry δ} (hs : CallHolds g calls old h file i s) (hij : i ≠ j)
    (hstamp : h'.stamp i = h.stamp i) (hread : h'.readAt i = h.readAt i)
    (hwriters : h'.writers = j :: h.writers) (hlogged : h'.logged = e :: h.logged) :
    CallHolds g calls old h' file' i s := by
  cases s with
  | begins call =>
    refine ⟨hs.1, ?_⟩
    rw [hwriters]
    exact List.not_mem_cons_of_ne_of_not_mem hij hs.2
  | reads entry =>
    refine ⟨by rw [hstamp, hs.1], ?_⟩
    rw [hwriters]
    exact List.not_mem_cons_of_ne_of_not_mem hij hs.2
  | writes entry entries =>
    obtain ⟨hentry, hi, hle, -, hsub⟩ := hs
    refine ⟨by rw [hstamp, hentry], ?_, ?_, ?_, ?_⟩
    · rw [hwriters]
      exact List.not_mem_cons_of_ne_of_not_mem hij hi
    · rw [hread, hwriters, List.length_cons]
      omega
    · intro heq
      rw [hread, hwriters, List.length_cons] at heq
      omega
    · have hlen : h'.writers.length - h'.readAt i = h.writers.length - h.readAt i + 1 := by
        rw [hread, hwriters, List.length_cons]
        omega
      rw [hlen, hlogged, List.drop_succ_cons]
      exact hsub
  | returned =>
    show i ∈ h'.writers
    rw [hwriters]
    exact List.mem_cons_of_mem j hs

omit [DecidableEq ι] in
theorem CallHolds.frame (hs : CallHolds g calls old h file i s)
    (hstamp : h'.stamp i = h.stamp i) (hread : h'.readAt i = h.readAt i)
    (hwriters : h'.writers = h.writers) (hlogged : h'.logged = h.logged) :
    CallHolds g calls old h' file i s := by
  unfold CallHolds at hs ⊢
  rw [hstamp, hread, hwriters, hlogged]
  exact hs

/-! ## The file -/

variable (g old) in
/-- **What is true of the file**: as far as the recent writes are fresh it is the newest entries,
and no further if no two entries are equal. -/
structure FileHolds (h : RecordHistory δ ι) (file : Option (List (EventEntry δ))) : Prop where
  once : h.writers.Nodup
  length : h.logged.length = h.writers.length
  subset : file.getD [] ⊆ h.logged ++ old
  capped : (file.getD []).take g.maxEntries.toNat = file.getD []
  newest : ∀ j ≤ g.maxEntries.toNat, (∀ fresh ∈ h.fresh.take (j - 1), fresh = true) →
    (file.getD []).take j = (h.logged ++ old).take j
  lost : (h.logged ++ old).Nodup → ∀ j ≤ g.maxEntries.toNat,
    (file.getD []).take j = (h.logged ++ old).take j → ∀ fresh ∈ h.fresh.take (j - 1), fresh = true

/-- A list that was read before the newest entry was written does not have it. -/
theorem not_mem_of_stale {e : EventEntry δ} {logged entries : List (EventEntry δ)} {n : ℕ}
    (hn : 0 < n) (hsub : entries ⊆ (e :: logged).drop n ++ old)
    (hnodup : (e :: logged ++ old).Nodup) : e ∉ entries := by
  intro he
  obtain ⟨k, rfl⟩ : ∃ k, n = k + 1 := ⟨n - 1, by omega⟩
  rw [List.drop_succ_cons] at hsub
  have hmem : e ∈ logged ++ old :=
    ((List.drop_sublist k logged).append_right old).subset (hsub he)
  rw [List.cons_append] at hnodup
  exact (List.nodup_cons.mp hnodup).1 hmem

theorem take_sliceTo {l : List (EventEntry δ)} {n : ℤ} {j : ℕ} (hn : 0 < n) (hj : j ≤ n.toNat) :
    (sliceTo l n).take j = l.take j := by
  rw [sliceTo_of_pos hn, List.take_take, min_eq_left hj]

omit [DecidableEq ι] in
/-- **What is missing from a stale list** shows: it does not begin with the newest entry. -/
theorem FileHolds.fresh_of_take {entries : List (EventEntry δ)} {n k : ℕ}
    (hf : FileHolds g old h file) (hle : n ≤ h.writers.length)
    (hsub : entries ⊆ h.logged.drop (h.writers.length - n) ++ old)
    (hnodup : (h.logged ++ old).Nodup)
    (heq : entries.take (k + 1) = (h.logged ++ old).take (k + 1)) : n = h.writers.length := by
  by_contra hne
  have hlen := hf.length
  cases hlog : h.logged with
  | nil =>
    rw [hlog, List.length_nil] at hlen
    omega
  | cons e logged =>
    rw [hlog] at hsub hnodup heq
    have hmem : e ∈ entries.take (k + 1) := by
      rw [heq, List.cons_append, List.take_succ_cons]
      exact List.mem_cons_self
    exact not_mem_of_stale (by omega) hsub hnodup (List.take_subset _ _ hmem)

omit [DecidableEq ι] in
/-- **A write** of what a call has read, with its entry in front. -/
theorem FileHolds.write {e : EventEntry δ} {entries : List (EventEntry δ)} {n : ℕ}
    (hmax : 0 < g.maxEntries) (hf : FileHolds g old h file) (hi : i ∉ h.writers)
    (hle : n ≤ h.writers.length) (hcur : n = h.writers.length → entries = file.getD [])
    (hsub : entries ⊆ h.logged.drop (h.writers.length - n) ++ old)
    (hwriters : h'.writers = i :: h.writers) (hlogged : h'.logged = e :: h.logged)
    (hfresh : h'.fresh = decide (n = h.writers.length) :: h.fresh) :
    FileHolds g old h' (some (sliceTo (e :: entries) g.maxEntries)) := by
  have hmem : entries ⊆ h.logged ++ old := fun a ha =>
    ((List.drop_sublist _ h.logged).append_right old).subset (hsub ha)
  -- behind the new entry stands what the call had read
  have htake : ∀ k, k + 1 ≤ g.maxEntries.toNat →
      (sliceTo (e :: entries) g.maxEntries).take (k + 1) = e :: entries.take k := by
    intro k hk
    rw [take_sliceTo hmax hk, List.take_succ_cons]
  refine ⟨?_, ?_, ?_, ?_, ?_, ?_⟩
  · rw [hwriters]
    exact List.nodup_cons.mpr ⟨hi, hf.once⟩
  · rw [hlogged, hwriters, List.length_cons, List.length_cons, hf.length]
  · rw [hlogged, Option.getD_some, sliceTo_of_pos hmax, List.cons_append]
    intro a ha
    exact List.cons_subset_cons e hmem (List.take_subset _ _ ha)
  · rw [Option.getD_some, sliceTo_of_pos hmax, List.take_take, min_self]
  · intro j hj hall
    rw [hlogged, Option.getD_some, List.cons_append]
    rw [hfresh] at hall
    match j with
    | 0 => rfl
    | 1 => rw [htake 0 hj, List.take_succ_cons, List.take_zero, List.take_zero]
    | k + 2 =>
      rw [htake (k + 1) hj, List.take_succ_cons]
      rw [show k + 2 - 1 = k + 1 from rfl, List.take_succ_cons, List.forall_mem_cons] at hall
      rw [hcur (of_decide_eq_true hall.1), hf.newest (k + 1) (by omega) hall.2]
  · intro hnodup j hj heq
    rw [hlogged, List.cons_append] at hnodup heq
    rw [hfresh]
    match j with
    | 0 => simp
    | 1 => simp
    | k + 2 =>
      rw [Option.getD_some, htake (k + 1) hj, List.take_succ_cons] at heq
      have htail : entries.take (k + 1) = (h.logged ++ old).take (k + 1) := (List.cons.inj heq).2
      have hn := hf.fresh_of_take hle hsub hnodup.of_cons htail
      rw [hcur hn] at htail
      exact List.forall_mem_cons.mpr
        ⟨decide_eq_true hn, hf.lost hnodup.of_cons (k + 1) (by omega) htail⟩

omit [DecidableEq ι] in
theorem FileHolds.frame (hf : FileHolds g old h file) (hwriters : h'.writers = h.writers)
    (hlogged : h'.logged = h.logged) (hfresh : h'.fresh = h.fresh) : FileHolds g old h' file := by
  refine ⟨?_, ?_, ?_, hf.capped, ?_, ?_⟩
  · rw [hwriters]
    exact hf.once
  · rw [hwriters, hlogged]
    exact hf.length
  · rw [hlogged]
    exact hf.subset
  · rw [hlogged, hfresh]
    exact hf.newest
  · rw [hlogged, hfresh]
    exact hf.lost

/-! ## Runs -/

variable (g calls old) in
/-- The calls and the file fit what is remembered. -/
def RecordHolds (h : RecordHistory δ ι)
    (w : Pool (RecordOp δ) RecordOp.Ans (Option (List (EventEntry δ))) ι) : Prop :=
  ∃ q : ι → RecordStage δ, (∀ i, Follows (recordDiscipline g) (q i) (w.threads i)
    fun s _ => s = .returned) ∧ (∀ i, CallHolds g calls old h w.shared i (q i)) ∧
    FileHolds g old h w.shared

theorem callHolds_update {q : ι → RecordStage δ} (hown : CallHolds g calls old h file j s)
    (hothers : ∀ i, i ≠ j → CallHolds g calls old h file i (q i)) (i : ι) :
    CallHolds g calls old h file i (Function.update q j s i) := by
  by_cases hij : i = j
  · subst hij
    rw [Function.update_self]
    exact hown
  · rw [Function.update_of_ne hij]
    exact hothers i hij

/-- **A step** keeps that. -/
theorem RecordHolds.step (hmax : 0 < g.maxEntries) {t : RecordStep δ ι}
    (ht : (recordPool log calls).Takes t) (hr : RecordHolds g calls old h t.pre) :
    RecordHolds g calls old (h.add g calls t) t.post := by
  obtain ⟨q, hq, hcall, hfile⟩ := hr
  obtain ⟨o, a, hop, hexec, hallowed, hfollows⟩ := Follows.step ht hq
  have hown := hcall t.act.1
  refine ⟨_, hfollows trivial, ?_⟩
  show (∀ i, CallHolds g calls old (h.add g calls t) t.post.shared i
    (Function.update q t.act.1 ((q t.act.1).next g o a) i)) ∧ _
  replace hop : RecordStep.op t = some o := hop
  replace hallowed : (q t.act.1).op g = some o := hallowed
  generalize hs : q t.act.1 = s at hown hallowed
  cases s with
  | returned => cases hallowed
  | begins call =>
    cases hallowed
    obtain ⟨ha, hpost⟩ := Prod.mk.inj (Option.some.inj hexec)
    have hadd : h.add g calls t =
        { h with stamp := Function.update h.stamp t.act.1 t.act.2 } := by
      rw [RecordHistory.add, hop]
    rw [← hpost, hadd]
    refine ⟨callHolds_update ⟨?_, hown.2⟩ fun i hi => (hcall i).frame ?_ rfl rfl rfl,
      hfile.frame rfl rfl rfl⟩
    · show g.entry a call = g.entry (Function.update h.stamp _ _ _) _
      rw [hown.1, ← ha, Function.update_self]
    · exact Function.update_of_ne hi _ _
  | reads entry =>
    cases hallowed
    obtain ⟨ha, hpost⟩ := Prod.mk.inj (Option.some.inj hexec)
    have hadd : h.add g calls t =
        { h with readAt := Function.update h.readAt t.act.1 h.writers.length } := by
      rw [RecordHistory.add, hop]
    have hread : Function.update h.readAt t.act.1 h.writers.length t.act.1 = h.writers.length :=
      Function.update_self ..
    rw [← hpost, hadd]
    refine ⟨callHolds_update ⟨hown.1, hown.2, hread.le, fun _ => ha.symm, ?_⟩
      fun i hi => (hcall i).frame rfl ?_ rfl rfl, hfile.frame rfl rfl rfl⟩
    · show a ⊆ h.logged.drop (h.writers.length - Function.update h.readAt _ _ _) ++ old
      rw [hread, Nat.sub_self, List.drop_zero, ← ha]
      exact hfile.subset
    · exact Function.update_of_ne hi _ _
  | writes entry entries =>
    cases hallowed
    obtain ⟨-, hpost⟩ := Prod.mk.inj (Option.some.inj hexec)
    obtain ⟨rfl, hi, hle, hcur, hsub⟩ := hown
    have hadd : h.add g calls t = { h with
        writers := t.act.1 :: h.writers
        logged := g.entry (h.stamp t.act.1) (calls t.act.1) :: h.logged
        fresh := decide (h.readAt t.act.1 = h.writers.length) :: h.fresh } := by
      rw [RecordHistory.add, hop]
    rw [← hpost, hadd]
    exact ⟨callHolds_update List.mem_cons_self fun i hi => (hcall i).write hi rfl rfl rfl rfl,
      hfile.write hmax hi hle hcur hsub rfl rfl rfl⟩

/-- **A run** keeps it. -/
theorem recordHolds (hmax : 0 < g.maxEntries) (x : Execution (recordPool log calls)) :
    RecordHolds g calls log.old (recorded g calls x.steps) x.last := by
  refine x.run.inv_hist _ _ (fun h t ht hr => hr.step hmax ht) ?_
  rw [x.init]
  refine ⟨fun i => .begins (calls i), fun i => follows_record (calls i),
    fun i => ⟨rfl, List.not_mem_nil⟩, List.nodup_nil, rfl, ?_, ?_, ?_, ?_⟩
  · show log.file.getD [] ⊆ log.old
    rw [log.kept]
    exact List.take_subset _ _
  · show (log.file.getD []).take _ = log.file.getD []
    rw [log.kept, List.take_take, min_self]
  · intro j hj _
    show (log.file.getD []).take j = log.old.take j
    rw [log.kept, List.take_take, min_eq_left hj]
  · intro _ j _ _
    simp

omit [DecidableEq ι] in
theorem CallHolds.returned_iff (hs : CallHolds g calls old h file i s) :
    i ∈ h.writers ↔ s = .returned := by
  cases s with
  | begins call => exact ⟨fun hi => absurd hi hs.2, nofun⟩
  | reads entry => exact ⟨fun hi => absurd hi hs.2, nofun⟩
  | writes entry entries => exact ⟨fun hi => absurd hi hs.2.1, nofun⟩
  | returned => exact ⟨fun _ => rfl, fun _ => hs⟩

/-- **The log keeps the newest entries** if the recent writes were made on the current list, and if
no two entries are equal only then. -/
theorem eventLog_keeps_newest (hmax : 0 < g.maxEntries) (x : Execution (recordPool log calls)) :
    (RecentlyFresh x → KeepsNewest x) ∧
      (((recorded g calls x.steps).logged ++ log.old).Nodup → KeepsNewest x → RecentlyFresh x) := by
  obtain ⟨q, hq, hcall, hfile⟩ := recordHolds hmax x
  constructor
  · intro hfresh
    refine ⟨hfile.once, fun i => ?_, ?_⟩
    · rw [returned_iff (hq i), (hcall i).returned_iff]
    · rw [← hfile.capped]
      exact hfile.newest _ le_rfl hfresh
  · intro hnodup hk
    refine hfile.lost hnodup _ le_rfl ?_
    rw [hk.file, List.take_take, min_self]

/-! ## An entry is lost -/

/-- The default cap, and the default time zone at the moment of the sample. -/
def sampleEventLog : EventLog where
  maxEntries := 200
  toIso ts := if ts = 1700000000 then "2023-11-15T01:13:20+03:00" else ""

/-- The log of an outage that has just begun. -/
def sampleLog : KeptLog sampleEventLog String where
  old := [sampleEventLog.entry 1700000000 { event := "phase_started" }]
  file := some [sampleEventLog.entry 1700000000 { event := "phase_started" }]
  kept := rfl

/-- The desktop is told of the outage, and reports that it shuts down. -/
def sampleRecords : Fin 2 → RecordCall String
  | 0 => { event := "desktop_notified", detail := some "ups_state" }
  | 1 => { event := "desktop_shutdown_observed", detail := some "shutting_down" }

theorem eq_ret_of_head {p : Prog (RecordOp δ) RecordOp.Ans Unit} (h : p.head.isNone = true) :
    p = .ret () := by
  cases p with
  | ret a => rfl
  | op o k => cases h

/-- One call after the other. -/
theorem eventLog_keeps_newest_sample :
    ∃ x : Execution (recordPool sampleLog sampleRecords),
      (∀ i, x.last.threads i = .ret ()) ∧ RecentlyFresh x ∧ KeepsNewest x := by
  obtain ⟨x, hret, hfresh⟩ := exists_execution_at (S := recordPool sampleLog sampleRecords)
    (P := fun tr w => (∀ i, (w.threads i).head.isNone = true) ∧
      ∀ fresh ∈ (recorded sampleEventLog sampleRecords tr).fresh.take
        (sampleEventLog.maxEntries.toNat - 1), fresh = true)
    [(0, 1700000000), (0, 1700000000), (0, 1700000000), (1, 1700000000), (1, 1700000000),
      (1, 1700000000)] rfl (by decide)
  exact ⟨x, fun i => eq_ret_of_head (hret i), hfresh,
    (eventLog_keeps_newest (by decide) x).1 hfresh⟩

/-- Both calls read the file before either writes it. -/
theorem not_keepsNewest_of_overlap :
    ∃ x : Execution (recordPool sampleLog sampleRecords),
      (∀ i, x.last.threads i = .ret ()) ∧ ¬KeepsNewest x := by
  obtain ⟨x, hret, hfile⟩ := exists_execution_at (S := recordPool sampleLog sampleRecords)
    (P := fun tr w => (∀ i, (w.threads i).head.isNone = true) ∧ w.shared.getD [] ≠
      ((recorded sampleEventLog sampleRecords tr).logged ++ sampleLog.old).take
        sampleEventLog.maxEntries.toNat)
    [(0, 1700000000), (1, 1700000000), (0, 1700000000), (1, 1700000000), (0, 1700000000),
      (1, 1700000000)] rfl (by decide)
  exact ⟨x, fun i => eq_ret_of_head (hret i), fun hk => hfile hk.file⟩

end UpsOrchestrator

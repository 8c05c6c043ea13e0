import UpsOrchestrator.StateStore

/-!
# The JSON store is an atomic register

* `StoreStage`, `storeDiscipline`: how far a call is, and what it does next; `follows_prog`.
* `Local`: what is true of a call at a stage, whatever the others do; `Local.frame`, `Local.move`.
* `Content`: the path holds what was put there last.
* **`atomicRegister`**: in every interleaving of reads and writes.
-/

set_option autoImplicit false

namespace UpsOrchestrator

open Lts

/-- How far a call is. -/
inductive StoreStage (δ : Type)
  | reads (default : δ)
  | sees (default : δ)
  | holds (data : δ)
  | draws (data : δ)
  | writes (hex text : String) (data : δ)
  | replaces (hex text : String) (data : δ)
  | cleans (hex : String) (ok : Bool)
  | unlinks (hex : String) (ok : Bool)
  | ends (hex : String) (ok : Bool)
  | done (drawn : Option String)

variable {δ : Type}

/-- The stage at which a call begins. -/
def StoreCall.start : StoreCall δ → StoreStage δ
  | read default => .reads default
  | write data => .draws data

namespace StoreStage

/-- The operation that comes next. -/
def op (path : String) : StoreStage δ → Option (StoreOp δ)
  | reads _ => some (.pathExists path)
  | sees _ => some (.readText path)
  | holds data => some (.returned data)
  | draws _ => some .uuid4
  | writes hex text _ => some (.writeText (tmpName path hex) text)
  | replaces hex _ _ => some (.replace (tmpName path hex) path)
  | cleans hex _ => some (.pathExists (tmpName path hex))
  | unlinks hex _ => some (.unlink (tmpName path hex))
  | ends _ ok => some (.finished ok)
  | done _ => none

/-- The stage after an answer. -/
def next (codec : Codec δ) : StoreStage δ → (o : StoreOp δ) → o.Ans → StoreStage δ
  | reads default, .pathExists _, found => if found then sees default else holds default
  | sees default, .readText _, content => holds (codec.value default content)
  | holds _, .returned _, _ => done none
  | draws data, .uuid4, hex =>
    match codec.dumps data with
    | none => cleans hex false
    | some text => writes hex text data
  | writes hex text data, .writeText _ _, ok =>
    if ok then replaces hex text data else cleans hex false
  | replaces hex _ _, .replace _ _, ok => cleans hex ok
  | cleans hex ok, .pathExists _, found => if found then unlinks hex ok else ends hex ok
  | unlinks hex ok, .unlink _, _ => ends hex ok
  | ends hex _, .finished _, _ => done (some hex)
  | s, _, _ => s

/-- The name that the call has drawn. -/
def hex : StoreStage δ → Option String
  | writes hex _ _ => some hex
  | replaces hex _ _ => some hex
  | cleans hex _ => some hex
  | unlinks hex _ => some hex
  | ends hex _ => some hex
  | done drawn => drawn
  | _ => none

/-- The call has not replaced the path, and if it is about to end it raises. -/
def unreplaced : StoreStage δ → Bool
  | draws _ => true
  | writes _ _ _ => true
  | replaces _ _ _ => true
  | cleans _ ok => !ok
  | unlinks _ ok => !ok
  | ends _ ok => !ok
  | _ => false

/-- The call has replaced the path and is about to return. -/
def succeeded : StoreStage δ → Bool
  | cleans _ ok => ok
  | unlinks _ ok => ok
  | ends _ ok => ok
  | _ => false

/-- The name of which no file is left. -/
def gone : StoreStage δ → Option String
  | ends hex _ => some hex
  | done drawn => drawn
  | _ => none

/-- The call is one that has this stage. -/
def OfCall : StoreStage δ → StoreCall δ → Prop
  | reads default, c => c = .read default
  | sees default, c => c = .read default
  | draws data, c => c = .write data
  | writes _ _ data, c => c = .write data
  | replaces _ _ data, c => c = .write data
  | _, _ => True

def isDone : StoreStage δ → Bool
  | done _ => true
  | _ => false

end StoreStage

variable (codec : Codec δ) (path : String)

/-- A call does what its stage says. -/
def storeDiscipline : Discipline (StoreOp δ) StoreOp.Ans (StoreStage δ) where
  allowed s o := s.op path = some o
  possible _ _ _ := True
  next s o a := s.next codec o a

theorem follows_cleanUp {hex : String} {ok : Bool} :
    Follows (storeDiscipline codec path) (.cleans hex ok)
      (((cleanUp (tmpName path hex)).bind fun _ => .ret ok).bind fun ok =>
        StoreOp.perform (.finished ok)) fun s _ => s.isDone = true := by
  refine ⟨rfl, fun found _ => ?_⟩
  cases found with
  | false => exact ⟨rfl, fun _ _ => rfl⟩
  | true => exact ⟨rfl, fun _ _ => ⟨rfl, fun _ _ => rfl⟩⟩

/-- **The programs keep to the stages.** -/
theorem follows_prog (c : StoreCall δ) : Follows (storeDiscipline codec path) c.start
    (c.prog codec path) fun s _ => s.isDone = true := by
  cases c with
  | read default =>
    refine ⟨rfl, fun found _ => ?_⟩
    cases found with
    | false => exact ⟨rfl, fun _ _ => rfl⟩
    | true =>
      refine ⟨rfl, fun content _ => ?_⟩
      cases content with
      | none => exact ⟨rfl, fun _ _ => rfl⟩
      | some text => exact ⟨rfl, fun _ _ => rfl⟩
  | write data =>
    refine ⟨rfl, fun hex _ => ?_⟩
    show Follows _ (match codec.dumps data with
      | none => StoreStage.cleans hex false
      | some text => StoreStage.writes hex text data)
      (((tryWrite codec path (tmpName path hex) data).bind fun ok =>
        (cleanUp (tmpName path hex)).bind fun _ => .ret ok).bind fun ok =>
          StoreOp.perform (.finished ok)) _
    unfold tryWrite
    cases codec.dumps data with
    | none => exact follows_cleanUp codec path
    | some text =>
      refine ⟨rfl, fun written _ => ?_⟩
      cases written with
      | false => exact follows_cleanUp codec path
      | true =>
        refine ⟨rfl, fun replaced _ => ?_⟩
        exact follows_cleanUp codec path

/-! ## Names -/

variable {codec path}

theorem tmpName_injective {hex hex' : String} (h : tmpName path hex = tmpName path hex') :
    hex = hex' := by
  have hlist := congrArg String.toList h
  simp only [tmpName, String.toList_append] at hlist
  exact String.toList_injective (List.append_cancel_left (List.append_cancel_right hlist))

theorem tmpName_ne_path {hex : String} : tmpName path hex ≠ path := by
  intro h
  have hlen := congrArg (List.length ∘ String.toList) h
  simp [tmpName] at hlen

/-! ## Calls -/

variable {ι : Type} (codec path) (calls : ι → StoreCall δ) (disk : Disk)
  (tr : List (StoreStep δ ι))

/-- The path holds the data of the last replace, or what it held at first. -/
def Content (u : Disk) : Prop :=
  match lastReplaced calls tr with
  | none => u.files path = disk.files path
  | some data => ∃ text, codec.dumps data = some text ∧ u.files path = some text

/-- The data is what the register was at some moment since the call began. -/
def Seen (i : ι) (data : δ) : Prop := ∀ default, calls i = .read default →
  ∃ tr₁ tr₂, tr = tr₁ ++ tr₂ ∧ (∃ t ∈ tr₁, t.act.1 = i) ∧
    data = register codec path calls disk default tr₁

/-- The call has left the path as it was. -/
def Unchanged (i : ι) : Prop :=
  ∀ t ∈ tr, t.act.1 = i → t.post.shared.files path = t.pre.shared.files path

/-- The call has put its data at the path. -/
def Stored (i : ι) : Prop := ∃ t ∈ tr, t.act.1 = i ∧ ∃ data text, calls i = .write data ∧
  StoreStep.replaced calls t = some data ∧ codec.dumps data = some text ∧
    t.post.shared.files path = some text

/-- **What is true of a call** at the stage `s`, on the disk `u`. -/
structure Local (u : Disk) (i : ι) (s : StoreStage δ) : Prop where
  call : s.OfCall (calls i)
  issued : ∀ hex, s.hex = some hex → hex ∈ u.issued
  drawn : ∀ t ∈ tr, t.act.1 = i → StoreStep.op t = some .uuid4 → s.hex = some t.act.2.token
  begun : ∀ default, s = .sees default → ∃ t ∈ tr, t.act.1 = i
  seen : ∀ data, s = .holds data → Seen codec path calls disk tr i data
  written : ∀ hex text data, s = .replaces hex text data →
    codec.dumps data = some text ∧ u.files (tmpName path hex) = some text
  dumped : ∀ hex text data, s = .writes hex text data → codec.dumps data = some text
  unchanged : s.unreplaced = true → Unchanged path tr i
  stored : s.succeeded = true → Stored codec path calls tr i
  gone : ∀ hex, s.gone = some hex → u.files (tmpName path hex) = none

variable {codec path calls disk tr} {u v : Disk} {i j : ι} {s s' : StoreStage δ}
  {t : StoreStep δ ι}

theorem Seen.snoc {data : δ} (h : Seen codec path calls disk tr i data) :
    Seen codec path calls disk (tr ++ [t]) i data := by
  intro default hc
  obtain ⟨tr₁, tr₂, rfl, hbegun, hdata⟩ := h default hc
  exact ⟨tr₁, tr₂ ++ [t], by simp, hbegun, hdata⟩

theorem Unchanged.snoc (h : Unchanged path tr i)
    (ht : t.act.1 = i → t.post.shared.files path = t.pre.shared.files path) :
    Unchanged path (tr ++ [t]) i :=
  List.forall_mem_append.mpr ⟨h, List.forall_mem_singleton.mpr ht⟩

theorem Stored.snoc (h : Stored codec path calls tr i) : Stored codec path calls (tr ++ [t]) i :=
  let ⟨t', ht', h⟩ := h
  ⟨t', List.mem_append_left _ ht', h⟩

/-- **A step of another call** changes nothing for this one. -/
theorem Local.frame (h : Local codec path calls disk tr u i s) (ht : t.act.1 ≠ i)
    (hissued : ∀ hex ∈ u.issued, hex ∈ v.issued)
    (hfiles : ∀ hex, s.hex = some hex → v.files (tmpName path hex) = u.files (tmpName path hex)) :
    Local codec path calls disk (tr ++ [t]) v i s := by
  refine ⟨h.call, fun hex hs => hissued hex (h.issued hex hs), ?_,
    fun default hs => ?_, fun data hs => (h.seen data hs).snoc, fun hex text data hs => ?_,
    h.dumped, fun hs => (h.unchanged hs).snoc fun hi => absurd hi ht,
    fun hs => (h.stored hs).snoc, fun hex hs => ?_⟩
  · exact List.forall_mem_append.mpr ⟨h.drawn,
      List.forall_mem_singleton.mpr fun hi => absurd hi ht⟩
  · obtain ⟨t', ht', hi⟩ := h.begun default hs
    exact ⟨t', List.mem_append_left _ ht', hi⟩
  · obtain ⟨hdumps, htmp⟩ := h.written hex text data hs
    refine ⟨hdumps, ?_⟩
    rw [hfiles hex (by rw [hs]; rfl), htmp]
  · have hhex : s.hex = some hex := by
      cases s <;> simp_all [StoreStage.gone, StoreStage.hex]
    rw [hfiles hex hhex, h.gone hex hs]

/-- **A step of the call itself**, to a stage with the same name. -/
theorem Local.move (h : Local codec path calls disk tr u i s) (ht : t.act.1 = i)
    (hop : StoreStep.op t ≠ some .uuid4) (hcall : s'.OfCall (calls i)) (hhex : s'.hex = s.hex)
    (hissued : v.issued = u.issued)
    (hseen : ∀ data, s' = .holds data → Seen codec path calls disk (tr ++ [t]) i data)
    (hwritten : ∀ hex text data, s' = .replaces hex text data →
      codec.dumps data = some text ∧ v.files (tmpName path hex) = some text)
    (hdumped : ∀ hex text data, s' ≠ .writes hex text data)
    (hunreplaced : s'.unreplaced = true →
      s.unreplaced = true ∧ t.post.shared.files path = t.pre.shared.files path)
    (hstored : s'.succeeded = true → s.succeeded = true ∨ Stored codec path calls [t] i)
    (hgone : ∀ hex, s'.gone = some hex → v.files (tmpName path hex) = none) :
    Local codec path calls disk (tr ++ [t]) v i s' := by
  refine ⟨hcall, fun hex hs => ?_, ?_, fun _ _ => ⟨t, by simp, ht⟩, hseen, hwritten,
    fun hex text data hs => absurd hs (hdumped hex text data), fun hs => ?_, fun hs => ?_, hgone⟩
  · rw [hissued]
    exact h.issued hex (hhex ▸ hs)
  · rw [hhex]
    exact List.forall_mem_append.mpr ⟨h.drawn,
      List.forall_mem_singleton.mpr fun _ hop' => absurd hop' hop⟩
  · obtain ⟨hun, hpath⟩ := hunreplaced hs
    exact (h.unchanged hun).snoc fun _ => hpath
  · rcases hstored hs with hs | ⟨t', ht', h'⟩
    · exact (h.stored hs).snoc
    · exact ⟨t', List.mem_append_right _ ht', h'⟩

/-! ## The path -/

/-- **The register is what the path is read as.** -/
theorem Content.value (h : Content codec path calls disk tr u) (default : δ) :
    codec.value default (u.files path) = register codec path calls disk default tr := by
  unfold Content at h
  unfold register
  cases hlast : lastReplaced calls tr with
  | none =>
    rw [hlast] at h
    rw [show u.files path = _ from h]
    rfl
  | some data =>
    rw [hlast] at h
    obtain ⟨text, hdumps, hpath⟩ := h
    rw [hpath]
    simp [Codec.value, codec.loads_dumps data text hdumps]

theorem Content.same (h : Content codec path calls disk tr u)
    (ht : StoreStep.replaced calls t = none) (hv : v.files path = u.files path) :
    Content codec path calls disk (tr ++ [t]) v := by
  have hlast : lastReplaced calls (tr ++ [t]) = lastReplaced calls tr := by
    rw [lastReplaced, hist_snoc, ht]
    rfl
  rw [Content, hlast, hv]
  exact h

theorem content_of_replaced {data : δ} {text : String}
    (ht : StoreStep.replaced calls t = some data) (hdumps : codec.dumps data = some text)
    (hv : v.files path = some text) : Content codec path calls disk (tr ++ [t]) v := by
  have hlast : lastReplaced calls (tr ++ [t]) = some data := by
    rw [lastReplaced, hist_snoc, ht]
    rfl
  rw [Content, hlast]
  exact ⟨text, hdumps, hv⟩

theorem replaced_eq_none (h : ∀ src dst, StoreStep.op t ≠ some (.replace src dst)) :
    StoreStep.replaced calls t = none := by
  unfold StoreStep.replaced
  split
  next hop => exact absurd hop (h _ _)
  · rfl

/-! ## Steps -/

variable (codec path calls disk tr) in
/-- What a step from the stage `s` to the stage `s'` comes to. -/
structure Moved (t : StoreStep δ ι) (s s' : StoreStage δ) : Prop where
  own : Local codec path calls disk (tr ++ [t]) t.post.shared t.act.1 s'
  content : Content codec path calls disk (tr ++ [t]) t.post.shared
  issued : ∀ hex ∈ t.pre.shared.issued, hex ∈ t.post.shared.issued
  files : ∀ name, name ≠ path → (∀ hex, s'.hex = some hex → name ≠ tmpName path hex) →
    t.post.shared.files name = t.pre.shared.files name
  name : s'.hex = s.hex ∨ ∃ hex, s'.hex = some hex ∧ hex ∉ t.pre.shared.issued

theorem Moved.quiet (hc : Content codec path calls disk tr t.pre.shared)
    (hown : Local codec path calls disk (tr ++ [t]) t.post.shared t.act.1 s')
    (hv : t.post.shared = t.pre.shared) (hop : ∀ src dst, StoreStep.op t ≠ some (.replace src dst))
    (hhex : s'.hex = s.hex) : Moved codec path calls disk tr t s s' := by
  refine ⟨hown, hc.same (replaced_eq_none hop) (by rw [hv]), ?_, ?_, .inl hhex⟩
  · rw [hv]
    exact fun _ h => h
  · rw [hv]
    exact fun _ _ _ => rfl

theorem Moved.touches {hex : String} {content : Option String}
    (hc : Content codec path calls disk tr t.pre.shared)
    (hown : Local codec path calls disk (tr ++ [t]) t.post.shared t.act.1 s')
    (hv : t.post.shared = t.pre.shared.set (tmpName path hex) content)
    (hop : ∀ src dst, StoreStep.op t ≠ some (.replace src dst)) (hs : s.hex = some hex)
    (hs' : s'.hex = some hex) : Moved codec path calls disk tr t s s' := by
  refine ⟨hown, hc.same (replaced_eq_none hop) ?_, ?_, fun name _ hname => ?_,
    .inl (hs'.trans hs.symm)⟩
  · rw [hv, Disk.set_files_of_ne _ _ tmpName_ne_path.symm]
  · rw [hv]
    exact fun _ h => h
  · rw [hv, Disk.set_files_of_ne _ _ (hname hex hs')]

section

variable (hc : Content codec path calls disk tr t.pre.shared)
include hc

theorem seen_now {default data : δ} (hquiet : StoreStep.replaced calls t = none)
    (hv : t.post.shared = t.pre.shared) (hcall : calls t.act.1 = .read default)
    (hdata : data = codec.value default (t.pre.shared.files path)) :
    Seen codec path calls disk (tr ++ [t]) t.act.1 data := by
  intro default' hcall'
  obtain rfl : default = default' := by simpa using hcall.symm.trans hcall'
  refine ⟨tr ++ [t], [], by simp, ⟨t, by simp, rfl⟩, ?_⟩
  rw [hdata, ← hv]
  exact (hc.same hquiet (by rw [hv])).value default

theorem moved_reads {default : δ} {found : Bool}
    (h : Local codec path calls disk tr t.pre.shared t.act.1 (.reads default))
    (ho : StoreStep.op t = some (.pathExists path)) (hv : t.post.shared = t.pre.shared)
    (hfound : found = (t.pre.shared.files path).isSome) :
    Moved codec path calls disk tr t (.reads default)
      (if found then .sees default else .holds default) := by
  have hop : StoreStep.op t ≠ some .uuid4 := by simp [ho]
  have hquiet : ∀ src dst, StoreStep.op t ≠ some (.replace src dst) := by simp [ho]
  cases found with
  | true =>
    refine .quiet hc (h.move rfl hop h.call rfl (by rw [hv]) ?_ ?_ ?_ ?_ ?_ ?_) hv hquiet rfl
    all_goals simp [StoreStage.unreplaced, StoreStage.succeeded, StoreStage.gone]
  | false =>
    have hnone : t.pre.shared.files path = none := by simpa using hfound.symm
    refine .quiet hc (h.move rfl hop trivial rfl (by rw [hv]) ?_ ?_ ?_ ?_ ?_ ?_) hv hquiet rfl
    · rintro data ⟨⟩
      exact seen_now hc (replaced_eq_none hquiet) hv h.call (by rw [hnone]; rfl)
    all_goals simp [StoreStage.unreplaced, StoreStage.succeeded, StoreStage.gone]

theorem moved_sees {default : δ}
    (h : Local codec path calls disk tr t.pre.shared t.act.1 (.sees default))
    (ho : StoreStep.op t = some (.readText path)) (hv : t.post.shared = t.pre.shared) :
    Moved codec path calls disk tr t (.sees default)
      (.holds (codec.value default (t.pre.shared.files path))) := by
  have hop : StoreStep.op t ≠ some .uuid4 := by simp [ho]
  have hquiet : ∀ src dst, StoreStep.op t ≠ some (.replace src dst) := by simp [ho]
  refine .quiet hc (h.move rfl hop trivial rfl (by rw [hv]) ?_ ?_ ?_ ?_ ?_ ?_) hv hquiet rfl
  · rintro data ⟨⟩
    exact seen_now hc (replaced_eq_none hquiet) hv h.call rfl
  all_goals simp [StoreStage.unreplaced, StoreStage.succeeded, StoreStage.gone]

theorem moved_holds {data : δ}
    (h : Local codec path calls disk tr t.pre.shared t.act.1 (.holds data))
    (ho : StoreStep.op t = some (.returned data)) (hv : t.post.shared = t.pre.shared) :
    Moved codec path calls disk tr t (.holds data) (.done none) := by
  refine .quiet hc (h.move rfl (by simp [ho]) trivial rfl (by rw [hv]) ?_ ?_ ?_ ?_ ?_ ?_) hv
    (by simp [ho]) rfl
  all_goals simp [StoreStage.unreplaced, StoreStage.succeeded, StoreStage.gone]

theorem moved_draws {data : δ} {hex : String}
    (h : Local codec path calls disk tr t.pre.shared t.act.1 (.draws data))
    (ho : StoreStep.op t = some .uuid4) (htoken : hex = t.act.2.token)
    (hfresh : hex ∉ t.pre.shared.issued)
    (hv : t.post.shared = { t.pre.shared with issued := hex :: t.pre.shared.issued }) :
    Moved codec path calls disk tr t (.draws data)
      (match codec.dumps data with
        | none => .cleans hex false
        | some text => .writes hex text data) := by
  have hquiet : ∀ src dst, StoreStep.op t ≠ some (.replace src dst) := by simp [ho]
  have hpath : t.post.shared.files path = t.pre.shared.files path := by rw [hv]
  have hunchanged : Unchanged path (tr ++ [t]) t.act.1 := (h.unchanged rfl).snoc fun _ => hpath
  have hdrawn : ∀ t' ∈ tr ++ [t], t'.act.1 = t.act.1 → StoreStep.op t' = some .uuid4 →
      some hex = some t'.act.2.token := by
    refine List.forall_mem_append.mpr ⟨fun t' ht' hi hop => ?_, ?_⟩
    · exact absurd (h.drawn t' ht' hi hop) (by simp [StoreStage.hex])
    · exact List.forall_mem_singleton.mpr fun _ _ => congrArg some htoken
  have hissued : hex ∈ t.post.shared.issued := by
    rw [hv]
    exact List.mem_cons_self
  have hmem : ∀ hex' ∈ t.pre.shared.issued, hex' ∈ t.post.shared.issued := by
    rw [hv]
    exact fun _ hm => List.mem_cons_of_mem _ hm
  have hfiles : ∀ name, t.post.shared.files name = t.pre.shared.files name := by simp [hv]
  cases hdumps : codec.dumps data with
  | none =>
    refine ⟨⟨trivial, ?_, hdrawn, by simp, by simp, by simp, by simp, fun _ => hunchanged,
        by simp [StoreStage.succeeded], by simp [StoreStage.gone]⟩,
      hc.same (replaced_eq_none hquiet) hpath, hmem, fun name _ _ => hfiles name,
      .inr ⟨hex, rfl, hfresh⟩⟩
    rintro hex' ⟨⟩
    exact hissued
  | some text =>
    refine ⟨⟨h.call, ?_, hdrawn, by simp, by simp, by simp, ?_, fun _ => hunchanged,
        by simp [StoreStage.succeeded], by simp [StoreStage.gone]⟩,
      hc.same (replaced_eq_none hquiet) hpath, hmem, fun name _ _ => hfiles name,
      .inr ⟨hex, rfl, hfresh⟩⟩
    · rintro hex' ⟨⟩
      exact hissued
    · rintro hex' text' data' ⟨⟩
      exact hdumps

theorem moved_writes {hex text : String} {data : δ} (ok : Bool) {content : Option String}
    (h : Local codec path calls disk tr t.pre.shared t.act.1 (.writes hex text data))
    (ho : StoreStep.op t = some (.writeText (tmpName path hex) text))
    (hok : ok = true → content = some text)
    (hv : t.post.shared = t.pre.shared.set (tmpName path hex) content) :
    Moved codec path calls disk tr t (.writes hex text data)
      (if ok then .replaces hex text data else .cleans hex false) := by
  have hop : StoreStep.op t ≠ some .uuid4 := by simp [ho]
  have hquiet : ∀ src dst, StoreStep.op t ≠ some (.replace src dst) := by simp [ho]
  have hpath : t.post.shared.files path = t.pre.shared.files path := by
    rw [hv, Disk.set_files_of_ne _ _ tmpName_ne_path.symm]
  have hissued : t.post.shared.issued = t.pre.shared.issued := by rw [hv, Disk.set_issued]
  cases ok with
  | true =>
    refine .touches hc (h.move rfl hop h.call rfl hissued (by simp) ?_ (by simp)
      (fun _ => ⟨rfl, hpath⟩) (by simp [StoreStage.succeeded]) (by simp [StoreStage.gone])) hv
      hquiet rfl rfl
    rintro hex' text' data' ⟨⟩
    refine ⟨h.dumped hex text data rfl, ?_⟩
    rw [hv, hok rfl, Disk.set_files_self]
  | false =>
    exact .touches hc (h.move rfl hop trivial rfl hissued (by simp) (by simp) (by simp)
      (fun _ => ⟨rfl, hpath⟩) (by simp [StoreStage.succeeded]) (by simp [StoreStage.gone])) hv
      hquiet rfl rfl

/-- **The replace**: the path takes the text of the tmp file, or nothing happens. -/
theorem moved_replaces {hex text : String} {data : δ} {ok : Bool}
    (h : Local codec path calls disk tr t.pre.shared t.act.1 (.replaces hex text data))
    (ho : StoreStep.op t = some (.replace (tmpName path hex) path))
    (hfails : ok = !t.act.2.fails)
    (hv : t.post.shared = if ok then
      (t.pre.shared.set path (some text)).set (tmpName path hex) none else t.pre.shared) :
    Moved codec path calls disk tr t (.replaces hex text data) (.cleans hex ok) := by
  have hop : StoreStep.op t ≠ some .uuid4 := by simp [ho]
  obtain ⟨hdumps, htmp⟩ := h.written hex text data rfl
  have hcall : calls t.act.1 = .write data := h.call
  have hissued : t.post.shared.issued = t.pre.shared.issued := by
    rw [hv]
    split_ifs <;> rfl
  have hreplaced : StoreStep.replaced calls t = if ok then some data else none := by
    unfold StoreStep.replaced
    rw [ho, hcall, hfails]
    simp [htmp]
  cases ok with
  | true =>
    have hpath : t.post.shared.files path = some text := by
      rw [hv, if_pos rfl, Disk.set_files_of_ne _ _ tmpName_ne_path.symm, Disk.set_files_self]
    refine ⟨h.move rfl hop trivial rfl hissued (by simp) (by simp) (by simp)
      (by simp [StoreStage.unreplaced]) (fun _ => .inr ⟨t, by simp, rfl, data, text, hcall,
        hreplaced, hdumps, hpath⟩) (by simp [StoreStage.gone]),
      content_of_replaced hreplaced hdumps hpath, by rw [hissued]; exact fun _ hm => hm,
      fun name hname htmpName => ?_, .inl rfl⟩
    rw [hv, if_pos rfl, Disk.set_files_of_ne _ _ (htmpName hex rfl), Disk.set_files_of_ne _ _ hname]
  | false =>
    have hsame : t.post.shared = t.pre.shared := hv
    refine ⟨h.move rfl hop trivial rfl hissued (by simp) (by simp) (by simp)
      (fun _ => ⟨rfl, by rw [hsame]⟩) (by simp [StoreStage.succeeded]) (by simp [StoreStage.gone]),
      hc.same hreplaced (by rw [hsame]), by rw [hissued]; exact fun _ hm => hm,
      fun name _ _ => by rw [hsame], .inl rfl⟩

theorem moved_cleans {hex : String} {ok found : Bool}
    (h : Local codec path calls disk tr t.pre.shared t.act.1 (.cleans hex ok))
    (ho : StoreStep.op t = some (.pathExists (tmpName path hex)))
    (hv : t.post.shared = t.pre.shared)
    (hfound : found = (t.pre.shared.files (tmpName path hex)).isSome) :
    Moved codec path calls disk tr t (.cleans hex ok)
      (if found then .unlinks hex ok else .ends hex ok) := by
  have hop : StoreStep.op t ≠ some .uuid4 := by simp [ho]
  have hquiet : ∀ src dst, StoreStep.op t ≠ some (.replace src dst) := by simp [ho]
  have hpath : t.post.shared.files path = t.pre.shared.files path := by rw [hv]
  cases found with
  | true =>
    exact .quiet hc (h.move rfl hop trivial rfl (by rw [hv]) (by simp) (by simp) (by simp)
      (fun hun => ⟨hun, hpath⟩) .inl (by simp [StoreStage.gone])) hv hquiet rfl
  | false =>
    refine .quiet hc (h.move rfl hop trivial rfl (by rw [hv]) (by simp) (by simp) (by simp)
      (fun hun => ⟨hun, hpath⟩) .inl ?_) hv hquiet rfl
    rintro hex' ⟨⟩
    rw [hv]
    simpa using hfound.symm

theorem moved_unlinks {hex : String} {ok : Bool}
    (h : Local codec path calls disk tr t.pre.shared t.act.1 (.unlinks hex ok))
    (ho : StoreStep.op t = some (.unlink (tmpName path hex)))
    (hv : t.post.shared = t.pre.shared.set (tmpName path hex) none) :
    Moved codec path calls disk tr t (.unlinks hex ok) (.ends hex ok) := by
  have hpath : t.post.shared.files path = t.pre.shared.files path := by
    rw [hv, Disk.set_files_of_ne _ _ tmpName_ne_path.symm]
  have hissued : t.post.shared.issued = t.pre.shared.issued := by rw [hv, Disk.set_issued]
  refine .touches hc (h.move rfl (by simp [ho]) trivial rfl hissued (by simp) (by simp) (by simp)
    (fun hun => ⟨hun, hpath⟩) .inl ?_) hv (by simp [ho]) rfl rfl
  rintro hex' ⟨⟩
  rw [hv, Disk.set_files_self]

theorem moved_ends {hex : String} {ok : Bool}
    (h : Local codec path calls disk tr t.pre.shared t.act.1 (.ends hex ok))
    (ho : StoreStep.op t = some (.finished ok)) (hv : t.post.shared = t.pre.shared) :
    Moved codec path calls disk tr t (.ends hex ok) (.done (some hex)) := by
  refine .quiet hc (h.move rfl (by simp [ho]) trivial rfl (by rw [hv]) (by simp) (by simp)
    (by simp) (by simp [StoreStage.unreplaced]) (by simp [StoreStage.succeeded]) ?_) hv (by simp [ho])
    rfl
  rintro hex' ⟨⟩
  rw [hv]
  exact h.gone hex rfl

end

/-- **What a step of a call comes to**, from any stage. -/
theorem moved (hc : Content codec path calls disk tr t.pre.shared)
    (h : Local codec path calls disk tr t.pre.shared t.act.1 s) {o : StoreOp δ} {a : o.Ans}
    (hs : s.op path = some o) (ho : StoreStep.op t = some o)
    (hexec : o.exec path t.act.2 t.pre.shared = some (a, t.post.shared)) :
    Moved codec path calls disk tr t s (s.next codec o a) := by
  cases s with
  | done drawn => exact absurd hs (by simp [StoreStage.op])
  | reads default =>
    obtain rfl := Option.some.inj hs
    obtain ⟨hfound, hv⟩ := Prod.ext_iff.mp (Option.some.inj hexec)
    exact moved_reads hc h ho hv.symm hfound.symm
  | sees default =>
    obtain rfl := Option.some.inj hs
    obtain ⟨hcontent, hv⟩ := Prod.ext_iff.mp (Option.some.inj hexec)
    obtain rfl : t.pre.shared.files path = a := hcontent
    exact moved_sees hc h ho hv.symm
  | holds data =>
    obtain rfl := Option.some.inj hs
    obtain ⟨-, hv⟩ := Prod.ext_iff.mp (Option.some.inj hexec)
    exact moved_holds hc h ho hv.symm
  | draws data =>
    obtain rfl := Option.some.inj hs
    rw [StoreOp.exec] at hexec
    split_ifs at hexec with hfresh
    obtain ⟨htoken, hv⟩ := Prod.ext_iff.mp (Option.some.inj hexec)
    obtain rfl : t.act.2.token = a := htoken
    exact moved_draws hc h ho rfl (fun hm => hfresh (.inl hm)) hv.symm
  | writes hex text data =>
    obtain rfl := Option.some.inj hs
    rw [StoreOp.exec] at hexec
    split_ifs at hexec with hfails
    · obtain ⟨hok, hv⟩ := Prod.ext_iff.mp (Option.some.inj hexec)
      obtain rfl : false = a := hok
      exact moved_writes hc false h ho (by simp) hv.symm
    · obtain ⟨hok, hv⟩ := Prod.ext_iff.mp (Option.some.inj hexec)
      obtain rfl : true = a := hok
      exact moved_writes hc true h ho (fun _ => rfl) hv.symm
  | replaces hex text data =>
    obtain rfl := Option.some.inj hs
    rw [StoreOp.exec, (h.written hex text data rfl).2] at hexec
    dsimp only at hexec
    split_ifs at hexec with hfails
    · obtain ⟨hok, hv⟩ := Prod.ext_iff.mp (Option.some.inj hexec)
      obtain rfl : false = a := hok
      exact moved_replaces hc h ho (by simp [hfails]) hv.symm
    · obtain ⟨hok, hv⟩ := Prod.ext_iff.mp (Option.some.inj hexec)
      obtain rfl : true = a := hok
      exact moved_replaces hc h ho (by simp [hfails]) hv.symm
  | cleans hex ok =>
    obtain rfl := Option.some.inj hs
    obtain ⟨hfound, hv⟩ := Prod.ext_iff.mp (Option.some.inj hexec)
    exact moved_cleans hc h ho hv.symm hfound.symm
  | unlinks hex ok =>
    obtain rfl := Option.some.inj hs
    obtain ⟨-, hv⟩ := Prod.ext_iff.mp (Option.some.inj hexec)
    exact moved_unlinks hc h ho hv.symm
  | ends hex ok =>
    obtain rfl := Option.some.inj hs
    obtain ⟨-, hv⟩ := Prod.ext_iff.mp (Option.some.inj hexec)
    exact moved_ends hc h ho hv.symm

/-! ## Runs -/

variable [DecidableEq ι]

variable (codec path calls disk tr) in
/-- **The invariant**, with the stages `q` of the calls. -/
structure StoreInv (q : ι → StoreStage δ) (w : Pool (StoreOp δ) StoreOp.Ans Disk ι) : Prop where
  content : Content codec path calls disk tr w.shared
  calls : ∀ i, Local codec path calls disk tr w.shared i (q i)
  distinct : ∀ i j hex, (q i).hex = some hex → (q j).hex = some hex → i = j
  follows : ∀ i, Follows (storeDiscipline codec path) (q i) (w.threads i)
    fun s _ => s.isDone = true

theorem storeInv_init {w : Pool (StoreOp δ) StoreOp.Ans Disk ι}
    (h : (storePool codec path calls disk).init w) :
    StoreInv codec path calls disk [] (fun i => (calls i).start) w := by
  obtain rfl := h
  have hhex : ∀ i, (calls i).start.hex = none := by
    intro i
    cases calls i <;> rfl
  refine ⟨rfl, fun i => ?_, fun i j hex hi => ?_, fun i => follows_prog codec path (calls i)⟩
  · refine ⟨?_, fun hex hs => ?_, by simp, ?_, ?_, ?_, ?_, fun _ => by simp [Unchanged], ?_, ?_⟩
    · cases hi : calls i <;> rfl
    · rw [hhex i] at hs
      exact absurd hs (by simp)
    all_goals cases calls i <;> simp [StoreCall.start, StoreStage.succeeded, StoreStage.gone]
  · rw [hhex i] at hi
    exact absurd hi (by simp)

theorem storeInv_step {q : ι → StoreStage δ} (ht : (storePool codec path calls disk).Takes t)
    (h : StoreInv codec path calls disk tr q t.pre) :
    ∃ q', StoreInv codec path calls disk (tr ++ [t]) q' t.post := by
  obtain ⟨o, a, ho, hexec, hs, hfollows⟩ := Follows.step ht h.follows
  have hmoved := moved h.content (h.calls t.act.1) hs ho hexec
  -- a call that has another name is not the one that moves
  have hother : ∀ j, j ≠ t.act.1 → ∀ hex, (q j).hex = some hex →
      ((q t.act.1).next codec o a).hex ≠ some hex := by
    intro j hj hex hq hnext
    rcases hmoved.name with hsame | ⟨new, hnew, hfresh⟩
    · exact hj (h.distinct j _ hex hq (hsame.symm.trans hnext))
    · obtain rfl := Option.some.inj (hnew.symm.trans hnext)
      exact hfresh ((h.calls j).issued new hq)
  refine ⟨Function.update q t.act.1 ((q t.act.1).next codec o a), hmoved.content, fun i => ?_,
    fun i j hex hi hj => ?_, hfollows trivial⟩
  · by_cases hi : i = t.act.1
    · subst hi
      rw [Function.update_self]
      exact hmoved.own
    · rw [Function.update_of_ne hi]
      refine (h.calls i).frame (Ne.symm hi) hmoved.issued fun hex hq => ?_
      refine hmoved.files _ tmpName_ne_path fun hex' hnext heq => ?_
      exact hother i hi hex hq (tmpName_injective heq ▸ hnext)
  · by_cases hit : i = t.act.1
    · by_cases hjt : j = t.act.1
      · rw [hit, hjt]
      · rw [hit, Function.update_self] at hi
        rw [Function.update_of_ne hjt] at hj
        exact absurd hi (hother j hjt hex hj)
    · rw [Function.update_of_ne hit] at hi
      by_cases hjt : j = t.act.1
      · rw [hjt, Function.update_self] at hj
        exact absurd hj (hother i hit hex hi)
      · rw [Function.update_of_ne hjt] at hj
        exact h.distinct i j hex hi hj

/-- **The rule for runs.** -/
theorem storeInv_run {w w' : Pool (StoreOp δ) StoreOp.Ans Disk ι}
    (hw : (storePool codec path calls disk).init w)
    (h : Run (storePool codec path calls disk) w tr w') :
    ∃ q, StoreInv codec path calls disk tr q w' := by
  induction h with
  | nil => exact ⟨_, storeInv_init hw⟩
  | @snoc v w' tr a _ ha ih =>
    obtain ⟨q, hq⟩ := ih
    exact storeInv_step (t := ⟨v, a, w'⟩) ha hq

theorem StoreInv.op_eq {q : ι → StoreStage δ} (ht : (storePool codec path calls disk).Takes t)
    (h : StoreInv codec path calls disk tr q t.pre) :
    (q t.act.1).op path = StoreStep.op t := by
  obtain ⟨o, -, ho, -, hs, -⟩ := Follows.step ht h.follows
  exact hs.trans ho.symm

theorem eq_holds_of_op {data : δ} (h : s.op path = some (.returned data)) : s = .holds data := by
  cases s <;> simp_all [StoreStage.op]

theorem eq_ends_of_op {ok : Bool} (h : s.op path = some (.finished ok)) :
    ∃ hex, s = .ends hex ok := by
  cases s <;> simp_all [StoreStage.op]

section

variable {w : Pool (StoreOp δ) StoreOp.Ans Disk ι} (hw : (storePool codec path calls disk).init w)
  (hrun : Run (storePool codec path calls disk) w tr t.pre)
  (ht : (storePool codec path calls disk).Takes t)
include hw hrun ht

theorem seen_of_returned {data : δ} (hop : StoreStep.op t = some (.returned data)) :
    Seen codec path calls disk tr t.act.1 data := by
  obtain ⟨q, hq⟩ := storeInv_run hw hrun
  exact (hq.calls t.act.1).seen data (eq_holds_of_op ((hq.op_eq ht).trans hop))

/-- What a read returns is what the path held at some moment of the call. -/
theorem held_of_returned {data default : δ} (hop : StoreStep.op t = some (.returned data))
    (hcall : calls t.act.1 = .read default) :
    ∃ tr₁ tr₂ u, tr = tr₁ ++ tr₂ ∧ (∃ t' ∈ tr₁, t'.act.1 = t.act.1) ∧
      Run (storePool codec path calls disk) w tr₁ u ∧
        data = codec.value default (u.shared.files path) := by
  obtain ⟨tr₁, tr₂, rfl, hbegun, hdata⟩ := seen_of_returned hw hrun ht hop default hcall
  obtain ⟨u, hrun₁, -⟩ := hrun.split
  obtain ⟨q, hq⟩ := storeInv_run hw hrun₁
  exact ⟨tr₁, tr₂, u, rfl, hbegun, hrun₁, hdata.trans (hq.content.value default).symm⟩

theorem stored_of_finished {data : δ} (hop : StoreStep.op t = some (.finished true))
    (hcall : calls t.act.1 = .write data) : ∃ t' ∈ tr, t'.act.1 = t.act.1 ∧
      StoreStep.replaced calls t' = some data ∧
        ∃ text, codec.dumps data = some text ∧ t'.post.shared.files path = some text := by
  obtain ⟨q, hq⟩ := storeInv_run hw hrun
  obtain ⟨hex, hstage⟩ := eq_ends_of_op ((hq.op_eq ht).trans hop)
  obtain ⟨t', ht', hi, data', text, hcall', hreplaced, hdumps, hpath⟩ :=
    (hq.calls t.act.1).stored (by rw [hstage]; rfl)
  obtain rfl := StoreCall.write.inj (hcall'.symm.trans hcall)
  exact ⟨t', ht', hi, hreplaced, text, hdumps, hpath⟩

end

variable (codec path calls disk) in
/-- **The JSON store is an atomic register.** -/
theorem atomicRegister (x : Execution (storePool codec path calls disk)) :
    AtomicRegister codec path calls disk x where
  reads tr₁ t tr₂ default data hx hcall hop := by
    obtain ⟨h₁, ht, -⟩ := (hx ▸ x.run).around
    exact seen_of_returned x.init h₁ ht hop default hcall
  stored tr₁ t tr₂ data hx hcall hop := by
    obtain ⟨h₁, ht, -⟩ := (hx ▸ x.run).around
    exact stored_of_finished x.init h₁ ht hop hcall
  raised tr₁ t tr₂ hx hop := by
    obtain ⟨h₁, ht, -⟩ := (hx ▸ x.run).around
    obtain ⟨q, hq⟩ := storeInv_run x.init h₁
    obtain ⟨hex, hstage⟩ := eq_ends_of_op ((hq.op_eq ht).trans hop)
    refine (hq.calls t.act.1).unchanged ?_
    rw [hstage]
    rfl
  tidy t ht hop hret := by
    obtain ⟨q, hq⟩ := storeInv_run x.init x.run
    have hlocal := hq.calls t.act.1
    have hdrawn := hlocal.drawn t ht rfl hop
    have hdone := hq.follows t.act.1
    rw [hret] at hdone
    refine hlocal.gone _ ?_
    cases hstage : q t.act.1 with
    | done drawn =>
      rw [hstage] at hdrawn
      exact hdrawn
    | _ =>
      rw [hstage] at hdone
      exact absurd (show _ = true from hdone) (by simp [StoreStage.isDone])

/-- A write and a read at once. -/
def writeAndRead : Bool → StoreCall Json
  | true => .write (.str "on")
  | false => .read .null

/-- The step returns the default of the read. -/
def StoreStep.returnsNull (t : StoreStep Json Bool) : Bool :=
  match StoreStep.op t with
  | some (.returned .null) => true
  | _ => false

/-- A read that has found no file returns its default, though the write is done by then. -/
example : ∃ x : Execution (storePool jsonCodec "state.json" writeAndRead ⟨fun _ => none, []⟩),
    ∃ t ∈ x.steps, StoreStep.returnsNull t = true ∧
      t.pre.shared.files "state.json" = some "\"on\"" :=
  exists_execution (u := _) (P := fun tr => ∃ t ∈ tr, StoreStep.returnsNull t = true ∧
      t.pre.shared.files "state.json" = some "\"on\"")
    [(true, {}), (true, {}), (false, {}), (true, {}), (true, {}), (false, {})] rfl (by decide)

end UpsOrchestrator

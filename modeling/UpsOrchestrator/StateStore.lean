import UpsOrchestrator.Lib.Json
import UpsOrchestrator.Lib.Prog

/-!
# The JSON store

`state_store.py`: `read_json` and `write_json` on one path, as programs over a file system that any
number of calls work on at once.

* `Codec`, `jsonCodec`: `json.dumps` and `json.loads`.
* `StoreOp`, `Disk`: the operations on the files of a directory; a fresh tmp name is one that no
  call has drawn and no file has.
* `readJson`, `writeJson`: the functions; `StoreCall.prog`, `storePool`: the calls.
* `register`: the value that the path stands for; `AtomicRegister`: every read returns it as it was
  at some moment within its call.
-/

set_option autoImplicit false

namespace UpsOrchestrator

open Lts

/-- `json.dumps` and `json.loads` on the data `δ`; what has been dumped loads as it was. -/
structure Codec (δ : Type) where
  dumps : δ → Option String
  loads : String → Option δ
  loads_dumps : ∀ data text, dumps data = some text → loads text = some data

/-- `json.dumps(data, indent=2)` -/
def fileStyle : Json.Style := { indent := some 2, commaSpace := false }

/-- The codec of the store. A value with a key twice, which no dictionary has, stands for data that
`json.dumps` raises on. -/
def jsonCodec : Codec Json where
  dumps data := if Json.distinct data then some (Json.dumps fileStyle data) else none
  loads := Json.loads
  loads_dumps data text h := by
    split_ifs at h with hd
    rw [← Option.some.inj h]
    exact Json.loads_dumps fileStyle hd

/-! ## The file system -/

inductive StoreOp (δ : Type)
  /-- `uuid.uuid4().hex` -/
  | uuid4
  | pathExists (name : String)
  | readText (name : String)
  | writeText (name text : String)
  /-- `os.replace` -/
  | replace (src dst : String)
  | unlink (name : String)
  /-- a read returns -/
  | returned (data : δ)
  /-- a write returns, or raises -/
  | finished (ok : Bool)
  deriving DecidableEq

/-- The answers; `none` and `false` stand for an exception. -/
abbrev StoreOp.Ans {δ : Type} : StoreOp δ → Type
  | uuid4 => String
  | pathExists _ => Bool
  | readText _ => Option String
  | writeText _ _ => Bool
  | replace _ _ => Bool
  | _ => Unit

/-- The files of the directory, and the tmp names that have been drawn. -/
structure Disk where
  files : String → Option String
  issued : List String := []

/-- What an operation meets: the next random name, whether it fails, and what a failing write leaves
of its file. -/
structure StoreEnv where
  token : String := ""
  fails : Bool := false
  partialText : Option String := none

def Disk.set (u : Disk) (name : String) (content : Option String) : Disk :=
  { u with files := Function.update u.files name content }

@[simp] theorem Disk.set_files_self (u : Disk) (name : String) (content : Option String) :
    (u.set name content).files name = content := Function.update_self ..

theorem Disk.set_files_of_ne (u : Disk) {name name' : String} (content : Option String)
    (h : name' ≠ name) : (u.set name content).files name' = u.files name' :=
  Function.update_of_ne h ..

@[simp] theorem Disk.set_issued (u : Disk) (name : String) (content : Option String) :
    (u.set name content).issued = u.issued := rfl

variable {δ : Type} (codec : Codec δ) (path : String)

/-- `path.parent / f"{path.name}.{hex}.tmp"` -/
def tmpName (hex : String) : String := path ++ "." ++ hex ++ ".tmp"

/-- What an operation does; each is atomic. -/
def StoreOp.exec : Prog.Exec (StoreOp δ) StoreOp.Ans Disk StoreEnv
  | uuid4, e, u =>
    if e.token ∈ u.issued ∨ (u.files (tmpName path e.token)).isSome then none
    else some (e.token, { u with issued := e.token :: u.issued })
  | pathExists name, _, u => some ((u.files name).isSome, u)
  | readText name, _, u => some (u.files name, u)
  | writeText name text, e, u =>
    if e.fails then some (false, u.set name e.partialText) else some (true, u.set name (some text))
  | replace src dst, e, u =>
    match u.files src with
    | none => some (false, u)
    | some text =>
      if e.fails then some (false, u) else some (true, (u.set dst (some text)).set src none)
  | unlink name, _, u => some ((), u.set name none)
  | returned _, _, u => some ((), u)
  | finished _, _, u => some ((), u)

/-! ## The functions -/

/-- A function of the store. -/
abbrev Store (δ α : Type) : Type := Prog (StoreOp δ) StoreOp.Ans α

/-- One operation. -/
abbrev StoreOp.perform (o : StoreOp δ) : Store δ o.Ans := Prog.perform o

/-- `read_json` -/
def readJson (default : δ) : Store δ δ := do
  if ← StoreOp.perform (.pathExists path) then
    match ← StoreOp.perform (.readText path) with
    | none => pure default
    | some text => pure ((codec.loads text).getD default)
  else pure default

/-- The `finally` of `write_json`. -/
def cleanUp (tmp : String) : Store δ Unit := do
  if ← StoreOp.perform (.pathExists tmp) then StoreOp.perform (.unlink tmp)
  else pure ()

/-- The `try` of `write_json`; `false` if it raises. -/
def tryWrite (tmp : String) (data : δ) : Store δ Bool :=
  match codec.dumps data with
  | none => pure false
  | some text => do
    if ← StoreOp.perform (.writeText tmp text) then StoreOp.perform (.replace tmp path)
    else pure false

/-- `write_json`; `false` if it raises. -/
def writeJson (data : δ) : Store δ Bool := do
  let hex ← StoreOp.perform .uuid4
  let tmp := tmpName path hex
  let ok ← tryWrite codec path tmp data
  cleanUp tmp
  pure ok

/-! ## The calls -/

inductive StoreCall (δ : Type)
  | read (default : δ)
  | write (data : δ)

/-- A call, with what comes of it. -/
def StoreCall.prog : StoreCall δ → Store δ Unit
  | read default => do
    let data ← readJson codec path default
    StoreOp.perform (.returned data)
  | write data => do
    let ok ← writeJson codec path data
    StoreOp.perform (.finished ok)

variable {ι : Type} [DecidableEq ι] (calls : ι → StoreCall δ) (disk : Disk)

/-- **The interleaved calls**, from a disk on which no name has been drawn. -/
def storePool : System (Pool (StoreOp δ) StoreOp.Ans Disk ι) (ι × StoreEnv) :=
  pool (StoreOp.exec path)
    ⟨{ disk with issued := [] }, fun i => (calls i).prog codec path⟩

/-- A step of one of the calls. -/
abbrev StoreStep (δ ι : Type) : Type :=
  Transition (Pool (StoreOp δ) StoreOp.Ans Disk ι) (ι × StoreEnv)

/-- The operation that the step performs. -/
def StoreStep.op (t : StoreStep δ ι) : Option (StoreOp δ) := (t.pre.threads t.act.1).head

/-- The data that the step puts at the path. -/
def StoreStep.replaced (t : StoreStep δ ι) : Option δ :=
  match calls t.act.1, StoreStep.op t with
  | .write data, some (.replace src _) =>
    if (t.pre.shared.files src).isSome && !t.act.2.fails then some data else none
  | _, _ => none

/-- The data of the last replace that has succeeded. -/
def lastReplaced (tr : List (StoreStep δ ι)) : Option δ :=
  hist (fun last t => (StoreStep.replaced calls t).or last) none tr

/-- What a content is read as. -/
def Codec.value (default : δ) (content : Option String) : δ :=
  (content.bind codec.loads).getD default

/-- **The register** after the steps `tr`, for a reader with that default. -/
def register (default : δ) (tr : List (StoreStep δ ι)) : δ :=
  (lastReplaced calls tr).getD (codec.value default (disk.files path))

/-- **The store is an atomic register.** -/
structure AtomicRegister (x : Execution (storePool codec path calls disk)) : Prop where
  /-- a read returns what the register was at some moment after it began and before it returned -/
  reads : ∀ tr₁ t tr₂ default data, x.steps = tr₁ ++ t :: tr₂ → calls t.act.1 = .read default →
    StoreStep.op t = some (.returned data) → ∃ tr tr', tr₁ = tr ++ tr' ∧
      (∃ t' ∈ tr, t'.act.1 = t.act.1) ∧ data = register codec path calls disk default tr
  /-- a write that returns has put its own data at the path -/
  stored : ∀ tr₁ t tr₂ data, x.steps = tr₁ ++ t :: tr₂ → calls t.act.1 = .write data →
    StoreStep.op t = some (.finished true) → ∃ t' ∈ tr₁, t'.act.1 = t.act.1 ∧
      StoreStep.replaced calls t' = some data ∧
        ∃ text, codec.dumps data = some text ∧ t'.post.shared.files path = some text
  /-- a write that raises has not changed the path -/
  raised : ∀ tr₁ t tr₂, x.steps = tr₁ ++ t :: tr₂ → StoreStep.op t = some (.finished false) →
    ∀ t' ∈ tr₁, t'.act.1 = t.act.1 → t'.post.shared.files path = t'.pre.shared.files path
  /-- the tmp file of a call is gone when the call has returned -/
  tidy : ∀ t ∈ x.steps, StoreStep.op t = some .uuid4 → x.last.threads t.act.1 = .ret () →
    x.last.shared.files (tmpName path t.act.2.token) = none

end UpsOrchestrator

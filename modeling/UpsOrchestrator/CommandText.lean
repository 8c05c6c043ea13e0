import UpsOrchestrator.AtomicStore
import UpsOrchestrator.CommandContract
import UpsOrchestrator.Desktop
import UpsOrchestrator.Lib.JsonMembers

/-!
# The texts of the command channel

A command is an object of JSON wherever it goes: in `command.json`, in the requests of those who
create it, ask for it and acknowledge it, and in the push to the desktop.

* `CommandFile`: `command.json` and what is done to it, on texts; a route may end in an error. The
  file is one of the JSON store: `getCommand_of_returned`, `saveCommand_of_finished`.
* `readMessage`, `readPreflight`: what the agent makes of a text.
* `Denotes`, `Stands`: an object, and a file, stand for a command of the context.
* `CommandCallStep`: what one call does; **`commandCallStep`**.
* **`commandTextsKept`**: after any calls the file stands for the command of the context, what was
  stored is all still there, and every reader of a text finds in it what the context says.
-/

set_option autoImplicit false

namespace UpsOrchestrator

open Json

/-! ## The file -/

/-- The text of `command.json`, if it exists. -/
abbrev CommandFile : Type := Option String

/-- The reply of a route, or the error that Flask makes a page of. -/
inductive Reply
  | json (code : ℕ) (value : Json)
  | error (code : ℕ)

namespace CommandFile

/-- `get_command` -/
def getCommand (file : CommandFile) : Json := (file.bind loads).getD (.obj [])

/-- `save_command` -/
def saveCommand (command : Json) : CommandFile := some (dumps fileStyle command)

section

open Lts

variable {ι : Type} [DecidableEq ι] {path : String} {calls : ι → StoreCall Json} {disk : Disk}
  {tr₁ tr₂ : List (StoreStep Json ι)} {t : StoreStep Json ι} {v : Json}
  (x : Execution (storePool jsonCodec path calls disk)) (hx : x.steps = tr₁ ++ t :: tr₂)
include hx

/-- **A `get_command` beside any other calls** finds what the file holds at some moment of it. -/
theorem getCommand_of_returned (hcall : calls t.act.1 = .read (.obj []))
    (hop : StoreStep.op t = some (.returned v)) :
    ∃ tr tr' u, tr₁ = tr ++ tr' ∧ (∃ t' ∈ tr, t'.act.1 = t.act.1) ∧
      Run (storePool jsonCodec path calls disk) x.start tr u ∧
        v = getCommand (u.shared.files path) := by
  obtain ⟨h₁, ht, -⟩ := (hx ▸ x.run).around
  exact held_of_returned x.init h₁ ht hop hcall

/-- **A `save_command` that returns** has been the file at some moment of it. -/
theorem saveCommand_of_finished (hcall : calls t.act.1 = .write v)
    (hop : StoreStep.op t = some (.finished true)) :
    ∃ t' ∈ tr₁, t'.act.1 = t.act.1 ∧ t'.post.shared.files path = saveCommand v := by
  obtain ⟨h₁, ht, -⟩ := (hx ▸ x.run).around
  obtain ⟨t', ht', hi, -, text, hdumps, hpath⟩ := stored_of_finished x.init h₁ ht hop hcall
  refine ⟨t', ht', hi, hpath.trans ?_⟩
  simp only [jsonCodec] at hdumps
  split_ifs at hdumps
  exact hdumps.symm

end

/-! ## Commands of the server -/

def upsStateMembers (e : Env) : List (String × Json) :=
  [("id", .str ("state-" ++ toString (e.clock .commandId))), ("command", .str "ups_state"),
    ("payload", .obj [("event", .str "ONBATT")]), ("status", .str "pending"),
    ("issued_at", .int (e.clock .issuedAt))]

def criticalShutdownMembers (e : Env) : List (String × Json) :=
  [("id", .str ("shutdown-" ++ toString (e.clock .commandId))),
    ("command", .str "critical_shutdown"), ("status", .str "pending"),
    ("issued_at", .int (e.clock .issuedAt))]

/-- The end of `_reset_to_idle`. -/
def cancelPending (e : Env) (reason : String) (file : CommandFile) : CommandFile :=
  match file.getCommand with
  | .obj ms =>
    if (member "status" ms).is "pending" then
      saveCommand (.obj (setMember "ack_at" (.int (e.clock .ackAt))
        (setMember "result" (.obj [("reason", .str reason)])
          (setMember "status" (.str "cancelled") ms))))
    else file
  | _ => file

/-- The end of `reset_state_on_startup`. -/
def cancelShutdownOnStartup (file : CommandFile) : CommandFile :=
  match file.getCommand with
  | .obj ms =>
    if (member "command" ms).is "critical_shutdown" && (member "status" ms).is "pending" then
      saveCommand (.obj (setMember "result" (.obj [("reason", .str "server_restart")])
        (setMember "status" (.str "cancelled") ms)))
    else file
  | _ => file

/-! ## Routes -/

/-- `format(value)`, where `other` renders what is not a text. -/
def format (other : Json → String) : Json → String
  | .str s => s
  | v => other v

/-- The command of `create_command`, from the payload; none if it raises. -/
def createdMembers (other : Json → String) (e : Env) (payload : Json) :
    Option (List (String × Json)) := do
  let command ← payload.item "command"
  some [("id", .str (format other command ++ "-" ++ toString (e.clock .commandId))),
    ("command", command), ("payload", (payload.item "payload").getD (.obj [])),
    ("issued_at", .int (e.clock .issuedAt)),
    ("expires_at", (payload.item "expires_at").getD (.int (e.clock .expiresAt + 900))),
    ("status", .str "pending")]

/-- `create_command` -/
def createCommand (other : Json → String) (e : Env) (body : String) (file : CommandFile) :
    CommandFile × Reply :=
  match loads body with
  | none => (file, .error 400)
  | some payload =>
    match createdMembers other e payload with
    | none => (file, .error 500)
    | some ms =>
      (saveCommand (.obj ms), .json 200 (.obj [("ok", .bool true), ("command", .obj ms)]))

/-- `get_command_api` -/
def getCommandApi (file : CommandFile) : Reply :=
  if file.getCommand.truthy = false then .json 200 (.obj [("command", .null)])
  else
    match file.getCommand.get "status" with
    | none => .error 500
    | some status =>
      if status.is "pending" then .json 200 (.obj [("command", file.getCommand)])
      else .json 200 (.obj [("command", .null)])

/-- The two members of the command and of the payload that a route compares; none if it raises. -/
def comparison (key : String) (cmd payload : Json) : Option Bool := do
  let stored ← cmd.get key
  let given ← payload.get key
  some (same stored given)

/-- `ack` -/
def ack (body : String) (file : CommandFile) : CommandFile × Reply :=
  match loads body with
  | none => (file, .error 400)
  | some payload =>
    match comparison "id" file.getCommand payload, file.getCommand, payload.get "status" with
    | some true, .obj ms, some status =>
      (saveCommand (.obj (setMember "status" status ms)), .json 200 (.obj [("ok", .bool true)]))
    | some false, _, _ => (file, .json 200 (.obj [("ok", .bool false)]))
    | _, _, _ => (file, .error 500)

/-- A reply of `preflight` that denies. -/
def denial (code : ℕ) (reason : String) : Reply :=
  .json code (.obj [("ok", .bool false), ("allow", .bool false), ("reason", .str reason)])

/-- `preflight` -/
def preflight (body : String) (file : CommandFile) : Reply :=
  match loads body with
  | none => .error 400
  | some payload =>
    let cmd := file.getCommand
    if cmd.truthy = false then denial 404 "no_command"
    else
      match cmd.get "status" with
      | none => .error 500
      | some status =>
        if status.is "pending" = false then denial 409 "command_not_pending"
        else
          match comparison "id" cmd payload with
          | none => .error 500
          | some false => denial 409 "id_mismatch"
          | some true =>
            match comparison "command" cmd payload with
            | none => .error 500
            | some false => denial 409 "command_mismatch"
            | some true => .json 200 (.obj [("ok", .bool true), ("allow", .bool true)])

end CommandFile

/-! ## The texts of the agent -/

def Ctx.AckStatus.text : Ctx.AckStatus → String
  | .done => "done"
  | .failed => "failed"
  | .cancelled => "cancelled"

/-- The request of the agent's `preflight`. -/
def preflightBody (commandId commandName : String) : String :=
  dumps {} (.obj [("id", .str commandId), ("command", .str commandName)])

/-- The request of the agent's `ack`. -/
def ackBody (commandId : String) (status : Ctx.AckStatus) (result : List (String × String)) :
    String :=
  dumps {} (.obj [("id", .str commandId), ("status", .str status.text),
    ("result", .obj (result.map fun p => (p.1, .str p.2)))])

/-- `bool(data.get("allow", False))` in the agent's `preflight`, of the text of a reply. -/
def readPreflight (text : String) : PreflightStatus :=
  match (loads text).bind (Json.get "allow") with
  | none => .error
  | some allow => if allow.truthy then .allowed else .rejected

/-- **The message that `do_POST` reads** from the body of a push, if its command and id are texts. -/
def readMessage (parse : String → Option Int) (body : String) : Option Message := do
  let payload ← loads body
  let command ← (← payload.get "command").text
  let id ← (← payload.get "id").text
  let inner : Json := (payload.item "payload").getD (.obj [])
  let event ← inner.get "event"
  let delay ← ((inner.item "delay_seconds").getD (.int 0)).toInt parse
  some { command := command, id := id, event := event.text, delaySeconds := delay }

/-! ## What an object stands for -/

def CommandStatus.text : CommandStatus → String
  | .pending => "pending"
  | .cancelled => "cancelled"
  | .done => "done"
  | .failed => "failed"

/-- **The object stands for the command.** -/
structure Denotes (ms : List (String × Json)) (cmd : Command) : Prop where
  id : member "id" ms = .str cmd.id
  command : member "command" ms = .str cmd.command
  status : member "status" ms = .str cmd.status.text
  issuedAt : member "issued_at" ms = .int cmd.issuedAt
  expiresAt : (member "expires_at" ms).whole = cmd.expiresAt
  event : ((member "payload" ms).get "event").bind text = cmd.event
  reason : ((member "result" ms).get "reason").bind text = cmd.reason
  ackAt : (member "ack_at" ms).whole = cmd.ackAt

/-- **The file stands for the command on record.** -/
def Stands (file : CommandFile) : Option Command → Prop
  | none => file = none
  | some cmd => ∃ ms, file.bind loads = some (.obj ms) ∧ Denotes ms cmd

section

variable {ms : List (String × Json)} {cmd : Command} {file : CommandFile} {v : Json}

theorem CommandStatus.text_eq_pending {status : CommandStatus} :
    status.text = "pending" ↔ status = .pending := by
  cases status <;> simp [text]

theorem Ctx.AckStatus.text_toStatus (status : Ctx.AckStatus) : status.toStatus.text = status.text := by
  cases status <;> rfl

theorem Denotes.is_pending (h : Denotes ms cmd) :
    (member "status" ms).is "pending" = true ↔ cmd.status = .pending := by
  rw [is_iff, h.status, Json.str.injEq, CommandStatus.text_eq_pending]

theorem Denotes.truthy (h : Denotes ms cmd) : (Json.obj ms).truthy = true := by
  have hne : ms ≠ [] := by
    rintro rfl
    exact absurd h.id (by simp [member])
  simp [Json.truthy, hne]

theorem loads_saveCommand (h : distinct v = true) :
    (CommandFile.saveCommand v).bind loads = some v := loads_dumps fileStyle h

theorem getCommand_of_loads (h : file.bind loads = some v) : file.getCommand = v := by
  rw [CommandFile.getCommand, h, Option.getD_some]

theorem distinct_of_file (h : file.bind loads = some v) : distinct v = true := by
  obtain ⟨text, -, hl⟩ := Option.bind_eq_some_iff.mp h
  exact distinct_of_loads hl

theorem Stands.getCommand {cmd? : Option Command} (h : Stands file cmd?) :
    (cmd? = none ∧ file.getCommand = .obj []) ∨
      ∃ cmd ms, cmd? = some cmd ∧ file.bind loads = some (.obj ms) ∧
        file.getCommand = .obj ms ∧ Denotes ms cmd := by
  cases cmd? with
  | none =>
    obtain rfl : file = none := h
    exact .inl ⟨rfl, rfl⟩
  | some cmd =>
    obtain ⟨ms, hl, hd⟩ := h
    exact .inr ⟨cmd, ms, rfl, hl, getCommand_of_loads hl, hd⟩

end

/-! ## Calls -/

/-- The calls that write `command.json`. -/
inductive CommandCall
  /-- `_start_battery_monitoring` in `user_prompt` -/
  | notify (e : Env)
  /-- the workers that shut the desktop down -/
  | critical (e : Env)
  | create (e : Env) (body : String)
  | ack (body : String)
  | cancelPending (e : Env) (reason : String)
  | cancelShutdownOnStartup

/-- The arguments of `create_command`, if the command is a text. -/
def creation (payload : Json) : Option (String × Option String × Option (Option Int)) := do
  let command ← (← payload.item "command").text
  some (command, (((payload.item "payload").getD (.obj [])).get "event").bind text,
    (payload.item "expires_at").map whole)

/-- The status that an agent acknowledges with. -/
def ackStatusOf (v : Json) : Option Ctx.AckStatus :=
  [.done, .failed, .cancelled].find? fun status => v.is status.text

/-- The arguments of `ack`, if the id is a text. -/
def acknowledgement (payload : Json) : Option (String × Ctx.AckStatus) := do
  let id ← (← payload.get "id").text
  let status ← ackStatusOf (← payload.get "status")
  some (id, status)

namespace CommandCall

variable (other : Json → String)

/-- The file after the call. -/
def file : CommandCall → CommandFile → CommandFile
  | notify e, _ => CommandFile.saveCommand (.obj (CommandFile.upsStateMembers e))
  | critical e, _ => CommandFile.saveCommand (.obj (CommandFile.criticalShutdownMembers e))
  | create e body, f => (f.createCommand other e body).1
  | ack body, f => (f.ack body).1
  | cancelPending e reason, f => f.cancelPending e reason
  | cancelShutdownOnStartup, f => f.cancelShutdownOnStartup

/-- The context after the call. -/
def ctx : CommandCall → Ctx → Ctx
  | notify e, c => c.saveAndPush (Ctx.makeUpsStateCommand e)
  | critical e, c => c.saveAndPush (Ctx.makeCriticalShutdownCommand e)
  | create e body, c =>
    match (loads body).bind creation with
    | none => c
    | some (command, event, expiresAt) => c.createCommand e command event expiresAt
  | ack body, c =>
    match (loads body).bind acknowledgement with
    | none => c
    | some (id, status) => c.ack id status
  | cancelPending e reason, c => c.cancelPending e reason
  | cancelShutdownOnStartup, c => c.cancelShutdownOnStartup

/-- The object that the call stores as a new command. -/
def stored : CommandCall → Option (List (String × Json))
  | notify e => some (CommandFile.upsStateMembers e)
  | critical e => some (CommandFile.criticalShutdownMembers e)
  | create e body => (loads body).bind (CommandFile.createdMembers other e)
  | _ => none

/-- The clients keep to this: a command is a text, and an acknowledgement has an id and one of the
statuses of the agent. -/
def Understood : CommandCall → Prop
  | create _ body => ∀ payload, loads body = some payload →
    ∀ v ∈ payload.item "command", v.text.isSome = true
  | ack body => ∀ payload, loads body = some payload → payload.get "id" ≠ some .null ∧
    ∀ v ∈ payload.get "status", (ackStatusOf v).isSome = true
  | _ => True

end CommandCall

/-! ## One call -/

/-- The members that are set when a command is closed. -/
def closingKeys : List String := ["status", "result", "ack_at"]

variable {other : Json → String} {file : CommandFile} {c : Ctx} {ms : List (String × Json)}
  {cmd : Command}

/-- **What a call does to the file and to the context.** -/
inductive CommandCallStep (other : Json → String) (k : CommandCall) (file : CommandFile)
    (c : Ctx) : Prop
  | store (ms : List (String × Json)) (cmd : Command) (stored : k.stored other = some ms)
      (dict : distinct (.obj ms) = true) (denotes : Denotes ms cmd)
      (post : k.file other file = CommandFile.saveCommand (.obj ms))
      (command : (k.ctx c).command = some cmd)
  | close (ms ms' : List (String × Json)) (cmd : Command) (stored : k.stored other = none)
      (pre : file.bind loads = some (.obj ms)) (dict : distinct (.obj ms') = true)
      (keeps : ∀ key ∉ closingKeys, ms'.lookup key = ms.lookup key) (denotes : Denotes ms' cmd)
      (post : k.file other file = CommandFile.saveCommand (.obj ms'))
      (command : (k.ctx c).command = some cmd)
  | same (stored : k.stored other = none) (post : k.file other file = file)
      (command : (k.ctx c).command = c.command)

theorem lookup_setClosing {key : String} (hk : key ∈ closingKeys) (v : Json)
    (ms : List (String × Json)) :
    ∀ key' ∉ closingKeys, (setMember key v ms).lookup key' = ms.lookup key' := by
  intro key' hk'
  have hne : key' ≠ key := by
    rintro rfl
    exact hk' hk
  rw [lookup_setMember, if_neg hne]

theorem distinct_createdMembers {e : Env} {payload : Json} (hp : distinct payload = true)
    (h : CommandFile.createdMembers other e payload = some ms) : distinct (.obj ms) = true := by
  obtain ⟨command, hc, he⟩ := Option.bind_eq_some_iff.mp h
  obtain rfl := Option.some.inj he
  have hpayload : distinct ((payload.item "payload").getD (.obj [])) = true := by
    cases hi : payload.item "payload" with
    | none => rfl
    | some v => exact distinct_item hp hi
  have hexpires : distinct ((payload.item "expires_at").getD (.int (e.clock .expiresAt + 900))) =
      true := by
    cases hi : payload.item "expires_at" with
    | none => rfl
    | some v => exact distinct_item hp hi
  simp [distinct, distinctMembers, distinct_item hp hc, hpayload, hexpires]

theorem distinct_upsState (e : Env) : distinct (.obj (CommandFile.upsStateMembers e)) = true := by
  simp [distinct, distinctMembers, CommandFile.upsStateMembers]

theorem distinct_criticalShutdown (e : Env) :
    distinct (.obj (CommandFile.criticalShutdownMembers e)) = true := by
  simp [distinct, distinctMembers, CommandFile.criticalShutdownMembers]

theorem denotes_upsState (e : Env) :
    Denotes (CommandFile.upsStateMembers e) (Ctx.makeUpsStateCommand e) := by
  constructor <;> rfl

theorem denotes_criticalShutdown (e : Env) :
    Denotes (CommandFile.criticalShutdownMembers e) (Ctx.makeCriticalShutdownCommand e) := by
  constructor <;> rfl

theorem create_step (e : Env) (body : String) (hu : (CommandCall.create e body).Understood) :
    CommandCallStep other (.create e body) file c := by
  cases hl : loads body with
  | none =>
    refine .same ?_ ?_ ?_ <;> simp [CommandCall.stored, CommandCall.file, CommandCall.ctx,
      CommandFile.createCommand, hl]
  | some payload =>
    have hu := hu payload hl
    cases hc : payload.item "command" with
    | none =>
      refine .same ?_ ?_ ?_ <;> simp [CommandCall.stored, CommandCall.file, CommandCall.ctx,
        CommandFile.createCommand, CommandFile.createdMembers, creation, hl, hc]
    | some v =>
      obtain ⟨command, ht⟩ := Option.isSome_iff_exists.mp (hu v hc)
      obtain rfl := text_eq_some.mp ht
      obtain ⟨ms, hms⟩ : ∃ ms, CommandFile.createdMembers other e payload = some ms :=
        ⟨_, by simp only [CommandFile.createdMembers, hc]; rfl⟩
      have hctx : ((CommandCall.create e body).ctx c).command = some
          { id := command ++ "-" ++ toString (e.clock .commandId)
            command := command
            event := (((payload.item "payload").getD (.obj [])).get "event").bind text
            issuedAt := e.clock .issuedAt
            expiresAt := ((payload.item "expires_at").map whole).getD
              (some (e.clock .expiresAt + 900)) } := by
        simp [CommandCall.ctx, creation, hl, hc, text, Ctx.createCommand]
      refine .store ms _ ?_ (distinct_createdMembers (distinct_of_loads hl) hms) ?_ ?_ hctx
      · simp [CommandCall.stored, hl, hms]
      · simp only [CommandFile.createdMembers, hc] at hms
        obtain rfl := Option.some.inj hms
        constructor <;> try rfl
        change ((payload.item "expires_at").getD _).whole = _
        cases payload.item "expires_at" <;> rfl
      · simp [CommandCall.file, CommandFile.createCommand, hl, hms]

theorem ackStatusOf_eq_some {v : Json} {status : Ctx.AckStatus} (h : ackStatusOf v = some status) :
    v = .str status.text := is_iff.mp (by simpa using List.find?_some h)

theorem Denotes.ack (h : Denotes ms cmd) (status : Ctx.AckStatus) :
    Denotes (setMember "status" (.str status.text) ms) { cmd with status := status.toStatus } where
  id := by simp [member_setMember, h.id]
  command := by simp [member_setMember, h.command]
  status := by simp [member_setMember, Ctx.AckStatus.text_toStatus]
  issuedAt := by simp [member_setMember, h.issuedAt]
  expiresAt := by simp [member_setMember, h.expiresAt]
  event := by simp [member_setMember, h.event]
  reason := by simp [member_setMember, h.reason]
  ackAt := by simp [member_setMember, h.ackAt]

theorem file_ack_of_ne {body : String} {payload : Json} (hl : loads body = some payload)
    (hcmp : CommandFile.comparison "id" file.getCommand payload ≠ some true) :
    (file.ack body).1 = file := by
  simp only [CommandFile.ack, hl]
  split
  next hcmp' _ _ => exact absurd hcmp' hcmp
  next => rfl
  next => rfl

theorem ctx_ack {body : String} {ps : List (String × Json)} {status : Ctx.AckStatus}
    (hl : loads body = some (.obj ps)) (hst : ackStatusOf (member "status" ps) = some status) :
    (CommandCall.ack body).ctx c =
      match (member "id" ps).text with
      | none => c
      | some id => c.ack id status := by
  simp only [CommandCall.ctx, hl, Option.bind_some, acknowledgement, Json.get]
  cases ht : (member "id" ps).text with
  | none => simp [ht]
  | some id => simp [ht, hst]

theorem ack_step (body : String) (hs : Stands file c.command)
    (hu : (CommandCall.ack body).Understood) : CommandCallStep other (.ack body) file c := by
  have hsame (hf : (file.ack body).1 = file)
      (hc : ((CommandCall.ack body).ctx c).command = c.command) :
      CommandCallStep other (.ack body) file c := .same rfl hf hc
  cases hl : loads body with
  | none => exact hsame (by simp [CommandFile.ack, hl]) (by simp [CommandCall.ctx, hl])
  | some payload =>
    obtain ⟨hid, hstatus⟩ := hu payload hl
    cases payload with
    | obj ps =>
      obtain ⟨status, hst⟩ := Option.isSome_iff_exists.mp (hstatus _ rfl)
      rcases hs.getCommand with ⟨hnone, hget⟩ | ⟨cmd, ms, hsome, hloads, hget, hd⟩
      · -- there is no command, whose id would be null
        refine hsame (file_ack_of_ne hl ?_) ?_
        · rw [hget]
          intro hcmp
          have hnull : same .null (member "id" ps) = true := Option.some.inj hcmp
          exact hid (congrArg some (same_null.mp hnull))
        · rw [ctx_ack hl hst]
          cases (member "id" ps).text with
          | none => rfl
          | some id => simp [Ctx.ack, hnone]
      · have hcmp : CommandFile.comparison "id" file.getCommand (.obj ps) =
            some (same (.str cmd.id) (member "id" ps)) := by
          rw [hget, ← hd.id]
          rfl
        by_cases heq : member "id" ps = .str cmd.id
        · refine .close ms (setMember "status" (.str status.text) ms)
            { cmd with status := status.toStatus } rfl hloads
            (distinct_setMember rfl "status" (distinct_of_file hloads))
            (lookup_setClosing (by decide) _ ms) (hd.ack status) ?_ ?_
          · have hv := ackStatusOf_eq_some hst
            have hstat : (Json.obj ps).get "status" = some (.str status.text) := congrArg some hv
            simp only [CommandCall.file, CommandFile.ack, hl]
            rw [hcmp, same_str.mpr heq, hstat, hget]
          · rw [ctx_ack hl hst, heq]
            simp [text, Ctx.ack, hsome]
        · refine hsame (file_ack_of_ne hl ?_) ?_
          · rw [hcmp]
            intro h
            exact heq (same_str.mp (Option.some.inj h))
          · rw [ctx_ack hl hst]
            cases ht : (member "id" ps).text with
            | none => rfl
            | some id =>
              have hne : cmd.id ≠ id := by
                rintro rfl
                exact heq (text_eq_some.mp ht)
              simp [Ctx.ack, hsome, hne]
    | _ =>
      refine hsame (file_ack_of_ne hl ?_) ?_
      · simp [CommandFile.comparison, Json.get]
      · simp [CommandCall.ctx, hl, acknowledgement, Json.get]

theorem Denotes.cancel (h : Denotes ms cmd) (reason : String) :
    Denotes (setMember "result" (.obj [("reason", .str reason)])
        (setMember "status" (.str "cancelled") ms))
      { cmd with status := .cancelled, reason := some reason } where
  id := by simp [member_setMember, h.id]
  command := by simp [member_setMember, h.command]
  status := by simp [member_setMember, CommandStatus.text]
  issuedAt := by simp [member_setMember, h.issuedAt]
  expiresAt := by simp [member_setMember, h.expiresAt]
  event := by simp [member_setMember, h.event]
  reason := by
    simp only [member_setMember]
    rfl
  ackAt := by simp [member_setMember, h.ackAt]

theorem Denotes.setAckAt (h : Denotes ms cmd) (now : Int) :
    Denotes (setMember "ack_at" (.int now) ms) { cmd with ackAt := some now } where
  id := by simp [member_setMember, h.id]
  command := by simp [member_setMember, h.command]
  status := by simp [member_setMember, h.status]
  issuedAt := by simp [member_setMember, h.issuedAt]
  expiresAt := by simp [member_setMember, h.expiresAt]
  event := by simp [member_setMember, h.event]
  reason := by simp [member_setMember, h.reason]
  ackAt := by
    simp only [member_setMember]
    rfl

theorem distinct_cancelled {file : CommandFile} (hl : file.bind loads = some (.obj ms))
    (reason : String) : distinct (.obj (setMember "result" (.obj [("reason", .str reason)])
      (setMember "status" (.str "cancelled") ms))) = true :=
  distinct_setMember rfl _ (distinct_setMember rfl _ (distinct_of_file hl))

theorem cancelPending_step (e : Env) (reason : String) (hs : Stands file c.command) :
    CommandCallStep other (.cancelPending e reason) file c := by
  rcases hs.getCommand with ⟨hnone, hget⟩ | ⟨cmd, ms, hsome, hloads, hget, hd⟩
  · refine .same rfl ?_ ?_
    · simp [CommandCall.file, CommandFile.cancelPending, hget, member, Json.is]
    · simp [CommandCall.ctx, Ctx.cancelPending, hnone]
  · by_cases hp : cmd.status = .pending
    · refine .close ms _ _ rfl hloads
        (distinct_setMember rfl "ack_at" (distinct_cancelled hloads reason)) ?_
        ((hd.cancel reason).setAckAt (e.clock .ackAt)) ?_ ?_
      · intro key hk
        rw [lookup_setClosing (by decide) _ _ key hk, lookup_setClosing (by decide) _ _ key hk,
          lookup_setClosing (by decide) _ _ key hk]
      · simp [CommandCall.file, CommandFile.cancelPending, hget, hd.is_pending.mpr hp]
      · simp [CommandCall.ctx, Ctx.cancelPending, Ctx.saveCommand, hsome, hp]
    · refine .same rfl ?_ ?_
      · simp [CommandCall.file, CommandFile.cancelPending, hget, hd.is_pending, hp]
      · simp [CommandCall.ctx, Ctx.cancelPending, hsome, hp]

theorem cancelShutdownOnStartup_step (hs : Stands file c.command) :
    CommandCallStep other .cancelShutdownOnStartup file c := by
  rcases hs.getCommand with ⟨hnone, hget⟩ | ⟨cmd, ms, hsome, hloads, hget, hd⟩
  · refine .same rfl ?_ ?_
    · simp [CommandCall.file, CommandFile.cancelShutdownOnStartup, hget, member, Json.is]
    · simp [CommandCall.ctx, Ctx.cancelShutdownOnStartup, hnone]
  · have hcommand : (member "command" ms).is "critical_shutdown" = true ↔
        cmd.command = "critical_shutdown" := by
      rw [is_iff, hd.command, Json.str.injEq]
    by_cases hp : cmd.command = "critical_shutdown" ∧ cmd.status = .pending
    · refine .close ms _ _ rfl hloads (distinct_cancelled hloads "server_restart") ?_
        (hd.cancel "server_restart") ?_ ?_
      · intro key hk
        rw [lookup_setClosing (by decide) _ _ key hk, lookup_setClosing (by decide) _ _ key hk]
      · simp [CommandCall.file, CommandFile.cancelShutdownOnStartup, hget,
          hd.is_pending.mpr hp.2, hcommand.mpr hp.1]
      · simp [CommandCall.ctx, Ctx.cancelShutdownOnStartup, Ctx.saveCommand, hsome, hp]
    · refine .same rfl ?_ ?_
      · simp [CommandCall.file, CommandFile.cancelShutdownOnStartup, hget, hd.is_pending, hcommand,
          hp]
      · simp [CommandCall.ctx, Ctx.cancelShutdownOnStartup, hsome, hp]

/-- **What a call does**, on a file that stands for the command of the context. -/
theorem commandCallStep (k : CommandCall) (hs : Stands file c.command) (hu : k.Understood) :
    CommandCallStep other k file c := by
  cases k with
  | notify e => exact .store _ _ rfl (distinct_upsState e) (denotes_upsState e) rfl rfl
  | critical e =>
    exact .store _ _ rfl (distinct_criticalShutdown e) (denotes_criticalShutdown e) rfl rfl
  | create e body => exact create_step e body hu
  | ack body => exact ack_step body hs hu
  | cancelPending e reason => exact cancelPending_step e reason hs
  | cancelShutdownOnStartup => exact cancelShutdownOnStartup_step hs

/-! ## Readers -/

/-- The replies of `preflight`. -/
def preflightReply : Ctx.PreflightReply → Reply
  | .allow => .json 200 (.obj [("ok", .bool true), ("allow", .bool true)])
  | .noCommand => CommandFile.denial 404 "no_command"
  | .commandNotPending => CommandFile.denial 409 "command_not_pending"
  | .idMismatch => CommandFile.denial 409 "id_mismatch"
  | .commandMismatch => CommandFile.denial 409 "command_mismatch"

variable {body : String} {payload : Json} {ps : List (String × Json)}

/-- **`preflight` on the text replies as on the record**, to a request with two texts. -/
theorem preflight_eq (hs : Stands file c.command) {id command : String}
    (hl : loads body = some (.obj ps)) (hid : member "id" ps = .str id)
    (hcommand : member "command" ps = .str command) :
    file.preflight body = preflightReply (c.preflight id command) := by
  rcases hs.getCommand with ⟨hnone, hget⟩ | ⟨cmd, ms, hsome, hloads, hget, hd⟩
  · simp [CommandFile.preflight, hl, hget, Json.truthy, Ctx.preflight, hnone, preflightReply]
  · simp only [CommandFile.preflight, hl, hget, hd.truthy, Json.get, CommandFile.comparison,
      Option.bind_eq_bind, Option.bind_some, hd.id, hd.command, hid, hcommand, same]
    by_cases hp : cmd.status = .pending
    · by_cases h₁ : cmd.id = id
      · by_cases h₂ : cmd.command = command <;>
          simp [hd.is_pending.mpr hp, Ctx.preflight, hsome, hp, h₁, h₂, preflightReply]
      · simp [hd.is_pending.mpr hp, Ctx.preflight, hsome, hp, h₁, preflightReply]
    · simp [hd.is_pending, Ctx.preflight, hsome, hp, preflightReply]

theorem preflight_cases (file : CommandFile) (body : String) :
    (∃ code, file.preflight body = .error code) ∨
      (∃ code reason, file.preflight body = CommandFile.denial code reason) ∨
      ∃ payload status, loads body = some payload ∧ file.getCommand.get "status" = some status ∧
        status.is "pending" = true ∧
        CommandFile.comparison "id" file.getCommand payload = some true ∧
        CommandFile.comparison "command" file.getCommand payload = some true := by
  unfold CommandFile.preflight
  split
  next => exact .inl ⟨_, rfl⟩
  next payload hl =>
    simp only
    split_ifs with ht
    · exact .inr (.inl ⟨_, _, rfl⟩)
    · split
      next => exact .inl ⟨_, rfl⟩
      next status hstatus =>
        split_ifs with hp
        · exact .inr (.inl ⟨_, _, rfl⟩)
        · split
          next => exact .inl ⟨_, rfl⟩
          next => exact .inr (.inl ⟨_, _, rfl⟩)
          next hid =>
            split
            next => exact .inl ⟨_, rfl⟩
            next => exact .inr (.inl ⟨_, _, rfl⟩)
            next hcommand =>
              exact .inr (.inr ⟨payload, status, hl, hstatus, by simpa using hp, hid, hcommand⟩)

theorem comparison_eq_true {key a : String} (hms : member key ms = .str a)
    (h : CommandFile.comparison key (.obj ms) payload = some true) :
    ∃ ps, payload = .obj ps ∧ member key ps = .str a := by
  cases payload with
  | obj ps =>
    refine ⟨ps, rfl, same_str.mp ?_⟩
    rw [← hms]
    exact Option.some.inj h
  | _ => simp [CommandFile.comparison, Json.get] at h

/-- **Nobody else is allowed**, whatever the request. -/
theorem preflight_allows (hs : Stands file c.command) {code : ℕ} {value : Json}
    (hr : file.preflight body = .json code value) (ha : value.get "allow" = some (.bool true)) :
    ∃ ps id command, loads body = some (.obj ps) ∧ member "id" ps = .str id ∧
      member "command" ps = .str command ∧ c.preflight id command = .allow := by
  rcases preflight_cases file body with ⟨code', he⟩ | ⟨code', reason, he⟩ |
    ⟨payload, status, hl, hstatus, hp, hid, hcommand⟩
  · exact absurd (hr.symm.trans he) nofun
  · obtain ⟨-, rfl⟩ := Reply.json.inj (hr.symm.trans he)
    exact absurd (Json.bool.inj (Option.some.inj ha)) Bool.false_ne_true
  · rcases hs.getCommand with ⟨hnone, hget⟩ | ⟨cmd, ms, hsome, hloads, hget, hd⟩
    · rw [hget] at hstatus
      obtain rfl := Option.some.inj hstatus
      exact absurd hp (by simp [member, Json.is])
    · rw [hget] at hstatus hid hcommand
      obtain rfl := Option.some.inj hstatus
      obtain ⟨ps, rfl, hid'⟩ := comparison_eq_true hd.id hid
      obtain ⟨ps', hps, hcommand'⟩ := comparison_eq_true hd.command hcommand
      obtain rfl := Json.obj.inj hps
      exact ⟨ps, cmd.id, cmd.command, hl, hid', hcommand',
        Ctx.preflight_eq_allow.mpr ⟨cmd, hsome, hd.is_pending.mp hp, rfl, rfl⟩⟩

theorem readPreflight_reply {reply : Ctx.PreflightReply} {code : ℕ} {value v : Json} {text : String}
    (hr : preflightReply reply = .json code value) (hl : loads text = some v)
    (hsame : same value v = true) :
    readPreflight text = if reply = .allow then .allowed else .rejected := by
  have hread (b : Bool) (ms : List (String × Json)) (hv : value = .obj ms)
      (hb : ms.lookup "allow" = some (.bool b)) :
      readPreflight text = if b then .allowed else .rejected := by
    obtain ⟨allow, hget, ha⟩ := get_of_same (hv ▸ hsame) hb
    simp only [readPreflight, hl, Option.bind_some, hget, truthy_of_same_bool ha]
  cases reply with
  | allow => exact hread true _ (Reply.json.inj hr).2.symm rfl
  | _ => exact hread false _ (Reply.json.inj hr).2.symm rfl

theorem getCommandApi_eq (hs : Stands file c.command) :
    ∃ value, file.getCommandApi = .json 200 (.obj [("command", value)]) ∧
      match c.getCommandApi with
      | none => value = .null
      | some cmd => ∃ ms, value = .obj ms ∧ Denotes ms cmd := by
  rcases hs.getCommand with ⟨hnone, hget⟩ | ⟨cmd, ms, hsome, hloads, hget, hd⟩
  · refine ⟨.null, ?_, ?_⟩
    · simp [CommandFile.getCommandApi, hget, Json.truthy]
    · simp [Ctx.getCommandApi, hnone]
  · by_cases hp : cmd.status = .pending
    · refine ⟨.obj ms, ?_, ?_⟩
      · simp [CommandFile.getCommandApi, hget, hd.truthy, Json.get, hd.is_pending.mpr hp]
      · simp only [Ctx.getCommandApi, hsome, hp, ne_eq, not_true_eq_false, if_false]
        exact ⟨ms, rfl, hd⟩
    · refine ⟨.null, ?_, ?_⟩
      · simp [CommandFile.getCommandApi, hget, hd.truthy, Json.get, hd.is_pending, hp]
      · simp [Ctx.getCommandApi, hsome, hp]

/-! ## The texts of the agent -/

theorem loads_preflightBody (id command : String) : loads (preflightBody id command) =
    some (.obj [("id", .str id), ("command", .str command)]) :=
  loads_dumps {} (by simp [distinct, distinctMembers])

theorem distinctMembers_texts (result : List (String × String)) :
    distinctMembers (result.map fun p => (p.1, .str p.2)) = true := by
  induction result with
  | nil => rfl
  | cons p result ih => simp [distinctMembers, distinct, ih]

theorem loads_ackBody (id : String) (status : Ctx.AckStatus) {result : List (String × String)}
    (hr : (result.map (·.1)).Nodup) : loads (ackBody id status result) =
      some (.obj [("id", .str id), ("status", .str status.text),
        ("result", .obj (result.map fun p => (p.1, .str p.2)))]) := by
  refine loads_dumps {} ?_
  have hkeys : (result.map fun p => (p.1, Json.str p.2)).map (·.1) = result.map (·.1) := by
    rw [List.map_map]
    rfl
  have hresult : distinct (.obj (result.map fun p => (p.1, .str p.2))) = true := by
    simp only [distinct, hkeys, hr, decide_true, distinctMembers_texts, Bool.and_self]
  simp only [distinct, distinctMembers, Bool.and_true, Bool.true_and] at hresult ⊢
  rw [hresult]
  rfl

theorem ackStatusOf_text (status : Ctx.AckStatus) : ackStatusOf (.str status.text) = some status := by
  cases status <;> rfl

theorem understood_ackBody (id : String) (status : Ctx.AckStatus) {result : List (String × String)}
    (hr : (result.map (·.1)).Nodup) : (CommandCall.ack (ackBody id status result)).Understood := by
  intro payload hl
  obtain rfl := Option.some.inj ((loads_ackBody id status hr).symm.trans hl)
  refine ⟨nofun, fun v hv => ?_⟩
  obtain rfl : Json.str status.text = v := Option.some.inj hv
  rw [ackStatusOf_text]
  rfl

theorem ctx_ackBody (id : String) (status : Ctx.AckStatus) {result : List (String × String)}
    (hr : (result.map (·.1)).Nodup) :
    (CommandCall.ack (ackBody id status result)).ctx c = c.ack id status := by
  rw [ctx_ack (loads_ackBody id status hr) (ackStatusOf_text status)]
  rfl

/-! ## The pushes -/

/-- The object that a call pushes to the desktop, and the command that it stands for. -/
def CommandCall.pushed : CommandCall → Option (List (String × Json) × Command)
  | notify e => some (CommandFile.upsStateMembers e, Ctx.makeUpsStateCommand e)
  | critical e => some (CommandFile.criticalShutdownMembers e, Ctx.makeCriticalShutdownCommand e)
  | _ => none

theorem pushed_cases {k : CommandCall} (h : k.pushed = some (ms, cmd)) :
    (∃ e, k = .notify e ∧ ms = CommandFile.upsStateMembers e ∧ cmd = Ctx.makeUpsStateCommand e) ∨
      ∃ e, k = .critical e ∧ ms = CommandFile.criticalShutdownMembers e ∧
        cmd = Ctx.makeCriticalShutdownCommand e := by
  cases k with
  | notify e =>
    obtain ⟨rfl, rfl⟩ := Prod.mk.inj (Option.some.inj h)
    exact .inl ⟨e, rfl, rfl, rfl⟩
  | critical e =>
    obtain ⟨rfl, rfl⟩ := Prod.mk.inj (Option.some.inj h)
    exact .inr ⟨e, rfl, rfl, rfl⟩
  | _ => exact absurd h nofun

theorem stored_pushed {k : CommandCall} (h : k.pushed = some (ms, cmd)) :
    k.stored other = some ms ∧ Denotes ms cmd := by
  rcases pushed_cases h with ⟨e, rfl, rfl, rfl⟩ | ⟨e, rfl, rfl, rfl⟩
  · exact ⟨rfl, denotes_upsState e⟩
  · exact ⟨rfl, denotes_criticalShutdown e⟩

/-- **A push is read as the command that it stands for**, which is not to be delayed. -/
theorem readMessage_pushed (parse : String → Option Int) (style : Style) {k : CommandCall}
    (h : k.pushed = some (ms, cmd)) : readMessage parse (dumps style (.obj ms)) =
      some { command := cmd.command, id := cmd.id, event := cmd.event } := by
  rcases pushed_cases h with ⟨e, rfl, rfl, rfl⟩ | ⟨e, rfl, rfl, rfl⟩
  · rw [readMessage, loads_dumps style (distinct_upsState e)]
    rfl
  · rw [readMessage, loads_dumps style (distinct_criticalShutdown e)]
    rfl

/-! ## Runs -/

/-- What holds after any calls, the last of which to store a command stored `last`. -/
structure CommandKept (last : Option (List (String × Json))) (file : CommandFile) (c : Ctx) :
    Prop where
  stands : Stands file c.command
  members : ∀ ms ∈ last, ∃ ms', file.bind loads = some (.obj ms') ∧
    ∀ key ∉ closingKeys, ms'.lookup key = ms.lookup key

theorem CommandKept.start (hs : Stands file c.command) : CommandKept none file c := ⟨hs, nofun⟩

theorem CommandKept.call (other : Json → String) {last : Option (List (String × Json))}
    {k : CommandCall} (h : CommandKept last file c) (hu : k.Understood) :
    CommandKept ((k.stored other).or last) (k.file other file) (k.ctx c) := by
  have hstep : CommandCallStep other k file c := commandCallStep k h.stands hu
  cases hstep with
  | store ms cmd stored dict denotes post command =>
    have hl := loads_saveCommand dict
    rw [stored, post]
    refine ⟨?_, fun ms₀ hms => ⟨ms, hl, fun key _ => ?_⟩⟩
    · rw [command]
      exact ⟨ms, hl, denotes⟩
    · rw [Option.some.inj hms]
  | close ms ms' cmd stored pre dict keeps denotes post command =>
    have hl := loads_saveCommand dict
    rw [stored, post, Option.none_or]
    refine ⟨?_, fun ms₀ hms => ?_⟩
    · rw [command]
      exact ⟨ms', hl, denotes⟩
    · obtain ⟨ms₁, hpre, hkeep⟩ := h.members ms₀ hms
      obtain rfl := Json.obj.inj (Option.some.inj (pre.symm.trans hpre))
      exact ⟨ms', hl, fun key hk => (keeps key hk).trans (hkeep key hk)⟩
  | same stored post command =>
    rw [stored, post, Option.none_or]
    exact ⟨command ▸ h.stands, h.members⟩

/-- The object stored last. -/
def lastStored (other : Json → String) (calls : List CommandCall) :
    Option (List (String × Json)) → Option (List (String × Json)) :=
  calls.foldl (fun last k => (k.stored other).or last)

theorem CommandKept.calls (other : Json → String) {last : Option (List (String × Json))}
    (h : CommandKept last file c) (calls : List CommandCall) (hu : ∀ k ∈ calls, k.Understood) :
    CommandKept (lastStored other calls last) (calls.foldl (fun f k => k.file other f) file)
      (calls.foldl (fun c k => k.ctx c) c) := by
  induction calls generalizing last file c with
  | nil => exact h
  | cons k calls ih =>
    exact ih (h.call other (hu k List.mem_cons_self)) fun k' hk' => hu k' (List.mem_cons_of_mem k hk')

/-! ## The texts keep the commands -/

/-- **The texts keep the commands of the context** after the calls: the file holds the command and all
that was stored with it, the routes and the agent find in the texts what the context says, and what
the agent sends is understood. -/
structure CommandTexts (other : Json → String) (calls : List CommandCall) (file : CommandFile)
    (c : Ctx) : Prop where
  kept : CommandKept (lastStored other calls none) file c
  get : ∃ value, file.getCommandApi = .json 200 (.obj [("command", value)]) ∧
    match c.getCommandApi with
    | none => value = .null
    | some cmd => ∃ ms, value = .obj ms ∧ Denotes ms cmd
  /-- a reply that allows is for the command on record -/
  allows : ∀ body code value, file.preflight body = .json code value →
    value.get "allow" = some (.bool true) →
    ∃ ps id command, loads body = some (.obj ps) ∧ member "id" ps = .str id ∧
      member "command" ps = .str command ∧ c.preflight id command = .allow
  /-- the agent asks, and reads the reply in whichever text it arrives -/
  asked : ∀ id command, ∃ code value, file.preflight (preflightBody id command) = .json code value ∧
    ∀ text v, loads text = some v → same value v = true →
      readPreflight text = if c.preflight id command = .allow then .allowed else .rejected
  acked : ∀ id status result, (result.map (·.1)).Nodup →
    Stands (file.ack (ackBody id status result)).1 (c.ack id status).command
  /-- what has been pushed is read as the command that was stored -/
  pushed : ∀ k ∈ calls, ∀ ms cmd, k.pushed = some (ms, cmd) → k.stored other = some ms ∧
    Denotes ms cmd ∧ ∀ parse style, readMessage parse (dumps style (.obj ms)) =
      some { command := cmd.command, id := cmd.id, event := cmd.event }

theorem preflightReply_eq_json (reply : Ctx.PreflightReply) :
    ∃ code value, preflightReply reply = .json code value := by
  cases reply <;> exact ⟨_, _, rfl⟩

theorem CommandKept.ack {last : Option (List (String × Json))} {c' : Ctx}
    (h : CommandKept last file c) (hu : (CommandCall.ack body).Understood)
    (hc : (CommandCall.ack body).ctx c = c') : Stands (file.ack body).1 c'.command :=
  hc ▸ (h.call (fun _ => "") hu).stands

theorem CommandKept.commandTexts {calls : List CommandCall}
    (h : CommandKept (lastStored other calls none) file c) :
    CommandTexts other calls file c where
  kept := h
  get := getCommandApi_eq h.stands
  allows := fun body code value => preflight_allows h.stands
  asked := fun id command => by
    obtain ⟨code, value, hr⟩ := preflightReply_eq_json (c.preflight id command)
    have hp := preflight_eq h.stands (loads_preflightBody id command) rfl rfl
    exact ⟨code, value, hp.trans hr, fun text v => readPreflight_reply hr⟩
  acked := fun id status _ hr => h.ack (understood_ackBody id status hr) (ctx_ackBody id status hr)
  pushed := fun k _ ms cmd hk => by
    obtain ⟨hstored, hdenotes⟩ : k.stored other = some ms ∧ Denotes ms cmd := stored_pushed hk
    exact ⟨hstored, hdenotes, fun parse style => readMessage_pushed parse style hk⟩

/-- **The texts of the command channel** agree with the context after any calls, from a file that
stands for its command on. -/
theorem commandTextsKept (other : Json → String) (calls : List CommandCall)
    (h : ∀ k ∈ calls, k.Understood) (hs : Stands file c.command) :
    CommandTexts other calls (calls.foldl (fun f k => k.file other f) file)
      (calls.foldl (fun c k => k.ctx c) c) :=
  ((CommandKept.start hs).calls other calls h).commandTexts

/-- The desktop is told of an outage, and the user does not want to do anything. -/
theorem commandTextsKept_cancelled :
    let calls : List CommandCall := [.notify (.at 2000),
      .ack (ackBody "state-2000" .cancelled [("reason", "user_cancelled")])]
    CommandTexts (fun _ => "") calls (calls.foldl (fun f k => k.file (fun _ => "") f) none)
      (calls.foldl (fun c k => k.ctx c) {}) := by
  intro calls
  refine commandTextsKept _ calls (fun k hk => ?_) rfl
  rcases List.mem_cons.mp hk with rfl | hk
  · trivial
  · obtain rfl := List.mem_singleton.mp hk
    exact understood_ackBody _ _ (by decide)

end UpsOrchestrator

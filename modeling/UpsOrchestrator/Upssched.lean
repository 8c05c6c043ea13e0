import Mathlib.Data.List.TakeWhile
import UpsOrchestrator.Lib.Grep
import UpsOrchestrator.Lib.Json
import UpsOrchestrator.Lib.Prog
import UpsOrchestrator.Isolation
import UpsOrchestrator.Routes

/-!
# NUT's events

NUT starts `upssched-cmd` with a tag. The script posts the event to the server, and for a low battery
it shuts the server down itself if the reply says so.

* `Deployment`, `upsEvent`: the `event` route, from the text of a request to the text of its reply.
* `Upssched.main`: the script, over the commands that it runs.
* `nutSystem`: the server and any number of scripts, interleaved.
* **`nutTraces`**: the scripts do nothing to the server that it does not meet without them.
* **`safetyNet`**: the script shuts the server down after the low battery of a primary UPS, and
  after nothing else.
-/

set_option autoImplicit false

namespace UpsOrchestrator

open Lts Json RegularExpression

/-! ## Environment variables -/

/-- The environment variables of a process. -/
abbrev Vars : Type := String → Option String

/-- `os.environ.get(name, default)` -/
def Vars.get (vars : Vars) (name default : String) : String := (vars name).getD default

/-- `${name:-default}`, also if the variable is empty. -/
def Vars.orElse (vars : Vars) (name default : String) : String :=
  if vars.get name "" = "" then default else vars.get name ""

/-! ## The route -/

/-- The event that `handle_event` takes a text for. -/
def NutEvent.ofText (text : String) : NutEvent :=
  if text = "ONBATT" then .onbatt
  else if text = "LOWBATT" then .lowbatt
  else if text = "ONLINE" then .online
  else if text = "desktop_suspend_due" then .desktopSuspendDue
  else .other text

/-- `[[:space:]]` -/
def blanks : List Char := [' ', '\t', '\n', '\x0b', '\x0c', '\r']

/-- `"shutdown_server"[[:space:]]*:[[:space:]]*true` -/
def shutdownPattern : RegularExpression Char :=
  word "\"shutdown_server\"".toList *
    ((oneOf blanks).star * (word [':'] * ((oneOf blanks).star * word "true".toList)))

/-- The server as it is set up, and what Flask makes of a request. -/
structure Deployment where
  /-- the environment of the server -/
  vars : Vars
  /-- the `ups_id` that `/api/ups/` … `/event` stands for, if it is this route -/
  upsId : String → Option String
  /-- the value of a header that `curl` is given with this value -/
  header : String → String
  /-- how a dictionary is rendered -/
  style : Style
  /-- the page of an error -/
  page : ℕ → String
  /-- it does not ask for a shutdown -/
  page_quiet : ∀ code, grep shutdownPattern (page code).toList = false

example : Nonempty Deployment :=
  ⟨⟨fun _ => none, some, id, {}, fun _ => "<title>Error</title>", fun _ => by decide⟩⟩

/-- `SHARED_TOKEN` of the server -/
def Deployment.sharedToken (dep : Deployment) : String :=
  dep.vars.get "UPS_SHARED_TOKEN" "change-me"

/-- `CONTEXTS.get(ups_id)` -/
def Site.find (s : Site) (upsId : String) : Option s.Ix :=
  (List.finRange s.devices.length).find? fun i => (s.dev i).id = upsId

/-- `payload.get("event")`; what is not a text is none of the events. -/
def eventOf (payload : List (String × Json)) : NutEvent :=
  match payload.lookup "event" with
  | some (.str text) => .ofText text
  | _ => .other ""

/-- The reply of `ups_event`. -/
def eventReply (event : NutEvent) (d : UPSDeviceConfig) : Json :=
  .obj [("ok", .bool true),
    ("shutdown_server", .bool (decide (event = .lowbatt) && !d.isObserver))]

variable (dep : Deployment) {s : Site}

/-- **`ups_event`**: the server afterwards, and the body of the reply. -/
def upsEvent (w : World s) (e : Env) (token path body : String) : Option (World s × String) :=
  match dep.upsId path with
  | none => some (w, dep.page 404)
  | some upsId =>
    if dep.header token ≠ dep.sharedToken then some (w, dep.page 403)
    else
      match s.find upsId with
      | none => some (w, dep.page 404)
      | some i =>
        match loads body with
        | none => some (w, dep.page 400)
        | some (.obj payload) =>
          (w.step (.call i e (.event (eventOf payload)))).map fun w' =>
            (w', dumps dep.style (eventReply (eventOf payload) (s.dev i)))
        | some _ => some (w, dep.page 500)

/-! ## The script -/

namespace Upssched

/-- The commands of the script that matter to others. -/
inductive Op
  /-- `curl -sS -X POST` of the body to the `event` route of the device -/
  | curl (port token deviceId body : String)
  | sleep (seconds : ℕ)
  /-- a command, by its words -/
  | command (words : List String)
  deriving DecidableEq, Repr

/-- An exit code, and for `curl` what it has printed. -/
abbrev Op.Ans : Op → Type
  | .curl _ _ _ _ => ℕ × String
  | .sleep _ => Unit
  | .command _ => ℕ

/-- Pieces of the script. -/
abbrev Script : Type → Type := Prog Op Op.Ans

/-- A file with assignments, as the script finds it. -/
inductive EnvFile
  | missing
  | unreadable
  | sets (vars : Vars)

/-- The variables after `source`; none if the file cannot be read. -/
def EnvFile.source (vars : Vars) : EnvFile → Option Vars
  | .missing => some vars
  | .unreadable => none
  | .sets file => some fun name => (file name).or (vars name)

def EnvFile.isFile : EnvFile → Bool
  | .missing => false
  | _ => true

/-- What the script is started in. -/
structure Shell where
  vars : Vars
  files : String → EnvFile
  scriptDir : String
  /-- `${EUID:-$(id -u)}` is 0 -/
  root : Bool

/-- `ENV_FILE` -/
def Shell.envFile (sh : Shell) : String :=
  if sh.vars.get "UPS_ENV_FILE" "" ≠ "" then sh.vars.get "UPS_ENV_FILE" ""
  else if (sh.files "/etc/ups-orchestrator/server.env").isFile then
    "/etc/ups-orchestrator/server.env"
  else sh.scriptDir ++ "/../.env"

/-- `${ARG%%:*}` -/
def beforeColon (arg : String) : String := String.ofList (arg.toList.takeWhile (· ≠ ':'))

/-- `${ARG#*:}` -/
def afterColon (arg : String) : String :=
  if ':' ∈ arg.toList then String.ofList (arg.toList.dropWhile (· ≠ ':')).tail else arg

/-- `{"event":"$event"}` -/
def eventBody (event : String) : String := "\x7b\"event\":\"" ++ event ++ "\"\x7d"

/-- `post_event` -/
def postEvent (vars : Vars) (deviceId event : String) : Script (ℕ × String) :=
  Prog.perform (Op.curl (vars.orElse "UPS_SERVER_PORT" "8787")
    (vars.orElse "UPS_SHARED_TOKEN" "change-me") deviceId (eventBody event))

/-- The words of the shutdown. -/
def shutdownWords (root : Bool) : List String :=
  if root then ["/sbin/shutdown", "-h", "now"] else ["sudo", "-n", "/sbin/shutdown", "-h", "now"]

/-- `shutdown_homeserver` -/
def shutdownHomeserver (root : Bool) : Script ℕ := Prog.perform (Op.command (shutdownWords root))

/-- The safety net has been asked for. -/
def netted (root : Bool) : Script ℕ := do
  Prog.perform (Op.sleep 5)
  shutdownHomeserver root

/-- The branch of `LOWBATT`, after the reply. -/
def afterLowbatt (root : Bool) (response : String) : Script ℕ :=
  if grep shutdownPattern response.toList then netted root else pure 0

/-- `case "$EVENT"` -/
def dispatch (root : Bool) (vars : Vars) (deviceId event : String) : Script ℕ :=
  if event = "ONBATT" ∨ event = "ONLINE" ∨ event = "desktop_suspend_due" then do
    let (code, _) ← postEvent vars deviceId event
    pure code
  else if event = "LOWBATT" then do
    let (_, response) ← postEvent vars deviceId event
    afterLowbatt root response
  else pure 1

/-- **`upssched-cmd`**, with its exit code. -/
def main (sh : Shell) (arg : String) : Script ℕ :=
  match (sh.files sh.envFile).source sh.vars with
  | none => pure 1
  | some vars =>
    if arg = "" then pure 1
    else if beforeColon arg = arg ∨ afterColon arg = "" then pure 1
    else dispatch sh.root vars (beforeColon arg) (afterColon arg)

/-- What a command of the script meets. -/
structure Outside where
  /-- the clock and the answers for the handler -/
  env : Env
  /-- the server can be reached at the port -/
  reaches : String → Bool
  /-- its reply gets back -/
  replies : Bool
  /-- the exit codes of other commands -/
  code : List String → ℕ

/-- What `curl` makes of a reply. -/
def Outside.hears (out : Outside) (text : String) : ℕ × String :=
  if out.replies then (0, text) else (52, "")

/-- One command of the script. -/
def Op.exec : Prog.Exec Op Op.Ans (World s) Outside
  | .curl port token deviceId body, out, w =>
    if out.reaches port then
      (upsEvent dep w out.env token deviceId body).map fun r => (out.hears r.2, r.1)
    else some ((7, ""), w)
  | .sleep _, _, w => some ((), w)
  | .command words, out, w => some (out.code words, w)

end Upssched

/-! ## The reply -/

theorem mem_shutdownPattern {m : List Char} : m ∈ shutdownPattern.matches' ↔
    ∃ u v, m = "\"shutdown_server\"".toList ++ (u ++ (':' :: (v ++ "true".toList))) ∧
      (∀ c ∈ u, c ∈ blanks) ∧ ∀ c ∈ v, c ∈ blanks := by
  unfold shutdownPattern
  constructor
  · intro h
    obtain ⟨_, _, rfl, h1, h⟩ := mem_mul.mp h
    obtain ⟨u, _, rfl, hu, h⟩ := mem_mul.mp h
    obtain ⟨_, _, rfl, h2, h⟩ := mem_mul.mp h
    obtain ⟨v, _, rfl, hv, h3⟩ := mem_mul.mp h
    rw [mem_word] at h1 h2 h3
    subst h1 h2 h3
    exact ⟨u, v, rfl, mem_star_oneOf.mp hu, mem_star_oneOf.mp hv⟩
  · rintro ⟨u, v, rfl, hu, hv⟩
    refine mem_mul.mpr ⟨_, _, rfl, mem_word.mpr rfl, ?_⟩
    refine mem_mul.mpr ⟨u, _, rfl, mem_star_oneOf.mpr hu, ?_⟩
    refine mem_mul.mpr ⟨[':'], _, rfl, mem_word.mpr rfl, ?_⟩
    exact mem_mul.mpr ⟨v, _, rfl, mem_star_oneOf.mpr hv, mem_word.mpr rfl⟩

/-- The text of the reply before `shutdown_server`. -/
def replyHead (st : Style) : List Char :=
  '\x7b' :: (st.gap 1 ++ (quote st.ascii "ok" ++ (st.colon ++ ("true".toList ++
    (st.comma ++ st.gap 1)))))

/-- The text of the reply after the answer. -/
def replyTail (st : Style) : List Char := st.gap 0 ++ ['\x7d']

/-- The text of the answer. -/
def answerText (b : Bool) : List Char := if b then "true".toList else "false".toList

theorem write_eventReply (st : Style) (b : Bool) :
    write st 0 (.obj [("ok", .bool true), ("shutdown_server", .bool b)]) =
      replyHead st ++ ("\"shutdown_server\"".toList ++ (st.colon ++ (answerText b ++ replyTail st))) := by
  have hq : quote st.ascii "shutdown_server" = "\"shutdown_server\"".toList := by
    cases st.ascii <;> decide
  cases b <;> simp [write, writeMembers, replyHead, replyTail, answerText, hq]

theorem w_notMem_gap (st : Style) (depth : ℕ) : 'w' ∉ st.gap depth :=
  fun h => absurd (Style.isBlank_of_mem_gap h) (by decide)

theorem w_notMem_replyHead (st : Style) : 'w' ∉ replyHead st := by
  have hq : 'w' ∉ quote st.ascii "ok" := by cases st.ascii <;> decide
  have hcolon : 'w' ∉ st.colon := by unfold Style.colon; split_ifs <;> decide
  have hcomma : 'w' ∉ st.comma := by unfold Style.comma; split_ifs <;> decide
  have htrue : 'w' ∉ "true".toList := by decide
  simp only [replyHead, List.mem_cons, List.mem_append, w_notMem_gap, hq, hcolon, hcomma, htrue]
  decide

theorem blanks_append {u v x y : List Char} {a b : Char} (hu : ∀ c ∈ u, c ∈ blanks)
    (hv : ∀ c ∈ v, c ∈ blanks) (ha : a ∉ blanks) (hb : b ∉ blanks)
    (h : u ++ a :: x = v ++ b :: y) : a = b ∧ x = y := by
  have hdrop : ∀ {l z : List Char} {c : Char}, (∀ c ∈ l, c ∈ blanks) → c ∉ blanks →
      (l ++ c :: z).dropWhile (· ∈ blanks) = c :: z := by
    intro l z c hl hc
    rw [List.dropWhile_append_of_pos (by simpa using hl)]
    exact List.dropWhile_cons_of_neg (by simpa using hc)
  have heq := hdrop (z := x) hu ha
  rw [h, hdrop hv hb] at heq
  obtain ⟨rfl, rfl⟩ := List.cons.inj heq
  exact ⟨rfl, rfl⟩

/-- **The script understands the reply**, however it is rendered. -/
theorem grep_reply (st : Style) (b : Bool) : grep shutdownPattern
    (dumps st (.obj [("ok", .bool true), ("shutdown_server", .bool b)])).toList = b := by
  rw [dumps, String.toList_ofList, write_eventReply]
  have hspace : ∀ c ∈ if st.colonSpace = true then [' '] else [], c ∈ blanks := by
    split_ifs <;> simp [blanks]
  cases b with
  | true =>
    refine grep_of_infix (m := "\"shutdown_server\"".toList ++ (st.colon ++ "true".toList)) ?_ ?_ ?_
    · refine mem_shutdownPattern.mpr ⟨[], _, ?_, by simp, hspace⟩
      rw [Style.colon_eq]
      rfl
    · unfold Style.colon
      split_ifs <;> decide
    · exact ⟨replyHead st, replyTail st, by simp [answerText]⟩
  | false =>
    rw [Bool.eq_false_iff]
    intro h
    obtain ⟨m, hm, a, z, htext⟩ := infix_of_grep h
    obtain ⟨u, v, rfl, hu, hv⟩ := mem_shutdownPattern.mp hm
    have hkey : "\"shutdown_server\"".toList = "\"shutdo".toList ++ 'w' :: "n_server\"".toList := by
      decide
    have hrest : 'w' ∉ "n_server\"".toList ++ (st.colon ++ (answerText false ++ replyTail st)) := by
      have hcolon : 'w' ∉ st.colon := by unfold Style.colon; split_ifs <;> decide
      have hfalse : 'w' ∉ answerText false := by decide
      have hn : 'w' ∉ "n_server\"".toList := by decide
      simp only [replyTail, List.mem_append, w_notMem_gap, hcolon, hfalse, hn]
      decide
    have hhead : 'w' ∉ replyHead st ++ "\"shutdo".toList := by
      have hs : 'w' ∉ "\"shutdo".toList := by decide
      simp only [List.mem_append, w_notMem_replyHead, hs, or_self, not_false_eq_true]
    rw [hkey] at htext
    simp only [List.append_assoc, List.cons_append] at htext
    rw [← List.append_assoc, ← List.append_assoc (replyHead st)] at htext
    have hafter := ((List.append_cons_inj_of_notMem hhead hrest).mp htext.symm).2.2
    have hcolon := List.append_cancel_left hafter
    rw [Style.colon_eq, List.cons_append] at hcolon
    obtain ⟨-, hanswer⟩ := blanks_append (u := []) (by simp) hu (by decide) (by decide) hcolon
    obtain ⟨hne, -⟩ := blanks_append hspace hv (a := 'f') (b := 't') (by decide) (by decide) hanswer
    exact absurd hne (by decide)

/-! ## What a request delivers -/

/-- The event that a request delivers. -/
def delivered (token path body : String) : Option (s.Ix × NutEvent) := do
  let upsId ← dep.upsId path
  let i ← s.find upsId
  if dep.header token ≠ dep.sharedToken then none
  else
    match loads body with
    | some (.obj payload) => some (i, eventOf payload)
    | _ => none

variable {dep} {w w' : World s} {e : Env} {token path body text : String}

/-- **A request** is one event for one context, or is turned away. -/
theorem upsEvent_cases (h : upsEvent dep w e token path body = some (w', text)) :
    (∃ i ev, delivered (s := s) dep token path body = some (i, ev) ∧
        w.step (.call i e (.event ev)) = some w' ∧ text = dumps dep.style (eventReply ev (s.dev i))) ∨
      delivered (s := s) dep token path body = none ∧ w' = w ∧ ∃ code, text = dep.page code := by
  unfold upsEvent at h
  split at h
  next hpath =>
    obtain ⟨rfl, rfl⟩ := Prod.mk.inj (Option.some.inj h)
    exact .inr ⟨by simp [delivered, hpath], rfl, 404, rfl⟩
  next upsId hpath =>
    split_ifs at h with htoken
    · obtain ⟨rfl, rfl⟩ := Prod.mk.inj (Option.some.inj h)
      exact .inr ⟨by simp [delivered, hpath, htoken], rfl, 403, rfl⟩
    · split at h
      next hfind =>
        obtain ⟨rfl, rfl⟩ := Prod.mk.inj (Option.some.inj h)
        exact .inr ⟨by simp [delivered, hpath, hfind], rfl, 404, rfl⟩
      next i hfind =>
        split at h
        next hbody =>
          obtain ⟨rfl, rfl⟩ := Prod.mk.inj (Option.some.inj h)
          exact .inr ⟨by simp [delivered, hpath, hbody], rfl, 400, rfl⟩
        next payload hbody =>
          obtain ⟨w'', hstep, hpair⟩ := Option.map_eq_some_iff.mp h
          obtain ⟨rfl, rfl⟩ := Prod.mk.inj hpair
          exact .inl ⟨i, eventOf payload, by simp [delivered, hpath, hfind, htoken, hbody], hstep, rfl⟩
        next v hv hbody =>
          obtain ⟨rfl, rfl⟩ := Prod.mk.inj (Option.some.inj h)
          refine .inr ⟨?_, rfl, 500, rfl⟩
          cases v with
          | obj payload => exact absurd rfl (hv payload)
          | _ => simp [delivered, hpath, hbody]

namespace Upssched

/-- The events that the script posts. -/
def events : List String := ["ONBATT", "ONLINE", "desktop_suspend_due", "LOWBATT"]

theorem loads_eventBody {event : String} (h : event ∈ events) :
    loads (eventBody event) = some (.obj [("event", .str event)]) := by
  have hbody : eventBody event =
      dumps { commaSpace := false, colonSpace := false } (.obj [("event", .str event)]) := by
    simp only [events, List.mem_cons, List.not_mem_nil, or_false] at h
    rcases h with rfl | rfl | rfl | rfl <;> decide
  rw [hbody]
  exact loads_dumps _ rfl

theorem ofText_eq_lowbatt {event : String} : NutEvent.ofText event = .lowbatt ↔ event = "LOWBATT" := by
  unfold NutEvent.ofText
  split_ifs <;> simp_all

end Upssched

/-! ## The server and the scripts -/

/-- The server, and what the scripts that have been started have still to do. -/
structure Nut (s : Site) where
  world : World s
  scripts : List (Upssched.Script ℕ)

inductive NutAct (s : Site)
  /-- whatever else happens at the server -/
  | server (a : Action s)
  /-- NUT starts the script with a tag -/
  | start (sh : Upssched.Shell) (arg : String)
  | advance (k : ℕ) (out : Upssched.Outside)

variable (dep)

/-- The script `k` goes on by one command. -/
def Nut.advance (u : Nut s) (k : ℕ) (out : Upssched.Outside) : Option (Nut s) :=
  match u.scripts[k]? with
  | some (.op o rest) => (Upssched.Op.exec dep o out u.world).map fun r =>
    ⟨r.2, u.scripts.set k (rest r.1)⟩
  | _ => none

def Nut.step (u : Nut s) : NutAct s → Option (Nut s)
  | .server a => (u.world.step a).map fun w => { u with world := w }
  | .start sh arg => some { u with scripts := u.scripts ++ [Upssched.main sh arg] }
  | .advance k out => u.advance dep k out

/-- **The server and any number of scripts**, interleaved command by command. -/
def nutSystem : System (Nut s) (NutAct s) where
  init u := (system s).init u.world ∧ u.scripts = []
  step := Nut.step dep

/-- The event that the next command of the script `k` delivers. -/
def Nut.posts (u : Nut s) (k : ℕ) (out : Upssched.Outside) : Option (s.Ix × NutEvent) :=
  match u.scripts[k]? with
  | some (.op (.curl port token path body) _) =>
    if out.reaches port then delivered dep token path body else none
  | _ => none

/-- What happens at the server. -/
def nutView : View (Nut s) (NutAct s) (s.Ix → Ctx) (Action s × (s.Ix → Ctx)) where
  start u := u.world.ctx
  step t :=
    match t.act with
    | .server a => some (a, t.post.world.ctx)
    | .start _ _ => none
    | .advance k out => (t.pre.posts dep k out).map fun p =>
      (.call p.1 out.env (.event p.2), t.post.world.ctx)

variable {dep} {u v : Nut s} {k : ℕ} {out : Upssched.Outside}

theorem Nut.advance_cases (h : u.advance dep k out = some v) :
    ∃ o rest r, u.scripts[k]? = some (.op o rest) ∧
      Upssched.Op.exec dep o out u.world = some r ∧ v = ⟨r.2, u.scripts.set k (rest r.1)⟩ := by
  unfold Nut.advance at h
  split at h
  next o rest hk =>
    obtain ⟨r, hexec, rfl⟩ := Option.map_eq_some_iff.mp h
    exact ⟨o, rest, r, hk, hexec, rfl⟩
  next => exact absurd h (by simp)

/-- **A command of a script** is an event for the server, or nothing to it. -/
theorem Nut.world_of_advance (h : u.advance dep k out = some v) :
    match u.posts dep k out with
    | none => v.world = u.world
    | some (i, ev) => u.world.step (.call i out.env (.event ev)) = some v.world := by
  obtain ⟨o, rest, ⟨a, w⟩, hk, hexec, rfl⟩ := Nut.advance_cases h
  cases o with
  | curl port token path body =>
    rw [Upssched.Op.exec] at hexec
    split_ifs at hexec with hport
    · obtain ⟨⟨w', text⟩, hreq, hpair⟩ := Option.map_eq_some_iff.mp hexec
      obtain ⟨-, rfl⟩ := Prod.mk.inj hpair
      rcases upsEvent_cases hreq with ⟨i, ev, hdel, hstep, -⟩ | ⟨hdel, rfl, -⟩
      · simp only [Nut.posts, hk, hport, if_true, hdel]
        exact hstep
      · simp only [Nut.posts, hk, hport, if_true, hdel]
    · obtain ⟨-, rfl⟩ := Prod.mk.inj (Option.some.inj hexec)
      simp only [Nut.posts, hk, hport, Bool.false_eq_true, if_false]
  | sleep n =>
    obtain ⟨-, rfl⟩ := Prod.mk.inj (Option.some.inj hexec)
    simp only [Nut.posts, hk]
  | command words =>
    obtain ⟨-, rfl⟩ := Prod.mk.inj (Option.some.inj hexec)
    simp only [Nut.posts, hk]

variable (dep s) in
/-- The scripts only do what the server may meet in any case. -/
def nutProject : Simulation (nutSystem dep) (system s) (nutView dep) (fullView s) where
  rel u w := u.world = w
  init u hu := ⟨u.world, hu.1, rfl, rfl⟩
  step := by
    rintro ⟨u, a, v⟩ w ht rfl
    replace ht : u.step dep a = some v := ht
    cases a with
    | server a =>
      obtain ⟨w', hw', rfl⟩ := Option.map_eq_some_iff.mp ht
      exact ⟨⟨u.world, a, w'⟩, hw', rfl, rfl, rfl⟩
    | start sh arg =>
      obtain rfl := Option.some.inj ht
      rfl
    | advance k out =>
      have hworld := Nut.world_of_advance ht
      simp only [nutView]
      cases hp : u.posts dep k out with
      | none =>
        rw [hp] at hworld
        exact hworld
      | some p =>
        rw [hp] at hworld
        exact ⟨⟨u.world, _, v.world⟩, hworld, rfl, rfl, rfl⟩

variable (dep s) in
/-- No script need be started. -/
def nutLift : Simulation (system s) (nutSystem dep) (fullView s) (nutView dep) where
  rel w u := u.world = w
  init w hw := ⟨⟨w, []⟩, ⟨hw, rfl⟩, rfl, rfl⟩
  step := by
    rintro ⟨w, a, w'⟩ u ht rfl
    refine ⟨⟨u, .server a, { u with world := w' }⟩, ?_, rfl, rfl, rfl⟩
    exact Option.map_eq_some_iff.mpr ⟨w', ht, rfl⟩

/-- **The events of NUT are no more than the model of the server allows**: with the scripts, their
texts and their requests, the contexts go through what they go through without. -/
theorem nutTraces (dep : Deployment) (s : Site) :
    (nutView dep).traces (nutSystem dep) = (fullView s).traces (system s) :=
  traces_eq (nutProject dep s) (nutLift dep s)

/-! ## The tag -/

theorem Site.find_eq_some {i : s.Ix} {upsId : String} :
    s.find upsId = some i ↔ (s.dev i).id = upsId := by
  constructor
  · intro h
    simpa using List.find?_some h
  · rintro rfl
    have hsome : (s.find (s.dev i).id).isSome = true :=
      List.find?_isSome.mpr ⟨i, List.mem_finRange i, decide_eq_true rfl⟩
    obtain ⟨j, hj⟩ := Option.isSome_iff_exists.mp hsome
    have hid : (s.dev j).id = (s.dev i).id := by simpa using List.find?_some hj
    have hdev : s.dev j = s.dev i := List.inj_on_of_nodup_map s.ids_nodup (List.get_mem _ _)
      (List.get_mem _ _) hid
    rw [hj, Site.dev_injective hdev]

namespace Upssched

variable {sh : Shell} {arg event : String}

theorem beforeColon_eq_self : beforeColon arg = arg ↔ ':' ∉ arg.toList := by
  rw [beforeColon, ← String.toList_inj, String.toList_ofList, List.takeWhile_eq_self_iff]
  constructor
  · intro h hmem
    simpa using h _ hmem
  · intro h c hc
    exact decide_eq_true fun hcolon => h (hcolon ▸ hc)

theorem delivered_eventBody (h : event ∈ events) {i : s.Ix} {ev : NutEvent} :
    delivered dep token path (eventBody event) = some (i, ev) ↔
      dep.upsId path = some (s.dev i).id ∧ dep.header token = dep.sharedToken ∧ ev = .ofText event := by
  have hev : eventOf [("event", .str event)] = .ofText event := rfl
  simp only [delivered, loads_eventBody h, hev, Option.bind_eq_bind, Option.bind_eq_some_iff,
    Site.find_eq_some]
  constructor
  · rintro ⟨upsId, hid, j, rfl, hj⟩
    split_ifs at hj with htoken
    obtain ⟨rfl, rfl⟩ := Prod.mk.inj (Option.some.inj hj)
    exact ⟨hid, not_not.mp htoken, rfl⟩
  · rintro ⟨hid, htoken, rfl⟩
    exact ⟨_, hid, i, rfl, by simp [htoken]⟩

/-- What the script does with the answer to its post. -/
def afterPost (root : Bool) (event : String) (answer : ℕ × String) : Script ℕ :=
  if event = "LOWBATT" then afterLowbatt root answer.2 else .ret answer.1

/-- **The script** gives up, or posts the event of its tag. -/
theorem main_cases (sh : Shell) (arg : String) :
    (main sh arg = .ret 1 ∧ ∀ vars, (sh.files sh.envFile).source sh.vars = some vars →
      ':' ∈ arg.toList → afterColon arg ∉ events) ∨
    ∃ vars, (sh.files sh.envFile).source sh.vars = some vars ∧ ':' ∈ arg.toList ∧
      afterColon arg ∈ events ∧ main sh arg = .op (.curl (vars.orElse "UPS_SERVER_PORT" "8787")
        (vars.orElse "UPS_SHARED_TOKEN" "change-me") (beforeColon arg) (eventBody (afterColon arg)))
        (afterPost sh.root (afterColon arg)) := by
  unfold main
  split
  next hvars => exact .inl ⟨rfl, fun vars h => absurd (hvars.symm.trans h) (by simp)⟩
  next vars hvars =>
    split_ifs with h1 h2
    · exact .inl ⟨rfl, fun _ _ hcolon => absurd hcolon (by simp [h1])⟩
    · refine .inl ⟨rfl, fun _ _ hcolon => ?_⟩
      rw [(h2.resolve_left fun h => beforeColon_eq_self.mp h hcolon)]
      decide
    · rw [not_or, beforeColon_eq_self, not_not] at h2
      unfold dispatch
      split_ifs with h3 h4
      · refine .inr ⟨vars, hvars, h2.1, ?_, ?_⟩
        · rcases h3 with h3 | h3 | h3 <;> simp [events, h3]
        · have hne : afterColon arg ≠ "LOWBATT" := by
            rcases h3 with h3 | h3 | h3 <;> rw [h3] <;> decide
          have hafter : afterPost sh.root (afterColon arg) = fun answer => .ret answer.1 :=
            funext fun _ => if_neg hne
          rw [hafter]
          rfl
      · refine .inr ⟨vars, hvars, h2.1, by simp [events, h4], ?_⟩
        have hafter : afterPost sh.root (afterColon arg) = fun answer =>
            afterLowbatt sh.root answer.2 := funext fun _ => if_pos h4
        rw [hafter]
        rfl
      · exact .inl ⟨rfl, fun _ _ _ => by simp_all [events]⟩

end Upssched

/-! ## The safety net -/

abbrev NutStep (s : Site) : Type := Transition (Nut s) (NutAct s)

variable (dep) in
/-- The script `k` delivers a low battery of the primary UPS `i`, and hears of it. -/
def GrantsFor (i : s.Ix) (k : ℕ) (t : NutStep s) : Prop :=
  ∃ out, t.act = .advance k out ∧ out.replies = true ∧
    t.pre.posts dep k out = some (i, .lowbatt) ∧ (s.dev i).isObserver = false

variable (dep) in
/-- The script `k` delivers a low battery of a primary UPS. -/
def Grants (k : ℕ) (t : NutStep s) : Prop := ∃ i, GrantsFor dep i k t

theorem Grants.act {t : NutStep s} (h : Grants dep k t) : ∃ out, t.act = .advance k out :=
  let ⟨_, out, hact, _⟩ := h
  ⟨out, hact⟩

/-- The script `k` runs a command. -/
def RunsCommand (k : ℕ) (words : List String) (t : NutStep s) : Prop :=
  ∃ out rest, t.act = .advance k out ∧ t.pre.scripts[k]? = some (.op (.command words) rest)

variable (dep s) in
/-- A script that is started like this, and meets this, delivers a low battery of a primary UPS. -/
def Asks (sh : Upssched.Shell) (arg : String) (out : Upssched.Outside) : Prop :=
  ∃ vars, (sh.files sh.envFile).source sh.vars = some vars ∧ ':' ∈ arg.toList ∧
    Upssched.afterColon arg = "LOWBATT" ∧
    out.reaches (vars.orElse "UPS_SERVER_PORT" "8787") = true ∧ out.replies = true ∧
    dep.header (vars.orElse "UPS_SHARED_TOKEN" "change-me") = dep.sharedToken ∧
    ∃ i, dep.upsId (Upssched.beforeColon arg) = some (s.dev i).id ∧ (s.dev i).isObserver = false

open Upssched in
/-- **At its start** a script delivers a low battery if it asks for that. -/
theorem grants_main {sh : Shell} {arg : String} (hk : u.scripts[k]? = some (main sh arg)) :
    Grants dep k ⟨u, .advance k out, v⟩ ↔ Asks dep s sh arg out := by
  have hposts : Grants dep k ⟨u, .advance k out, v⟩ ↔
      out.replies = true ∧
        ∃ i, u.posts dep k out = some (i, .lowbatt) ∧ (s.dev i).isObserver = false := by
    constructor
    · rintro ⟨i, out', hact, hreply, h⟩
      obtain ⟨-, rfl⟩ := NutAct.advance.inj hact
      exact ⟨hreply, i, h⟩
    · rintro ⟨hreply, i, h⟩
      exact ⟨i, out, rfl, hreply, h⟩
  rw [hposts, Nut.posts, hk]
  rcases main_cases sh arg with ⟨hmain, hno⟩ | ⟨vars, hvars, hcolon, hevent, hmain⟩
  · rw [hmain]
    refine iff_of_false (by simp) ?_
    rintro ⟨vars, hvars, hcolon, hlow, -⟩
    exact hno vars hvars hcolon (by simp [events, hlow])
  · rw [hmain]
    constructor
    · rintro ⟨hreply, i, hpost, hrole⟩
      simp only at hpost
      split_ifs at hpost with hport
      obtain ⟨hid, htoken, hev⟩ := (delivered_eventBody hevent).mp hpost
      exact ⟨vars, hvars, hcolon, ofText_eq_lowbatt.mp hev.symm, hport, hreply, htoken, i, hid,
        hrole⟩
    · rintro ⟨vars', hvars', -, hlow, hport, hreply, htoken, i, hid, hrole⟩
      obtain rfl := Option.some.inj (hvars.symm.trans hvars')
      refine ⟨hreply, i, ?_, hrole⟩
      simp only [hport, if_true]
      exact (delivered_eventBody hevent).mpr ⟨hid, htoken, (ofText_eq_lowbatt.mpr hlow).symm⟩

/-- What a script has still to do after the steps `tr`. -/
inductive ScriptStage (dep : Deployment) (tr : List (NutStep s)) (k : ℕ) : Upssched.Script ℕ → Prop
  | fresh (sh : Upssched.Shell) (arg : String) (idle : ∀ t ∈ tr, ∀ out, t.act ≠ .advance k out) :
      ScriptStage dep tr k (Upssched.main sh arg)
  | netted (root : Bool) (granted : ∃ g ∈ tr, Grants dep k g)
      (idle : ∀ t ∈ tr, ∀ words, ¬ RunsCommand k words t) :
      ScriptStage dep tr k (Upssched.netted root)
  | due (root : Bool) (granted : ∃ g ∈ tr, Grants dep k g)
      (idle : ∀ t ∈ tr, ∀ words, ¬ RunsCommand k words t) :
      ScriptStage dep tr k (Upssched.shutdownHomeserver root)
  | done (code : ℕ) (answered : (∃ g ∈ tr, Grants dep k g) → ∃ t ∈ tr, ∃ words, RunsCommand k words t) :
      ScriptStage dep tr k (.ret code)

variable {tr : List (NutStep s)} {t : NutStep s} {p : Upssched.Script ℕ}

theorem ScriptStage.snoc (h : ScriptStage dep tr k p) (ht : ∀ out, t.act ≠ .advance k out) :
    ScriptStage dep (tr ++ [t]) k p := by
  have hgrants : ¬ Grants dep k t := fun h =>
    let ⟨out, hact⟩ := h.act
    ht out hact
  have hruns : ∀ words, ¬ RunsCommand k words t := fun _ ⟨out, _, hact, _⟩ => ht out hact
  have hidle : (∀ t' ∈ tr, ∀ words, ¬ RunsCommand k words t') →
      ∀ t' ∈ tr ++ [t], ∀ words, ¬ RunsCommand k words t' := fun h =>
    List.forall_mem_append.mpr ⟨h, List.forall_mem_singleton.mpr hruns⟩
  cases h with
  | fresh sh arg idle =>
    exact .fresh sh arg (List.forall_mem_append.mpr ⟨idle, List.forall_mem_singleton.mpr ht⟩)
  | netted root granted idle =>
    obtain ⟨g, hg, hgrant⟩ := granted
    exact .netted root ⟨g, List.mem_append_left _ hg, hgrant⟩ (hidle idle)
  | due root granted idle =>
    obtain ⟨g, hg, hgrant⟩ := granted
    exact .due root ⟨g, List.mem_append_left _ hg, hgrant⟩ (hidle idle)
  | done code answered =>
    refine .done code fun ⟨g, hg, hgrant⟩ => ?_
    rcases List.mem_append.mp hg with hg | hg
    · obtain ⟨t', ht', hrun⟩ := answered ⟨g, hg, hgrant⟩
      exact ⟨t', List.mem_append_left _ ht', hrun⟩
    · exact absurd (List.mem_singleton.mp hg ▸ hgrant) hgrants

/-- **The reply asks for a shutdown** if it answers the low battery of a primary UPS. -/
theorem grep_answer {port : String} {rest : ℕ × String → Upssched.Script ℕ} {r : (ℕ × String) × World s}
    (hk : u.scripts[k]? = some (.op (.curl port token path body) rest))
    (hexec : Upssched.Op.exec dep (.curl port token path body) out u.world = some r) :
    grep shutdownPattern r.1.2.toList = true ↔ out.replies = true ∧
      ∃ i, u.posts dep k out = some (i, .lowbatt) ∧ (s.dev i).isObserver = false := by
  have hempty : grep shutdownPattern [] = false := by decide
  rw [Nut.posts, hk]
  rw [Upssched.Op.exec] at hexec
  split_ifs at hexec with hport
  · obtain ⟨⟨w', text⟩, hreq, rfl⟩ := Option.map_eq_some_iff.mp hexec
    simp only [hport, if_true]
    cases hreply : out.replies with
    | false => simp [Upssched.Outside.hears, hreply, hempty]
    | true =>
      simp only [Upssched.Outside.hears, hreply, if_true]
      rcases upsEvent_cases hreq with ⟨i, ev, hdel, -, rfl⟩ | ⟨hdel, -, code, rfl⟩
      · simp only [hdel, eventReply, grep_reply]
        simp [and_comm]
      · simp [hdel, dep.page_quiet]
  · obtain rfl := Option.some.inj hexec
    simp [hport, hempty]

theorem ScriptStage.advance (h : ScriptStage dep tr k p) (hp : u.scripts[k]? = some p)
    (hstep : u.advance dep k out = some v) :
    ∃ p', v.scripts = u.scripts.set k p' ∧
      ScriptStage dep (tr ++ [⟨u, .advance k out, v⟩]) k p' := by
  obtain ⟨o, rest, r, hk, hexec, hv⟩ := Nut.advance_cases hstep
  refine ⟨rest r.1, by rw [hv], ?_⟩
  have hop : p = .op o rest := Option.some.inj (hp.symm.trans hk)
  have hgranted : (∃ g ∈ tr, Grants dep k g) →
      ∃ g ∈ tr ++ [⟨u, .advance k out, v⟩], Grants dep k g := fun ⟨g, hg, hgrant⟩ =>
    ⟨g, List.mem_append_left _ hg, hgrant⟩
  have hidle : (∀ words, o ≠ .command words) → (∀ t ∈ tr, ∀ words, ¬ RunsCommand k words t) →
      ∀ t ∈ tr ++ [⟨u, .advance k out, v⟩], ∀ words, ¬ RunsCommand k words t := fun ho h =>
    List.forall_mem_append.mpr ⟨h, List.forall_mem_singleton.mpr fun words ⟨out', rest', _, hrun⟩ =>
      ho words (Prog.op.inj (Option.some.inj (hk.symm.trans hrun))).1⟩
  cases h with
  | fresh sh arg idle =>
    rcases Upssched.main_cases sh arg with ⟨hmain, -⟩ | ⟨vars, -, -, -, hmain⟩
    · exact absurd (hmain.symm.trans hop) (by simp)
    · cases hmain.symm.trans hop
      have hfirst : ∀ g ∈ tr ++ [⟨u, .advance k out, v⟩], Grants dep k g →
          g = ⟨u, .advance k out, v⟩ := fun g hg hgrant => by
        obtain ⟨out', hact⟩ := hgrant.act
        rcases List.mem_append.mp hg with hg | hg
        · exact absurd hact (idle g hg out')
        · exact List.mem_singleton.mp hg
      unfold Upssched.afterPost Upssched.afterLowbatt
      split_ifs with hlow hgrep
      · obtain ⟨hreply, i, hpost, hrole⟩ := (grep_answer hk hexec).mp hgrep
        exact .netted sh.root ⟨_, List.mem_concat_self, i, out, rfl, hreply, hpost, hrole⟩
          (hidle (by simp) fun t ht words ⟨out', _, hact, _⟩ => idle t ht out' hact)
      · refine .done 0 fun ⟨g, hg, hgrant⟩ => absurd ?_ hgrep
        rw [hfirst g hg hgrant] at hgrant
        obtain ⟨i, out', hact, hreply, h⟩ := hgrant
        obtain ⟨-, rfl⟩ := NutAct.advance.inj hact
        exact (grep_answer hk hexec).mpr ⟨hreply, i, h⟩
      · refine .done _ fun ⟨g, hg, hgrant⟩ => absurd ?_ hlow
        rw [hfirst g hg hgrant] at hgrant
        obtain ⟨_, -, -, hevent, -⟩ := (grants_main hp).mp hgrant
        exact hevent
  | netted root granted idle =>
    cases (show Prog.op (Upssched.Op.sleep 5) (fun _ => Upssched.shutdownHomeserver root) = _ from hop)
    exact .due root (hgranted granted) (hidle (by simp) idle)
  | due root granted idle =>
    cases (show Prog.op (Upssched.Op.command (Upssched.shutdownWords root)) .ret = _ from hop)
    exact .done _ fun _ => ⟨_, List.mem_concat_self, _, out, .ret, rfl, hk⟩
  | done code answered => exact absurd hop (by simp)

/-- What holds of all scripts after the steps `tr`. -/
structure ScriptsKept (dep : Deployment) (tr : List (NutStep s)) (u : Nut s) : Prop where
  started : ∀ t ∈ tr, ∀ k out, t.act = .advance k out → k < u.scripts.length
  stages : ∀ k p, u.scripts[k]? = some p → ScriptStage dep tr k p

theorem scriptsKept_step (ht : (nutSystem dep).Takes t) (h : ScriptsKept dep tr t.pre) :
    ScriptsKept dep (tr ++ [t]) t.post := by
  obtain ⟨u, a, v⟩ := t
  replace ht : u.step dep a = some v := ht
  obtain ⟨started, stages⟩ := h
  cases a with
  | server a =>
    obtain ⟨w, -, rfl⟩ := Option.map_eq_some_iff.mp ht
    refine ⟨List.forall_mem_append.mpr ⟨started, by simp⟩, fun k p hp => ?_⟩
    exact (stages k p hp).snoc (by simp)
  | start sh arg =>
    obtain rfl := Option.some.inj ht
    refine ⟨List.forall_mem_append.mpr ⟨fun t ht k out hact => ?_, by simp⟩, fun k p hp => ?_⟩
    · exact (started t ht k out hact).trans_le (by simp)
    · rcases Nat.lt_or_ge k u.scripts.length with hk | hk
      · rw [List.getElem?_append_left hk] at hp
        exact (stages k p hp).snoc (by simp)
      · rw [List.getElem?_append_right hk] at hp
        obtain ⟨hlen, rfl⟩ := List.getElem?_eq_some_iff.mp hp
        have hnew : ∀ t ∈ tr, ∀ out, t.act ≠ .advance k out := fun t ht out hact =>
          hk.not_gt (started t ht k out hact)
        have hone : k - u.scripts.length = 0 := by simpa using hlen
        simp only [hone, List.getElem_cons_zero]
        exact .fresh sh arg (List.forall_mem_append.mpr ⟨hnew, by simp⟩)
  | advance k out =>
    obtain ⟨o, rest, r, hk, -, -⟩ := Nut.advance_cases ht
    obtain ⟨hlen, -⟩ := List.getElem?_eq_some_iff.mp hk
    obtain ⟨p', hv, hstage⟩ := (stages k _ hk).advance hk ht
    simp only at hv ⊢
    refine ⟨?_, fun j p hp => ?_⟩
    · rw [hv, List.length_set]
      refine List.forall_mem_append.mpr ⟨started, List.forall_mem_singleton.mpr ?_⟩
      rintro j out' hact
      obtain ⟨rfl, -⟩ := NutAct.advance.inj hact
      exact hlen
    · rw [hv] at hp
      by_cases hj : j = k
      · subst hj
        rw [List.getElem?_set_self hlen] at hp
        obtain rfl := Option.some.inj hp
        exact hstage
      · rw [List.getElem?_set_ne (Ne.symm hj)] at hp
        refine (stages j p hp).snoc fun out' hact => ?_
        exact hj (NutAct.advance.inj hact).1.symm

theorem scriptsKept {u₀ : Nut s} (h₀ : (nutSystem dep).init u₀) (hr : Run (nutSystem dep) u₀ tr u) :
    ScriptsKept dep tr u := by
  have hinit : ScriptsKept dep [] u₀ := ⟨by simp, by simp [h₀.2]⟩
  exact hr.inv_steps (J := ScriptsKept dep) (C := fun _ _ => True)
    (fun _ _ ht _ h => scriptsKept_step ht h) [] hinit fun _ _ _ _ => trivial

theorem main_of_posts (h : ScriptsKept dep tr u) {r : s.Ix × NutEvent}
    (hpost : u.posts dep k out = some r) :
    ∃ sh arg, u.scripts[k]? = some (Upssched.main sh arg) := by
  unfold Nut.posts at hpost
  split at hpost
  next port token path body rest hk =>
    have hstage := h.stages k _ hk
    generalize hp : Prog.op (Upssched.Op.curl port token path body) rest = p at hstage
    cases hstage with
    | fresh sh arg => exact ⟨sh, arg, hk.trans (congrArg some hp)⟩
    | netted root =>
      cases hp.trans (show Upssched.netted root =
        .op (.sleep 5) fun _ => Upssched.shutdownHomeserver root from rfl)
    | due root =>
      cases hp.trans (show Upssched.shutdownHomeserver root =
        .op (.command (Upssched.shutdownWords root)) .ret from rfl)
    | done code => cases hp
  next => exact absurd hpost (by simp)

theorem netted_of_runsCommand (h : ScriptsKept dep tr t.pre) {words : List String}
    (hrun : RunsCommand k words t) : (∃ root, words = Upssched.shutdownWords root) ∧
      (∃ g ∈ tr, Grants dep k g) ∧ ∀ t' ∈ tr, ∀ words', ¬ RunsCommand k words' t' := by
  obtain ⟨out, rest, -, hk⟩ := hrun
  have hstage := h.stages k _ hk
  generalize hp : Prog.op (Upssched.Op.command words) rest = p at hstage
  cases hstage with
  | fresh sh arg =>
    rcases Upssched.main_cases sh arg with ⟨hmain, -⟩ | ⟨vars, -, -, -, hmain⟩
    · cases hp.trans hmain
    · cases hp.trans hmain
  | netted root =>
    cases hp.trans (show Upssched.netted root =
      .op (.sleep 5) fun _ => Upssched.shutdownHomeserver root from rfl)
  | due root granted idle =>
    cases hp.trans (show Upssched.shutdownHomeserver root =
      .op (.command (Upssched.shutdownWords root)) .ret from rfl)
    exact ⟨⟨root, rfl⟩, granted, idle⟩
  | done code => cases hp

/-- **A granted shutdown** finds the context shutting down on battery. -/
theorem struck_of_grants (ht : (nutSystem dep).Takes t) {i : s.Ix} (h : GrantsFor dep i k t) :
    (t.post.world.ctx i).mode = .shuttingDown ∧ (t.post.world.ctx i).upsOnBattery = true := by
  obtain ⟨u, a, v⟩ := t
  obtain ⟨out, rfl, -, hpost, -⟩ := h
  have hworld := Nut.world_of_advance ht
  rw [hpost] at hworld
  obtain ⟨-, c, hc, hv⟩ := step_call hworld
  obtain rfl := Option.some.inj hc
  have hctx : v.world.ctx i = (u.world.ctx i).quiet.handleEvent (s.dev i) out.env
      (u.world.peersOf i).desktopUpsOnBattery .lowbatt := by
    rw [hv]
    exact Function.update_self ..
  have hsettled : (v.world.ctx i).Settled out.env (u.world.peersOf i).desktopUpsOnBattery .lowbatt := by
    rw [hctx]
    exact Ctx.settled_lowbatt
  exact ⟨hsettled.2, hsettled.1⟩

variable (dep) in
/-- **The safety net** of `upssched-cmd`. -/
structure SafetyNet (x : Execution (nutSystem (s := s) dep)) : Prop where
  /-- what asks for it is the tag of a low battery of a primary UPS, delivered to the server -/
  asked : ∀ tr g tr', x.steps = tr ++ g :: tr' → ∀ k, Grants dep k g ↔ ∃ sh arg out,
    g.act = .advance k out ∧ g.pre.scripts[k]? = some (Upssched.main sh arg) ∧ Asks dep s sh arg out
  /-- a script runs no command but the shutdown, and that once, after it has been granted -/
  only : ∀ tr t tr', x.steps = tr ++ t :: tr' → ∀ k words, RunsCommand k words t →
    (∃ root, words = Upssched.shutdownWords root) ∧ (∃ g ∈ tr, Grants dep k g) ∧
      ∀ t' ∈ tr, ∀ words', ¬ RunsCommand k words' t'
  /-- once it is granted the script runs the shutdown, unless it has not got to it yet -/
  always : ∀ g ∈ x.steps, ∀ k, Grants dep k g →
    (∃ t ∈ x.steps, ∃ words, RunsCommand k words t) ∨
      ∃ root, x.last.scripts[k]? = some (Upssched.netted root) ∨
        x.last.scripts[k]? = some (Upssched.shutdownHomeserver root)
  /-- the context of that UPS is then shutting down on battery -/
  struck : ∀ g ∈ x.steps, ∀ i k, GrantsFor dep i k g →
    (g.post.world.ctx i).mode = .shuttingDown ∧ (g.post.world.ctx i).upsOnBattery = true

/-- **The safety net holds**, whatever is done with the scripts and the server. -/
theorem safetyNet (x : Execution (nutSystem (s := s) dep)) : SafetyNet dep x := by
  have hkept : ∀ {tr t tr'}, x.steps = tr ++ t :: tr' → ScriptsKept dep tr t.pre := fun h =>
    have hrun := x.run
    scriptsKept x.init (h ▸ hrun).around.1
  refine ⟨fun tr g tr' h k => ⟨fun hg => ?_, ?_⟩, fun tr t tr' h k words => ?_, fun g hg k hgrant => ?_,
    fun g hg i k => ?_⟩
  · obtain ⟨u, a, v⟩ := g
    obtain ⟨i, out, rfl, hreply, hpost, hrole⟩ := hg
    obtain ⟨sh, arg, hk⟩ := main_of_posts (hkept h) hpost
    exact ⟨sh, arg, out, rfl, hk, (grants_main hk).mp ⟨i, out, rfl, hreply, hpost, hrole⟩⟩
  · obtain ⟨u, a, v⟩ := g
    rintro ⟨sh, arg, out, rfl, hk, hasks⟩
    exact (grants_main hk).mpr hasks
  · exact netted_of_runsCommand (hkept h)
  · have hlast : ScriptsKept dep x.steps x.last := scriptsKept x.init x.run
    obtain ⟨out, hact⟩ := hgrant.act
    have hlen := hlast.started g hg k out hact
    have hk : x.last.scripts[k]? = some x.last.scripts[k] := List.getElem?_eq_getElem hlen
    have hstage := hlast.stages k _ hk
    generalize x.last.scripts[k] = p at hk hstage
    cases hstage with
    | fresh sh arg idle => exact absurd hact (idle g hg out)
    | netted root => exact .inr ⟨root, .inl hk⟩
    | due root => exact .inr ⟨root, .inr hk⟩
    | done code answered => exact .inl (answered ⟨g, hg, hgrant⟩)
  · exact struck_of_grants (x.takes hg)

end UpsOrchestrator

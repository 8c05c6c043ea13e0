import UpsOrchestrator.Wol

/-!
# What the relay does

The command that `_send_via_ssh` hands over is split by the shell of the relay and run by its Python.

* `shellScanner`: the words of a simple command with double quotes.
* `pyScanner`: the tokens of a line of Python; a line break in a short string literal is refused.
* `PyEnv.stmt`, `pySend`: the statements of a script that sends datagrams.
* `relayed`: what the relay sends for a command; **`eq_of_relayed`**: never anything but the packet.
* `SamePacket`: both ways to send come to the same; **`samePacket_iff`**: unless a line breaks in the
  MAC address (`BrokenLine`).
-/

set_option autoImplicit false

namespace UpsOrchestrator

open Lts

/-! ## The shell -/

/-- Where the shell is in a word. -/
inductive ShellState
  | blank
  | word (acc : List Char)
  | quoted (acc : List Char)
  /-- behind a backslash in quotes -/
  | escaped (acc : List Char)

/-- Characters that mean nothing to the shell outside quotes. -/
def isPlain (c : Char) : Bool := c.isAlphanum || "_-./".toList.contains c

/-- The words of a simple command; what would be expanded or would end the command is refused. -/
def shellScanner : Scanner Char ShellState (List Char) where
  start := .blank
  step
    | .blank, c =>
      if c = ' ' ∨ c = '\t' then some (.blank, [])
      else if c = '"' then some (.quoted [], [])
      else if isPlain c then some (.word [c], [])
      else none
    | .word acc, c =>
      if c = ' ' ∨ c = '\t' then some (.blank, [acc.reverse])
      else if c = '"' then some (.quoted acc, [])
      else if isPlain c then some (.word (c :: acc), [])
      else none
    | .quoted acc, c =>
      if c = '"' then some (.word acc, [])
      else if c = '\\' then some (.escaped acc, [])
      else if "$`".toList.contains c then none
      else some (.quoted (c :: acc), [])
    | .escaped acc, c =>
      if c = '\n' then some (.quoted acc, [])
      else if "$`\"\\".toList.contains c then some (.quoted (c :: acc), [])
      else some (.quoted (c :: '\\' :: acc), [])
  finish
    | .blank => some []
    | .word acc => some [acc.reverse]
    | _ => none

/-! ## Python -/

inductive PyToken
  | name (s : String)
  | num (n : ℕ)
  | str (text : List Char)
  | bytes (data : List UInt8)
  | op (c : Char)
  | newline
  deriving DecidableEq

/-- Where the tokenizer is. -/
inductive PyState
  | between
  | word (acc : List Char)
  | literal (isBytes : Bool) (acc : List Char)
  /-- behind a backslash in a literal -/
  | escape (isBytes : Bool) (acc : List Char)
  /-- behind `\x` -/
  | hex (isBytes : Bool) (acc : List Char)
  | hexDigit (isBytes : Bool) (acc : List Char) (v : ℕ)

def isLineBreak (c : Char) : Bool := c = '\n' || c = '\r'

def isWordChar (c : Char) : Bool := c.isAlphanum || c = '_'

/-- A number, or a name. -/
def wordToken (word : List Char) : PyToken :=
  if word.all Char.isDigit then .num (word.foldl (fun n c => 10 * n + (c.toNat - '0'.toNat)) 0)
  else .name (String.ofList word)

def literalToken (isBytes : Bool) (text : List Char) : PyToken :=
  if isBytes then .bytes (text.map fun c => UInt8.ofNat c.toNat) else .str text

/-- A character between tokens. -/
def pyBetween (c : Char) : Option (PyState × List PyToken) :=
  if c = ' ' ∨ c = '\t' ∨ c = '\x0c' then some (.between, [])
  else if isLineBreak c then some (.between, [.newline])
  else if c = '\'' then some (.literal false [], [])
  else if isWordChar c then some (.word [c], [])
  else if ".,;()=+*".toList.contains c then some (.between, [.op c])
  else none

/-- The tokens of a script: names, numbers, one-character operators and short string literals in
single quotes, which do not go on after a line break. -/
def pyScanner : Scanner Char PyState PyToken where
  start := .between
  step
    | .between, c => pyBetween c
    | .word acc, c =>
      if isWordChar c then some (.word (c :: acc), [])
      else if c = '\'' then
        if acc = ['b'] then some (.literal true [], []) else none
      else (pyBetween c).map fun r => (r.1, wordToken acc.reverse :: r.2)
    | .literal isBytes acc, c =>
      if c = '\'' then some (.between, [literalToken isBytes acc.reverse])
      else if isLineBreak c then none
      else if c = '\\' then some (.escape isBytes acc, [])
      else some (.literal isBytes (c :: acc), [])
    | .escape isBytes acc, c => if c = 'x' then some (.hex isBytes acc, []) else none
    | .hex isBytes acc, c => (hexValue c).map fun v => (.hexDigit isBytes acc v, [])
    | .hexDigit isBytes acc v, c =>
      (hexValue c).map fun w => (.literal isBytes (Char.ofNat (16 * v + w) :: acc), [])
  finish
    | .between => some []
    | .word acc => some [wordToken acc.reverse]
    | _ => none

/-- A datagram. -/
structure Datagram where
  payload : List UInt8
  host : List Char
  port : ℕ
  deriving DecidableEq

/-- The variables that hold bytes, the socket with its name, whether it may broadcast, and what has
been sent. -/
structure PyEnv where
  vars : String → Option (List UInt8) := fun _ => none
  socket : Option (String × Bool) := none
  sent : List Datagram := []

namespace PyEnv

variable (env : PyEnv)

/-- A factor `x * n` of bytes. -/
def term : List PyToken → Option (List UInt8)
  | [.bytes data, .op '*', .num n] => some (repeatBytes n data)
  | [.name x, .op '*', .num n] => (env.vars x).map (repeatBytes n)
  | _ => none

/-- The value of an expression of bytes: `bytes.fromhex` of a literal, or a sum. -/
def bytesOf : List PyToken → Option (List UInt8)
  | [.name "bytes", .op '.', .name "fromhex", .op '(', .str text, .op ')'] => fromHex text
  | toks => ((toks.splitOn (.op '+')).mapM env.term).map List.flatten

/-- `socket.socket(socket.AF_INET,socket.SOCK_DGRAM)` -/
def newSocket : List PyToken :=
  [.name "socket", .op '.', .name "socket", .op '(', .name "socket", .op '.', .name "AF_INET",
    .op ',', .name "socket", .op '.', .name "SOCK_DGRAM", .op ')']

/-- `socket.SOL_SOCKET,socket.SO_BROADCAST,1)` -/
def allowBroadcast : List PyToken :=
  [.name "socket", .op '.', .name "SOL_SOCKET", .op ',', .name "socket", .op '.',
    .name "SO_BROADCAST", .op ',', .num 1, .op ')']

/-- A method of the socket `x`. -/
def method (x f : String) (args : List PyToken) : Option PyEnv :=
  if env.socket.map Prod.fst ≠ some x then none
  else if f = "setsockopt" ∧ args = allowBroadcast then some { env with socket := some (x, true) }
  else if f = "close" ∧ args = [.op ')'] then some { env with socket := none }
  else if f = "sendto" ∧ env.socket = some (x, true) then
    match args with
    | [.name y, .op ',', .op '(', .str host, .op ',', .num port, .op ')', .op ')'] =>
      (env.vars y).map fun data => { env with sent := env.sent ++ [⟨data, host, port⟩] }
    | _ => none
  else none

/-- One statement. -/
def stmt : List PyToken → Option PyEnv
  | [.name "import", .name "socket"] => some env
  | .name x :: .op '=' :: toks =>
    if toks = newSocket then some { env with socket := some (x, false) }
    else (env.bytesOf toks).map fun data =>
      { env with vars := Function.update env.vars x (some data) }
  | .name x :: .op '.' :: .name f :: .op '(' :: args => env.method x f args
  | _ => none

end PyEnv

/-- What a script sends; none if it does not run to its end. -/
def pySend (script : List Char) : Option (List Datagram) := do
  let toks ← pyScanner.scan script
  let env ← (toks.splitOn (.op ';')).foldlM PyEnv.stmt {}
  pure env.sent

/-! ## The relay -/

/-- **What the relay sends** for a command: none if the shell or Python refuse it. -/
def relayed (cmd : String) : Option (List Datagram) := do
  match ← shellScanner.scan cmd.toList with
  | [python, option, script] =>
    if python = "python3".toList ∧ option = "-c".toList then pySend script else none
  | _ => none

/-! ## The script around the text -/

/-- The script up to the text of the MAC address. -/
def scriptHead : List Char := "import socket; ".toList ++ "mac=bytes.fromhex('".toList

/-- The script behind the text and its quote, up to the backslash. -/
def scriptMid : List Char := "); ".toList ++ "magic=b'".toList

/-- The script behind the backslash. -/
def scriptTail : List Char :=
  "xff'*6+mac*16; ".toList ++ ("s=socket.socket(socket.AF_INET,socket.SOCK_DGRAM); ".toList ++
    ("s.setsockopt(socket.SOL_SOCKET,socket.SO_BROADCAST,1); ".toList ++
      ("s.sendto(magic,('255.255.255.255',9)); ".toList ++ "s.close()".toList)))

/-- The script that the relay runs. -/
def script (text : List Char) : List Char :=
  scriptHead ++ (text ++ '\'' :: (scriptMid ++ '\\' :: scriptTail))

theorem toList_pieces {a b c h d d' e e' e'' f g k l l' : String}
    (hd : d.toList = '\'' :: d'.toList) (he : e.toList = e'.toList ++ '\\' :: e''.toList)
    (hl : l.toList = l'.toList ++ ['"']) :
    (a ++ b ++ c ++ h ++ d ++ e ++ f ++ g ++ k ++ l).toList = a.toList ++
      (b.toList ++ c.toList ++ (h.toList ++ '\'' :: (d'.toList ++ e'.toList ++ '\\' ::
        (e''.toList ++ (f.toList ++ (g.toList ++ (k.toList ++ l'.toList)))))) ++ ['"']) := by
  simp only [String.toList_append, hd, he, hl, List.append_assoc, List.cons_append]

theorem toList_remoteCmd (macHex : String) :
    (remoteCmd macHex).toList = "python3 -c \"".toList ++ (script macHex.toList ++ ['"']) :=
  toList_pieces rfl rfl rfl

/-- `magic=b'\xff'*6+mac*16` -/
def magicStmt : List PyToken :=
  [.name "magic", .op '=', .bytes [0xff], .op '*', .num 6, .op '+', .name "mac", .op '*', .num 16]

/-- The statements that send the packet. -/
def sendStmts : List (List PyToken) :=
  [.name "s" :: .op '=' :: PyEnv.newSocket,
    .name "s" :: .op '.' :: .name "setsockopt" :: .op '(' :: PyEnv.allowBroadcast,
    [.name "s", .op '.', .name "sendto", .op '(', .name "magic", .op ',', .op '(',
      .str "255.255.255.255".toList, .op ',', .num 9, .op ')', .op ')'],
    [.name "s", .op '.', .name "close", .op '(', .op ')']]

def headTokens : List PyToken :=
  [.name "import", .name "socket", .op ';', .name "mac", .op '=', .name "bytes", .op '.',
    .name "fromhex", .op '(']

def tailTokens : List PyToken :=
  .op ')' :: .op ';' :: List.intercalate [.op ';'] (magicStmt :: sendStmts)

theorem walk_scriptHead :
    pyScanner.walk .between scriptHead = some (.literal false [], headTokens) := by
  rfl

theorem scanFrom_scriptTail :
    pyScanner.scanFrom .between (scriptMid ++ '\\' :: scriptTail) = some tailTokens := by
  decide +kernel

variable {text : List Char}

/-- Text of digits and whitespace. -/
def HexText (text : List Char) : Prop := ∀ c ∈ text, isHexDigit c = true ∨ isAsciiSpace c = true

theorem HexText.not_mem (h : HexText text) {c : Char} (hc : isHexDigit c = false)
    (hc' : isAsciiSpace c = false) : c ∉ text := by
  intro hmem
  rcases h c hmem with hd | hs
  · rw [hc] at hd
    cases hd
  · rw [hc'] at hs
    cases hs

/-! ## The shell splits the command -/

/-- A character that stands for itself in double quotes. -/
def isQuotable (c : Char) : Bool := c ≠ '"' && c ≠ '\\' && !"$`".toList.contains c

theorem step_quoted {acc : List Char} {c : Char} (hc : isQuotable c = true) :
    shellScanner.step (.quoted acc) c = some (.quoted (c :: acc), []) := by
  simp only [isQuotable, Bool.and_eq_true, decide_eq_true_eq, Bool.not_eq_true'] at hc
  simp only [shellScanner, if_neg hc.1.1, if_neg hc.1.2, hc.2, Bool.false_eq_true, if_false]

theorem walk_quoted {acc cs : List Char} (h : ∀ c ∈ cs, isQuotable c = true) :
    shellScanner.walk (.quoted acc) cs = some (.quoted (cs.reverse ++ acc), []) :=
  Scanner.walk_gather (P := fun c => isQuotable c = true) (fun _ _ hc => step_quoted hc) h

theorem HexText.quotable (h : HexText text) : ∀ c ∈ text, isQuotable c = true := by
  intro c hc
  have hquote : c ≠ '"' := fun he => h.not_mem (c := '"') rfl rfl (he ▸ hc)
  have hslash : c ≠ '\\' := fun he => h.not_mem (c := '\\') rfl rfl (he ▸ hc)
  have hexpand : "$`".toList.all (fun c => !isHexDigit c && !isAsciiSpace c) = true := by rfl
  have hmem : c ∉ "$`".toList := by
    intro hm
    have hno := List.all_eq_true.mp hexpand c hm
    simp only [Bool.and_eq_true, Bool.not_eq_true'] at hno
    exact h.not_mem hno.1 hno.2 hc
  simp only [isQuotable, List.contains_eq_mem, decide_eq_false hmem, decide_eq_true hquote,
    decide_eq_true hslash, Bool.not_false, Bool.and_self]

theorem walk_slash {acc cs : List Char} (h : ∀ c ∈ cs, isQuotable c = true) :
    shellScanner.walk (.quoted acc) ('\\' :: 'x' :: cs) =
      some (.quoted (cs.reverse ++ 'x' :: '\\' :: acc), []) := by
  have hx : shellScanner.walk (.quoted acc) ['\\', 'x'] =
      some (.quoted ('x' :: '\\' :: acc), []) := rfl
  show shellScanner.walk _ (['\\', 'x'] ++ cs) = _
  rw [Scanner.walk_append, hx, Option.bind_some, walk_quoted h]
  rfl

theorem walk_script (h : HexText text) :
    shellScanner.walk (.quoted []) (script text) = some (.quoted (script text).reverse, []) := by
  have hhead : scriptHead.all isQuotable = true := by rfl
  have hmid : ('\'' :: scriptMid).all isQuotable = true := by rfl
  have htail : scriptTail.tail.all isQuotable = true := by decide +kernel
  have hsplit : script text = (scriptHead ++ (text ++ '\'' :: scriptMid)) ++
      '\\' :: 'x' :: scriptTail.tail := by
    have hx : scriptTail = 'x' :: scriptTail.tail := rfl
    rw [script, hx, List.tail_cons, List.append_assoc, List.append_assoc]
    rfl
  have hquoted : ∀ c ∈ scriptHead ++ (text ++ '\'' :: scriptMid), isQuotable c = true :=
    List.forall_mem_append.mpr ⟨List.all_eq_true.mp hhead,
      List.forall_mem_append.mpr ⟨h.quotable, List.all_eq_true.mp hmid⟩⟩
  rw [hsplit, Scanner.walk_append, walk_quoted hquoted, Option.bind_some,
    walk_slash (List.all_eq_true.mp htail)]
  simp

/-- **The shell hands the script to Python** as it is. -/
theorem scan_remoteCmd {macHex : String} (h : HexText macHex.toList) :
    shellScanner.scan (remoteCmd macHex).toList =
      some ["python3".toList, "-c".toList, script macHex.toList] := by
  have hopen : shellScanner.walk .blank "python3 -c \"".toList =
      some (.quoted [], ["python3".toList, "-c".toList]) := by rfl
  have hclose : ∀ acc, shellScanner.scanFrom (.quoted acc) ['"'] = some [acc.reverse] :=
    fun _ => rfl
  show shellScanner.scanFrom .blank _ = _
  rw [toList_remoteCmd, Scanner.scanFrom_append hopen, Scanner.scanFrom_append (walk_script h),
    hclose, List.reverse_reverse]
  rfl

/-! ## Python runs the script -/

theorem step_literal {acc : List Char} {c : Char} (hc : isHexDigit c = true ∨ isAsciiSpace c = true)
    (hb : isLineBreak c = false) :
    pyScanner.step (.literal false acc) c = some (.literal false (c :: acc), []) := by
  have hquote : c ≠ '\'' := by
    rintro rfl
    revert hc
    decide
  have hslash : c ≠ '\\' := by
    rintro rfl
    revert hc
    decide
  simp only [pyScanner, if_neg hquote, if_neg hslash, hb, Bool.false_eq_true, if_false]

theorem step_literal_lineBreak {acc : List Char} {c : Char} (hb : isLineBreak c = true) :
    pyScanner.step (.literal false acc) c = none := by
  have hquote : c ≠ '\'' := by
    rintro rfl
    revert hb
    decide
  simp only [pyScanner, if_neg hquote, hb, if_true]

/-- **The text is one literal** of the script if no line ends in it. -/
theorem scan_script (h : HexText text) (hb : ∀ c ∈ text, isLineBreak c = false) :
    pyScanner.scan (script text) = some (headTokens ++ .str text :: tailTokens) := by
  have htext : pyScanner.walk (.literal false []) text = some (.literal false text.reverse, []) := by
    rw [Scanner.walk_gather (S := pyScanner) (f := PyState.literal false)
      (P := fun c => (isHexDigit c = true ∨ isAsciiSpace c = true) ∧ isLineBreak c = false)
      (fun acc c hc => step_literal hc.1 hc.2) fun c hc => ⟨h c hc, hb c hc⟩, List.append_nil]
  have hquote : pyScanner.walk (.literal false text.reverse) ['\''] =
      some (.between, [.str text]) := by
    show some (PyState.between, [PyToken.str text.reverse.reverse]) = _
    rw [List.reverse_reverse]
  have hscript : script text =
      scriptHead ++ (text ++ (['\''] ++ (scriptMid ++ '\\' :: scriptTail))) := rfl
  rw [Scanner.scan, hscript, show pyScanner.start = .between from rfl,
    Scanner.scanFrom_append walk_scriptHead, Scanner.scanFrom_append htext,
    Scanner.scanFrom_append hquote, scanFrom_scriptTail]
  rfl

/-- **A line break in the text** is an error in the literal. -/
theorem scan_script_eq_none (h : HexText text) (hb : ∃ c ∈ text, isLineBreak c = true) :
    pyScanner.scan (script text) = none := by
  have htext : pyScanner.walk (.literal false []) text = none := by
    refine Scanner.walk_gather_eq_none (f := PyState.literal false)
      (P := fun c => (isHexDigit c = true ∨ isAsciiSpace c = true) ∧ isLineBreak c = false)
      (fun acc c hc => step_literal hc.1 hc.2) (fun acc c hc => step_literal_lineBreak hc)
      (fun c hc => ?_) hb
    cases hl : isLineBreak c with
    | true => exact .inr rfl
    | false => exact .inl ⟨h c hc, rfl⟩
  rw [Scanner.scan, script, show pyScanner.start = .between from rfl,
    Scanner.scanFrom_append walk_scriptHead, Scanner.scanFrom_append_eq_none htext]
  rfl

/-- The datagram that carries a packet. -/
def broadcast (packet : List UInt8) : Datagram := ⟨packet, "255.255.255.255".toList, 9⟩

variable {macBytes : List UInt8}

/-- What is known once the MAC address has been read. -/
def macEnv (macBytes : List UInt8) : PyEnv where
  vars := Function.update (fun _ => none) "mac" (some macBytes)

/-- What is known once the packet has been made. -/
def magicEnv (macBytes : List UInt8) : PyEnv where
  vars := Function.update (macEnv macBytes).vars "magic" (some (magic macBytes))

theorem stmt_magic : (macEnv macBytes).stmt magicStmt = some (magicEnv macBytes) := by
  have hmagic : [repeatBytes 6 [0xff], repeatBytes 16 macBytes].flatten = magic macBytes := by
    simp [magic]
  rw [magicEnv, ← hmagic]
  rfl

theorem foldlM_sendStmts : (sendStmts.foldlM PyEnv.stmt (magicEnv macBytes)).map (·.sent) =
    some [broadcast (magic macBytes)] := by
  rfl

/-- **The script sends the packet.** -/
theorem pySend_script (h : HexText text) (hb : ∀ c ∈ text, isLineBreak c = false)
    (hmac : fromHex text = some macBytes) :
    pySend (script text) = some [broadcast (magic macBytes)] := by
  have hsplit : (headTokens ++ .str text :: tailTokens).splitOn (.op ';') =
      [.name "import", .name "socket"] ::
      [.name "mac", .op '=', .name "bytes", .op '.', .name "fromhex", .op '(', .str text, .op ')'] ::
      magicStmt :: sendStmts := by rfl
  have hstmt : PyEnv.stmt {} [.name "mac", .op '=', .name "bytes", .op '.', .name "fromhex",
      .op '(', .str text, .op ')'] = some (macEnv macBytes) := by
    show (fromHex text).map _ = _
    rw [hmac]
    rfl
  have hrun : ((headTokens ++ .str text :: tailTokens).splitOn (.op ';')).foldlM PyEnv.stmt {} =
      sendStmts.foldlM PyEnv.stmt (magicEnv macBytes) := by
    rw [hsplit, List.foldlM_cons, show PyEnv.stmt {} [.name "import", .name "socket"] = some {}
      from rfl, Option.bind_eq_bind, Option.bind_some, List.foldlM_cons, hstmt, Option.bind_eq_bind,
      Option.bind_some, List.foldlM_cons, stmt_magic]
    rfl
  rw [← foldlM_sendStmts, ← hrun, pySend, scan_script h hb, Option.map_eq_bind]
  rfl

/-! ## The relayed packet -/

theorem relayed_remoteCmd {macHex : String} (h : HexText macHex.toList) :
    relayed (remoteCmd macHex) = pySend (script macHex.toList) := by
  rw [relayed, scan_remoteCmd h]
  exact if_pos (c := "python3".toList = "python3".toList ∧ "-c".toList = "-c".toList)
    (e := none) ⟨rfl, rfl⟩

/-- **No accepted address makes the relay send anything else.** -/
theorem eq_of_relayed {macAddress : String} {sent : List Datagram}
    (hm : parseMac macAddress = some macBytes)
    (h : relayed (remoteCmd (macHex macAddress)) = some sent) :
    sent = [broadcast (magic macBytes)] := by
  have hhex := (parseMac_eq_some.mp hm).1
  have hclean : HexText (macHex macAddress).toList := hex_or_space_of_fromHex hhex
  rw [relayed_remoteCmd hclean] at h
  by_cases hb : ∃ c ∈ (macHex macAddress).toList, isLineBreak c = true
  · rw [pySend, scan_script_eq_none hclean hb] at h
    cases h
  · rw [pySend_script hclean (fun c hc => by simpa using fun hl => hb ⟨c, hc, hl⟩) hhex] at h
    exact (Option.some.inj h).symm

/-- **What `send` does with a MAC address that it accepts.** -/
structure SendsMagic (macAddress : String) (macBytes : List UInt8) : Prop where
  six : macBytes.length = 6
  packet : magic macBytes = List.replicate 6 0xff ++ (List.replicate 16 macBytes).flatten
  length : (magic macBytes).length = 102
  direct : ∀ iface identity tr r, (send macAddress iface "" identity).Runs tr r →
    SendsOnly (magic macBytes) tr r
  decodes : fromHex (macHex macAddress).toList = some macBytes
  clean : HexText (macHex macAddress).toList
  /-- one command is handed over, on which the relay sends the packet -/
  relay : ∀ iface relaySsh identity tr r, relaySsh ≠ "" →
    (send macAddress iface relaySsh identity).Runs tr r → ∃ options cmd code,
      tr = [⟨.ssh (options ++ [relaySsh, cmd]), code⟩] ∧
        relayed cmd = some [broadcast (magic macBytes)]

/-- **What `send` does with any other text**: it raises, and nothing is sent. -/
def Rejects (macAddress : String) : Prop :=
  ∀ iface relaySsh identity tr r, (send macAddress iface relaySsh identity).Runs tr r →
    tr = [] ∧ r = .error .invalidMac

/-- **Both ways send the same packet**, and nothing else. -/
def SamePacket (macAddress : String) : Prop :=
  match parseMac macAddress with
  | none => Rejects macAddress
  | some macBytes => SendsMagic macAddress macBytes

/-- A MAC address that is accepted, with a line break in it. -/
def BrokenLine (macAddress : String) : Prop :=
  (parseMac macAddress).isSome = true ∧ ∃ c ∈ macAddress.toList, isLineBreak c = true

theorem lineBreak_macHex {macAddress : String} :
    (∃ c ∈ (macHex macAddress).toList, isLineBreak c = true) ↔
      ∃ c ∈ macAddress.toList, isLineBreak c = true := by
  refine exists_congr fun c => and_congr_left fun hc => mem_macHex ?_ ?_
  · rintro rfl
    revert hc
    decide
  · rintro rfl
    revert hc
    decide

/-- The command line that the relay is reached with. -/
def relayArgv : List (Event WolOp WolOp.Ans) → List String
  | [⟨.ssh argv, _⟩] => argv
  | _ => []

theorem sendsMagic_iff {macAddress : String} (hm : parseMac macAddress = some macBytes) :
    SendsMagic macAddress macBytes ↔ ¬∃ c ∈ macAddress.toList, isLineBreak c = true := by
  obtain ⟨hhex, hsix⟩ := parseMac_eq_some.mp hm
  have hclean : HexText (macHex macAddress).toList := hex_or_space_of_fromHex hhex
  rw [← lineBreak_macHex]
  constructor
  · intro h hb
    have hrelay : "root@relay" ≠ "" := by decide
    obtain ⟨tr, r, hrun⟩ : ∃ tr r, (send macAddress "eth0" "root@relay" "").Runs tr r :=
      exists_run_send_relay hm hrelay
    obtain ⟨code, htr⟩ := runs_send_relay hm hrelay hrun
    obtain ⟨options, cmd, code', htr', hsent⟩ := h.relay _ _ _ _ _ hrelay hrun
    have hargv : options ++ ["root@relay", cmd] = sshArgv "root@relay" macAddress "" :=
      congrArg relayArgv (htr'.symm.trans htr)
    have hcmd : cmd = remoteCmd (macHex macAddress) :=
      (List.cons.inj (List.cons.inj (List.append_inj' hargv rfl).2).2).1
    have hnone : pyScanner.scan (script (macHex macAddress).toList) = none :=
      scan_script_eq_none hclean hb
    rw [hcmd, relayed_remoteCmd hclean, pySend, hnone] at hsent
    cases hsent
  · intro hb
    refine ⟨hsix, ?_, length_magic hsix, fun iface identity tr r => runs_send_local hm, hhex, hclean,
      fun iface relaySsh identity tr r hr h => ?_⟩
    · simp [magic, repeatBytes]
    · obtain ⟨code, htr⟩ := runs_send_relay hm hr h
      refine ⟨_, _, code, htr, ?_⟩
      rw [relayed_remoteCmd hclean]
      exact pySend_script hclean (fun c hc => by simpa using fun hl => hb ⟨c, hc, hl⟩) hhex

/-- **The local path and the relay send the same packet** unless a line breaks in the MAC address. -/
theorem samePacket_iff (macAddress : String) : SamePacket macAddress ↔ ¬BrokenLine macAddress := by
  unfold SamePacket BrokenLine
  cases hm : parseMac macAddress with
  | none =>
    constructor
    · rintro - ⟨h, -⟩
      cases h
    · intro _ iface relaySsh identity tr r
      exact runs_send_of_invalid hm
  | some macBytes =>
    show SendsMagic macAddress macBytes ↔ _
    rw [sendsMagic_iff hm]
    simp

/-- The address ends with a line break. -/
theorem not_samePacket_of_lineBreak : ¬SamePacket "AA:BB:CC:DD:EE:FF\n" := by
  have haccepted : (parseMac "AA:BB:CC:DD:EE:FF\n").isSome = true := by decide
  have hline : '\n' ∈ "AA:BB:CC:DD:EE:FF\n".toList := by decide
  have hbroken : BrokenLine "AA:BB:CC:DD:EE:FF\n" := ⟨haccepted, '\n', hline, rfl⟩
  rw [samePacket_iff]
  exact not_not.mpr hbroken

end UpsOrchestrator

import Mathlib.Data.List.Basic
import Mathlib.Data.Char

/-!
# JSON

Values of JSON without fractions, as Python's `json` writes and reads them. Strings are sequences of
Unicode scalar values, so a text with a lone surrogate or a fraction is not read here.

* `Json`, `Style`, `dumps`: the writer, with or without indentation, in ASCII or not.
* `loads`: the reader; of members with equal keys it keeps the last.
* **`loads_dumps`**: what has been written is read back, whatever the style.
* `lineBreak_write`: without indentation a value is written on one line.
-/

set_option autoImplicit false

/-- A value of JSON; the members of an object are in the order in which they were inserted. -/
inductive Json
  | null
  | bool (b : Bool)
  | int (n : Int)
  | str (s : String)
  | arr (items : List Json)
  | obj (members : List (String × Json))
  deriving Repr

namespace Json

/-! ## Characters -/

/-- The value of a hexadecimal digit. -/
def digitValue (c : Char) : Option ℕ :=
  if '0' ≤ c ∧ c ≤ '9' then some (c.toNat - 48)
  else if 'a' ≤ c ∧ c ≤ 'f' then some (c.toNat - 87)
  else if 'A' ≤ c ∧ c ≤ 'F' then some (c.toNat - 55)
  else none

/-- Four hexadecimal digits. -/
def hex4 (n : ℕ) : List Char :=
  [(n / 4096).digitChar, (n / 256 % 16).digitChar, (n / 16 % 16).digitChar, (n % 16).digitChar]

def readHex4 : List Char → Option (ℕ × List Char)
  | a :: b :: c :: d :: rest => do
    let a ← digitValue a
    let b ← digitValue b
    let c ← digitValue c
    let d ← digitValue d
    some (4096 * a + 256 * b + 16 * c + d, rest)
  | _ => none

theorem digitValue_digitChar : ∀ n < 16, digitValue n.digitChar = some n := by decide

theorem readHex4_hex4 {n : ℕ} (h : n < 65536) (rest : List Char) :
    readHex4 (hex4 n ++ rest) = some (n, rest) := by
  have ha := digitValue_digitChar (n / 4096) (by omega)
  have hb := digitValue_digitChar (n / 256 % 16) (by omega)
  have hc := digitValue_digitChar (n / 16 % 16) (by omega)
  have hd := digitValue_digitChar (n % 16) (by omega)
  simp only [hex4, List.cons_append, List.nil_append, readHex4, ha, hb, hc, hd, Option.bind_eq_bind,
    Option.bind_some, Option.some.injEq, Prod.mk.injEq, and_true]
  omega

/-- `\uXXXX`, as a surrogate pair above `0xffff`. -/
def unicodeEscape (n : ℕ) : List Char :=
  if n < 0x10000 then '\\' :: 'u' :: hex4 n
  else '\\' :: 'u' :: hex4 (0xd800 + (n - 0x10000) / 1024) ++
    '\\' :: 'u' :: hex4 (0xdc00 + (n - 0x10000) % 1024)

/-- A character within quotes. -/
def escape (ascii : Bool) (c : Char) : List Char :=
  if c = '"' then ['\\', '"']
  else if c = '\\' then ['\\', '\\']
  else if c = '\n' then ['\\', 'n']
  else if c = '\r' then ['\\', 'r']
  else if c = '\t' then ['\\', 't']
  else if c = '\x0c' then ['\\', 'f']
  else if c = '\x08' then ['\\', 'b']
  else if c.toNat < 32 ∨ (ascii = true ∧ 126 < c.toNat) then unicodeEscape c.toNat
  else [c]

/-- After `\u`. -/
def readUnicode (text : List Char) : Option (Char × List Char) := do
  let (u, rest) ← readHex4 text
  if 0xd800 ≤ u ∧ u < 0xdc00 then
    match rest with
    | '\\' :: 'u' :: rest => do
      let (v, rest) ← readHex4 rest
      if 0xdc00 ≤ v ∧ v < 0xe000 then
        some (Char.ofNat (0x10000 + (u - 0xd800) * 1024 + (v - 0xdc00)), rest)
      else none
    | _ => none
  else if 0xdc00 ≤ u ∧ u < 0xe000 then none
  else some (Char.ofNat u, rest)

/-- After a backslash. -/
def readEscape : List Char → Option (Char × List Char)
  | '"' :: rest => some ('"', rest)
  | '\\' :: rest => some ('\\', rest)
  | '/' :: rest => some ('/', rest)
  | 'n' :: rest => some ('\n', rest)
  | 'r' :: rest => some ('\r', rest)
  | 't' :: rest => some ('\t', rest)
  | 'f' :: rest => some ('\x0c', rest)
  | 'b' :: rest => some ('\x08', rest)
  | 'u' :: rest => readUnicode rest
  | _ => none

/-- A character within quotes, or the closing quote. -/
def readChar : List Char → Option (Option Char × List Char)
  | '"' :: rest => some (none, rest)
  | '\\' :: rest => (readEscape rest).map fun (c, rest) => (some c, rest)
  | c :: rest => if c.toNat < 32 then none else some (some c, rest)
  | [] => none

theorem readUnicode_hex4 {u : ℕ} (h : u < 0xd800 ∨ (0xdfff < u ∧ u < 65536)) (rest : List Char) :
    readUnicode (hex4 u ++ rest) = some (Char.ofNat u, rest) := by
  have hread := readHex4_hex4 (n := u) (by omega) rest
  simp only [readUnicode, hread, Option.bind_eq_bind, Option.bind_some]
  rw [if_neg (by omega), if_neg (by omega)]

theorem readUnicode_pair {u v : ℕ} (hu : 0xd800 ≤ u ∧ u < 0xdc00) (hv : 0xdc00 ≤ v ∧ v < 0xe000)
    (rest : List Char) : readUnicode (hex4 u ++ '\\' :: 'u' :: (hex4 v ++ rest)) =
      some (Char.ofNat (0x10000 + (u - 0xd800) * 1024 + (v - 0xdc00)), rest) := by
  have hhigh := readHex4_hex4 (n := u) (by omega)
  have hlow := readHex4_hex4 (n := v) (by omega)
  simp only [readUnicode, hhigh, hlow, Option.bind_eq_bind, Option.bind_some]
  rw [if_pos hu, if_pos hv]

theorem readUnicode_escape (c : Char) (rest : List Char) :
    readUnicode ((unicodeEscape c.toNat).drop 2 ++ rest) = some (c, rest) := by
  have hvalid : c.toNat < 0xd800 ∨ 0xdfff < c.toNat ∧ c.toNat < 0x110000 := c.valid
  have hself : Char.ofNat c.toNat = c := Char.ofNat_toNat c
  unfold unicodeEscape
  generalize c.toNat = n at hvalid hself ⊢
  split_ifs with h
  · rw [← hself]
    exact readUnicode_hex4 (by omega) rest
  · have hpair := readUnicode_pair (u := 0xd800 + (n - 0x10000) / 1024)
      (v := 0xdc00 + (n - 0x10000) % 1024) (by omega) (by omega) rest
    have hn : 0x10000 + (0xd800 + (n - 0x10000) / 1024 - 0xd800) * 1024 +
        (0xdc00 + (n - 0x10000) % 1024 - 0xdc00) = n := by omega
    rw [hn, hself] at hpair
    rw [← hpair]
    simp only [List.cons_append, List.append_assoc, List.drop_succ_cons, List.drop_zero]

theorem unicodeEscape_eq (n : ℕ) :
    unicodeEscape n = '\\' :: 'u' :: (unicodeEscape n).drop 2 := by
  unfold unicodeEscape
  split_ifs <;> rfl

/-- **An escaped character is read back.** -/
theorem readChar_escape (ascii : Bool) (c : Char) (rest : List Char) :
    readChar (escape ascii c ++ rest) = some (some c, rest) := by
  unfold escape
  split_ifs with h1 h2 h3 h4 h5 h6 h7 h8
  · subst h1; rfl
  · subst h2; rfl
  · subst h3; rfl
  · subst h4; rfl
  · subst h5; rfl
  · subst h6; rfl
  · subst h7; rfl
  · rw [unicodeEscape_eq]
    simp only [List.cons_append, readChar, readEscape, readUnicode_escape, Option.map_some]
  · rw [List.singleton_append, readChar.eq_def]
    split
    · simp_all
    · simp_all
    · simp_all
    · simp_all

/-! ## Strings -/

/-- What is left of a text after the quote that closes a string, with the string. -/
def readString : ℕ → List Char → Option (List Char × List Char)
  | 0, _ => none
  | n + 1, text =>
    match readChar text with
    | none => none
    | some (none, rest) => some ([], rest)
    | some (some c, rest) => (readString n rest).map fun (cs, rest) => (c :: cs, rest)

def quote (ascii : Bool) (s : String) : List Char :=
  '"' :: (s.toList.flatMap (escape ascii) ++ ['"'])

theorem length_unicodeEscape_pos (n : ℕ) : 0 < (unicodeEscape n).length := by
  rw [unicodeEscape_eq]
  exact Nat.succ_pos _

theorem length_escape_pos (ascii : Bool) (c : Char) : 0 < (escape ascii c).length := by
  unfold escape
  split_ifs <;> simp [length_unicodeEscape_pos]

theorem readString_escape (ascii : Bool) (cs rest : List Char) (n : ℕ) (h : cs.length < n) :
    readString n (cs.flatMap (escape ascii) ++ '"' :: rest) = some (cs, rest) := by
  induction cs generalizing n with
  | nil =>
    obtain ⟨n, rfl⟩ := Nat.exists_eq_succ_of_ne_zero (Nat.ne_of_gt h)
    rfl
  | cons c cs ih =>
    obtain ⟨n, rfl⟩ := Nat.exists_eq_succ_of_ne_zero (Nat.ne_of_gt (Nat.zero_lt_of_lt h))
    rw [List.flatMap_cons, List.append_assoc, readString, readChar_escape]
    simp only [ih n (by simpa using h), Option.map_some]

theorem length_le_flatMap_escape (ascii : Bool) (cs : List Char) :
    cs.length ≤ (cs.flatMap (escape ascii)).length := by
  induction cs with
  | nil => exact le_rfl
  | cons c cs ih =>
    have hc := length_escape_pos ascii c
    rw [List.flatMap_cons, List.length_append, List.length_cons]
    omega

/-! ## Numbers -/

/-- The character would carry a number on. -/
def carriesOn (c : Char) : Bool := c.isDigit || c = '.' || c = 'e' || c = 'E'

/-- A number ends before the text. -/
def Stops (text : List Char) : Prop := ∀ c ∈ text.head?, carriesOn c = false

/-- Digits without a leading zero; a fraction or an exponent is not read. -/
def readNat (text : List Char) : Option (ℕ × List Char) :=
  let digits := text.takeWhile Char.isDigit
  let rest := text.dropWhile Char.isDigit
  if digits = [] ∨ (digits.head? = some '0' ∧ digits.length ≠ 1) ∨ rest.head?.any carriesOn then none
  else some (Nat.ofDigitChars 10 digits 0, rest)

def readInt : List Char → Option (Int × List Char)
  | '-' :: rest => (readNat rest).map fun (n, rest) => (-(n : Int), rest)
  | text => (readNat text).map fun (n, rest) => ((n : Int), rest)

def writeInt (n : Int) : List Char :=
  if n < 0 then '-' :: Nat.toDigits 10 n.natAbs else Nat.toDigits 10 n.natAbs

theorem isDigit_toDigits {n : ℕ} {c : Char} (h : c ∈ Nat.toDigits 10 n) : c.isDigit = true :=
  Nat.isDigit_of_mem_toDigits (by decide) (by decide) h

theorem eq_zero_of_head? {n : ℕ} (h : (Nat.toDigits 10 n).head? = some '0') : n = 0 := by
  induction n using Nat.strong_induction_on with
  | _ n ih =>
    rw [Nat.toDigits_eq_if (by decide)] at h
    split_ifs at h with hn
    · exact Nat.digitChar_eq_zero.mp (Option.some.inj h)
    · rw [List.head?_append_of_ne_nil _ Nat.toDigits_ne_nil] at h
      have hz := ih (n / 10) (by omega) h
      omega

theorem takeWhile_digits {ds rest : List Char} (hd : ∀ c ∈ ds, c.isDigit = true) (hr : Stops rest) :
    (ds ++ rest).takeWhile Char.isDigit = ds ∧ (ds ++ rest).dropWhile Char.isDigit = rest := by
  have hnil : rest.takeWhile Char.isDigit = [] ∧ rest.dropWhile Char.isDigit = rest := by
    cases rest with
    | nil => exact ⟨rfl, rfl⟩
    | cons c rest =>
      have hc : c.isDigit = false := by
        have hstop := hr c rfl
        simp only [carriesOn, Bool.or_eq_false_iff] at hstop
        exact hstop.1.1.1
      simp [hc]
  rw [List.takeWhile_append_of_pos hd, List.dropWhile_append_of_pos hd, hnil.1, hnil.2,
    List.append_nil]
  exact ⟨rfl, rfl⟩

theorem readNat_toDigits (n : ℕ) {rest : List Char} (hr : Stops rest) :
    readNat (Nat.toDigits 10 n ++ rest) = some (n, rest) := by
  obtain ⟨htake, hdrop⟩ := takeWhile_digits (fun c hc => isDigit_toDigits (n := n) hc) hr
  unfold readNat
  rw [htake, hdrop, if_neg, Nat.ofDigitChars_ten_toDigits]
  rintro (h | ⟨hz, hlen⟩ | hc)
  · exact Nat.toDigits_ne_nil h
  · rw [eq_zero_of_head? hz] at hlen
    exact hlen rfl
  · obtain ⟨c, hmem, hcarry⟩ := Option.any_eq_true _ _ |>.mp hc
    exact absurd hcarry (by rw [hr c hmem]; decide)

theorem readInt_writeInt (n : Int) {rest : List Char} (hr : Stops rest) :
    readInt (writeInt n ++ rest) = some (n, rest) := by
  unfold writeInt
  split_ifs with hn
  · rw [List.cons_append, readInt, readNat_toDigits _ hr, Option.map_some]
    have habs : -(n.natAbs : Int) = n := by omega
    exact congrArg (fun i => some (i, rest)) habs
  · have hne : ∀ rest', Nat.toDigits 10 n.natAbs ++ rest ≠ '-' :: rest' := by
      intro rest' h
      cases hds : Nat.toDigits 10 n.natAbs with
      | nil => exact Nat.toDigits_ne_nil hds
      | cons d ds =>
        rw [hds] at h
        have hd := isDigit_toDigits (n := n.natAbs) (c := d) (by simp [hds])
        rw [List.cons.inj h |>.1] at hd
        exact absurd hd (by decide)
    rw [readInt, readNat_toDigits _ hr, Option.map_some]
    · have habs : (n.natAbs : Int) = n := by omega
      exact congrArg (fun i => some (i, rest)) habs
    · exact hne

/-! ## Values -/

/-- How a value is laid out: the indentation of `indent`, the spaces of `separators`, and
`ensure_ascii`. -/
structure Style where
  indent : Option ℕ := none
  commaSpace : Bool := true
  colonSpace : Bool := true
  ascii : Bool := true
  deriving DecidableEq, Repr

namespace Style

variable (st : Style)

/-- What comes between the members of a container at this depth. -/
def gap (depth : ℕ) : List Char :=
  match st.indent with
  | none => []
  | some n => '\n' :: List.replicate (n * depth) ' '

def comma : List Char := if st.commaSpace then [',', ' '] else [',']

def colon : List Char := if st.colonSpace then [':', ' '] else [':']

end Style

mutual

/-- A value, in a container at this depth. -/
def write (st : Style) (depth : ℕ) : Json → List Char
  | .null => ['n', 'u', 'l', 'l']
  | .bool true => ['t', 'r', 'u', 'e']
  | .bool false => ['f', 'a', 'l', 's', 'e']
  | .int n => writeInt n
  | .str s => quote st.ascii s
  | .arr [] => ['[', ']']
  | .arr (x :: xs) => '[' :: (st.gap (depth + 1) ++ (write st (depth + 1) x ++
      (writeItems st (depth + 1) xs ++ (st.gap depth ++ [']']))))
  | .obj [] => ['\x7b', '\x7d']
  | .obj ((k, x) :: ms) => '\x7b' :: (st.gap (depth + 1) ++ (quote st.ascii k ++ (st.colon ++
      (write st (depth + 1) x ++ (writeMembers st (depth + 1) ms ++ (st.gap depth ++ ['\x7d']))))))

def writeItems (st : Style) (depth : ℕ) : List Json → List Char
  | [] => []
  | x :: xs => st.comma ++ (st.gap depth ++ (write st depth x ++ writeItems st depth xs))

def writeMembers (st : Style) (depth : ℕ) : List (String × Json) → List Char
  | [] => []
  | (k, x) :: ms => st.comma ++ (st.gap depth ++ (quote st.ascii k ++ (st.colon ++
      (write st depth x ++ writeMembers st depth ms))))

end

/-- `json.dumps` -/
def dumps (st : Style) (v : Json) : String := String.ofList (write st 0 v)

/-- `members[key] = v`: an old member keeps its place. -/
def setMember (key : String) (v : Json) : List (String × Json) → List (String × Json)
  | [] => [(key, v)]
  | (k, x) :: ms => if k = key then (k, v) :: ms else (k, x) :: setMember key v ms

/-- The object of the members read. -/
def fromPairs (pairs : List (String × Json)) : List (String × Json) :=
  pairs.foldl (fun ms p => setMember p.1 p.2 ms) []

def isBlank (c : Char) : Bool := c = ' ' || c = '\t' || c = '\n' || c = '\r'

/-- The text after any blanks. -/
def skip (text : List Char) : List Char := text.dropWhile isBlank

/-- The rest of a literal. -/
def keyword (rest word : List Char) (v : Json) : Option (Json × List Char) :=
  if word.isPrefixOf rest then some (v, rest.drop word.length) else none

mutual

/-- The value that a text begins with. -/
def read : ℕ → List Char → Option (Json × List Char)
  | n + 1, c :: rest =>
    if c = '"' then (readString n rest).map fun (cs, rest) => (.str (String.ofList cs), rest)
    else if c = '[' then
      if (skip rest).head? = some ']' then some (.arr [], (skip rest).tail)
      else (readItems n (skip rest)).map fun (xs, rest) => (.arr xs, rest)
    else if c = '\x7b' then
      if (skip rest).head? = some '\x7d' then some (.obj [], (skip rest).tail)
      else (readMembers n (skip rest)).map fun (ms, rest) => (.obj (fromPairs ms), rest)
    else if c = 'n' then keyword rest ['u', 'l', 'l'] .null
    else if c = 't' then keyword rest ['r', 'u', 'e'] (.bool true)
    else if c = 'f' then keyword rest ['a', 'l', 's', 'e'] (.bool false)
    else (readInt (c :: rest)).map fun (i, rest) => (.int i, rest)
  | _, _ => none

/-- The items up to the closing bracket. -/
def readItems : ℕ → List Char → Option (List Json × List Char)
  | 0, _ => none
  | n + 1, text =>
    match read n text with
    | none => none
    | some (x, rest) =>
      match skip rest with
      | ']' :: rest => some ([x], rest)
      | ',' :: rest => (readItems n (skip rest)).map fun (xs, rest) => (x :: xs, rest)
      | _ => none

/-- The members up to the closing brace. -/
def readMembers : ℕ → List Char → Option (List (String × Json) × List Char)
  | n + 1, '"' :: rest =>
    match readString n rest with
    | none => none
    | some (k, rest) =>
      match skip rest with
      | ':' :: rest =>
        match read n (skip rest) with
        | none => none
        | some (x, rest) =>
          match skip rest with
          | '\x7d' :: rest => some ([(String.ofList k, x)], rest)
          | ',' :: rest => (readMembers n (skip rest)).map fun (ms, rest) =>
            ((String.ofList k, x) :: ms, rest)
          | _ => none
      | _ => none
  | _, _ => none

end

/-- `json.loads`; none if it raises. -/
def loads (text : String) : Option Json :=
  match read (2 * text.toList.length + 2) (skip text.toList) with
  | some (v, rest) => if skip rest = [] then some v else none
  | none => none

/-! ## Blanks -/

theorem skip_of_head {text : List Char} (h : ∀ c ∈ text.head?, isBlank c = false) :
    skip text = text := by
  cases text with
  | nil => rfl
  | cons c rest => simp [skip, h c rfl]

theorem skip_append {blanks text : List Char} (hb : ∀ c ∈ blanks, isBlank c = true)
    (h : ∀ c ∈ text.head?, isBlank c = false) : skip (blanks ++ text) = text := by
  rw [skip, List.dropWhile_append_of_pos hb]
  exact skip_of_head h

namespace Style

variable {st : Style} {depth : ℕ} {c : Char}

theorem isBlank_of_mem_gap (h : c ∈ st.gap depth) : isBlank c = true := by
  unfold gap at h
  split at h
  · exact absurd h List.not_mem_nil
  · rcases List.mem_cons.mp h with rfl | h
    · rfl
    · rw [List.eq_of_mem_replicate h]
      rfl

theorem comma_eq : st.comma = ',' :: if st.commaSpace then [' '] else [] := by
  unfold comma
  split_ifs <;> rfl

theorem colon_eq : st.colon = ':' :: if st.colonSpace then [' '] else [] := by
  unfold colon
  split_ifs <;> rfl

theorem isBlank_of_mem_space {b : Bool} (h : c ∈ if b = true then [' '] else []) :
    isBlank c = true := by
  split_ifs at h
  · rw [List.mem_singleton.mp h]
    rfl
  · exact absurd h List.not_mem_nil

end Style

/-! ## What a value begins with -/

/-- A text that begins a value: neither a blank nor a closing bracket. -/
def Opens (text : List Char) : Prop :=
  ∃ c rest, text = c :: rest ∧ isBlank c = false ∧ c ≠ ']' ∧ c ≠ '\x7d'

theorem Opens.append {text : List Char} (h : Opens text) (rest : List Char) : Opens (text ++ rest) := by
  obtain ⟨c, cs, rfl, hc⟩ := h
  exact ⟨c, cs ++ rest, rfl, hc⟩

theorem Opens.not_blank {text : List Char} (h : Opens text) : ∀ c ∈ text.head?, isBlank c = false := by
  obtain ⟨c, cs, rfl, hc, -⟩ := h
  intro c' hc'
  obtain rfl := Option.some.inj hc'
  exact hc

theorem writeInt_cons (n : Int) :
    ∃ c cs, writeInt n = c :: cs ∧ (c = '-' ∨ c.isDigit = true) := by
  unfold writeInt
  split_ifs
  · exact ⟨'-', _, rfl, .inl rfl⟩
  · cases hds : Nat.toDigits 10 n.natAbs with
    | nil => exact absurd hds Nat.toDigits_ne_nil
    | cons d ds => exact ⟨d, ds, rfl, .inr (isDigit_toDigits (n := n.natAbs) (by simp [hds]))⟩

theorem ne_of_sign_or_digit {c c' : Char} (h : c = '-' ∨ c.isDigit = true) (h1 : c' ≠ '-')
    (h2 : c'.isDigit = false) : c ≠ c' := by
  rintro rfl
  rcases h with h | h
  · exact h1 h
  · exact absurd (h.symm.trans h2) (by decide)

theorem opens_write (st : Style) (depth : ℕ) (v : Json) : Opens (write st depth v) := by
  cases v with
  | null => exact ⟨'n', _, rfl, by decide⟩
  | bool b => cases b with
    | false => exact ⟨'f', _, rfl, by decide⟩
    | true => exact ⟨'t', _, rfl, by decide⟩
  | int n =>
    obtain ⟨c, cs, he, hc⟩ := writeInt_cons n
    refine ⟨c, cs, by rw [write, he], ?_, ne_of_sign_or_digit hc (by decide) (by decide),
      ne_of_sign_or_digit hc (by decide) (by decide)⟩
    have hne : ∀ c', c' ≠ '-' → c'.isDigit = false → c ≠ c' := fun c' => ne_of_sign_or_digit hc
    simp only [isBlank, Bool.or_eq_false_iff, decide_eq_false_iff_not]
    exact ⟨⟨⟨hne _ (by decide) (by decide), hne _ (by decide) (by decide)⟩,
      hne _ (by decide) (by decide)⟩, hne _ (by decide) (by decide)⟩
  | str s => exact ⟨'"', _, by rw [write, quote], by decide⟩
  | arr xs => cases xs with
    | nil => exact ⟨'[', _, by rw [write], by decide⟩
    | cons x xs => exact ⟨'[', _, by rw [write], by decide⟩
  | obj ms => cases ms with
    | nil => exact ⟨'\x7b', _, by rw [write], by decide⟩
    | cons m ms => exact ⟨'\x7b', _, by rw [write], by decide⟩

/-! ## The round trip -/

mutual

/-- The keys of every object in the value are distinct, as in a dictionary. -/
def distinct : Json → Bool
  | .arr xs => distinctItems xs
  | .obj ms => (ms.map (·.1)).Nodup && distinctMembers ms
  | _ => true

def distinctItems : List Json → Bool
  | [] => true
  | x :: xs => distinct x && distinctItems xs

def distinctMembers : List (String × Json) → Bool
  | [] => true
  | (_, x) :: ms => distinct x && distinctMembers ms

end

theorem setMember_of_notMem {key : String} {ms : List (String × Json)} (h : key ∉ ms.map (·.1))
    (v : Json) : setMember key v ms = ms ++ [(key, v)] := by
  induction ms with
  | nil => rfl
  | cons m ms ih =>
    obtain ⟨k, x⟩ := m
    simp only [List.map_cons, List.mem_cons, not_or] at h
    rw [setMember, if_neg (Ne.symm h.1), ih h.2, List.cons_append]

theorem foldl_setMember {ms acc : List (String × Json)} (h : ((acc ++ ms).map (·.1)).Nodup) :
    ms.foldl (fun ms p => setMember p.1 p.2 ms) acc = acc ++ ms := by
  induction ms generalizing acc with
  | nil => simp
  | cons m ms ih =>
    have hkey : m.1 ∉ acc.map (·.1) := by
      rw [List.map_append, List.nodup_append] at h
      exact fun hm => h.2.2 _ hm m.1 (by simp) rfl
    rw [List.foldl_cons, setMember_of_notMem hkey, ih (by simpa using h), List.append_assoc]
    rfl

theorem fromPairs_of_nodup {ms : List (String × Json)} (h : (ms.map (·.1)).Nodup) :
    fromPairs ms = ms := foldl_setMember h

theorem stops_of_head {c : Char} {text : List Char} (h : carriesOn c = false) : Stops (c :: text) := by
  intro c' hc'
  obtain rfl := Option.some.inj hc'
  exact h

theorem stops_gap (st : Style) (depth : ℕ) {text : List Char} (h : Stops text) :
    Stops (st.gap depth ++ text) := by
  unfold Style.gap
  cases st.indent with
  | none => exact h
  | some n => exact stops_of_head (by decide)

theorem stops_items (st : Style) (depth : ℕ) (xs : List Json) {text : List Char} (h : Stops text) :
    Stops (writeItems st depth xs ++ text) := by
  cases xs with
  | nil => exact h
  | cons x xs =>
    rw [writeItems, Style.comma_eq]
    exact stops_of_head (by decide)

theorem stops_members (st : Style) (depth : ℕ) (ms : List (String × Json)) {text : List Char}
    (h : Stops text) : Stops (writeMembers st depth ms ++ text) := by
  cases ms with
  | nil => exact h
  | cons m ms =>
    rw [writeMembers, Style.comma_eq]
    exact stops_of_head (by decide)

theorem readString_quote (ascii : Bool) (s : String) {n : ℕ} (h : (quote ascii s).length ≤ n)
    (rest : List Char) : readString n (s.toList.flatMap (escape ascii) ++ '"' :: rest) =
      some (s.toList, rest) := by
  refine readString_escape ascii _ _ n ?_
  have hle := length_le_flatMap_escape ascii s.toList
  simp only [quote, List.length_cons, List.length_append, List.length_nil] at h
  omega

theorem skip_gap (st : Style) (depth : ℕ) {text : List Char}
    (h : ∀ c ∈ text.head?, isBlank c = false) : skip (st.gap depth ++ text) = text :=
  skip_append (fun _ => Style.isBlank_of_mem_gap) h

theorem skip_space_gap (st : Style) (b : Bool) (depth : ℕ) {text : List Char}
    (h : ∀ c ∈ text.head?, isBlank c = false) :
    skip ((if b = true then [' '] else []) ++ (st.gap depth ++ text)) = text := by
  rw [← List.append_assoc]
  refine skip_append (fun c hc => ?_) h
  rcases List.mem_append.mp hc with hc | hc
  · exact Style.isBlank_of_mem_space hc
  · exact Style.isBlank_of_mem_gap hc

theorem skip_space (b : Bool) {text : List Char} (h : ∀ c ∈ text.head?, isBlank c = false) :
    skip ((if b = true then [' '] else []) ++ text) = text :=
  skip_append (fun _ => Style.isBlank_of_mem_space) h

theorem read_int (n : Int) (k : ℕ) {rest : List Char} (hr : Stops rest) :
    read (k + 1) (writeInt n ++ rest) = some (.int n, rest) := by
  obtain ⟨c, cs, he, hc⟩ := writeInt_cons n
  have hread := readInt_writeInt n hr
  rw [he] at hread ⊢
  rw [List.cons_append] at hread ⊢
  have hne : ∀ c', c' ≠ '-' → c'.isDigit = false → c ≠ c' := fun c' => ne_of_sign_or_digit hc
  rw [read, if_neg (hne _ (by decide) (by decide)), if_neg (hne _ (by decide) (by decide)),
    if_neg (hne _ (by decide) (by decide)), if_neg (hne _ (by decide) (by decide)),
    if_neg (hne _ (by decide) (by decide)), if_neg (hne _ (by decide) (by decide)), hread]
  rfl

theorem skip_close (st : Style) (depth : ℕ) {c : Char} (h : isBlank c = false) (rest : List Char) :
    skip (st.gap depth ++ c :: rest) = c :: rest := by
  refine skip_gap st depth fun c' hc' => ?_
  obtain rfl := Option.some.inj hc'
  exact h

theorem Opens.head?_ne {text : List Char} (h : Opens text) :
    text.head? ≠ some ']' ∧ text.head? ≠ some '\x7d' := by
  obtain ⟨c, cs, rfl, -, h1, h2⟩ := h
  exact ⟨fun h => h1 (Option.some.inj h), fun h => h2 (Option.some.inj h)⟩

theorem opens_quote (ascii : Bool) (s : String) : Opens (quote ascii s) :=
  ⟨'"', _, rfl, by decide⟩

mutual

/-- **A value is read back**, whatever follows that does not carry a number on. -/
theorem read_write (st : Style) : ∀ (v : Json) (depth n : ℕ) (rest : List Char),
    distinct v = true → 2 * (write st depth v).length ≤ n → Stops rest →
      read n (write st depth v ++ rest) = some (v, rest)
  | .null, _, n + 1, _, _, _, _ => rfl
  | .bool true, _, n + 1, _, _, _, _ => rfl
  | .bool false, _, n + 1, _, _, _, _ => rfl
  | .int i, _, n + 1, rest, _, _, hr => read_int i n hr
  | .str s, _, n + 1, rest, _, h, _ => by
    rw [write] at h ⊢
    rw [quote, List.cons_append, read, if_pos rfl, List.append_assoc, List.singleton_append,
      readString_quote st.ascii s (by omega)]
    simp
  | .arr [], _, n + 1, _, _, _, _ => rfl
  | .arr (x :: xs), depth, n + 1, rest, hd, h, hr => by
    simp only [distinct, distinctItems, Bool.and_eq_true] at hd
    simp only [write, List.length_cons, List.length_append] at h
    have hitems := readItems_write st x xs (depth + 1) depth n rest hd.1 hd.2 (by omega)
    have hopen := (opens_write st (depth + 1) x).append
      (writeItems st (depth + 1) xs ++ (st.gap depth ++ ']' :: rest))
    simp only [write, List.cons_append, List.append_assoc, List.nil_append]
    rw [read, if_neg (by decide), if_pos rfl, skip_gap st _ hopen.not_blank, if_neg hopen.head?_ne.1,
      hitems]
    rfl
  | .obj [], _, n + 1, _, _, _, _ => rfl
  | .obj ((k, x) :: ms), depth, n + 1, rest, hd, h, hr => by
    simp only [distinct, distinctMembers, Bool.and_eq_true, decide_eq_true_eq] at hd
    simp only [write, List.length_cons, List.length_append] at h
    have hmembers := readMembers_write st k x ms (depth + 1) depth n rest hd.2.1 hd.2.2 (by omega)
    have hopen := (opens_quote st.ascii k).append (st.colon ++ (write st (depth + 1) x ++
      (writeMembers st (depth + 1) ms ++ (st.gap depth ++ '\x7d' :: rest))))
    simp only [write, List.cons_append, List.append_assoc, List.nil_append]
    rw [read, if_neg (by decide), if_neg (by decide), if_pos rfl, skip_gap st _ hopen.not_blank,
      if_neg hopen.head?_ne.2, hmembers]
    simp only [Option.map_some, fromPairs_of_nodup hd.1]
  | v, depth, 0, rest, _, h, _ => by
    obtain ⟨c, cs, he, -⟩ := opens_write st depth v
    rw [he, List.length_cons] at h
    omega
termination_by structural _ _ n => n

theorem readItems_write (st : Style) : ∀ (x : Json) (xs : List Json) (depth depth' n : ℕ)
    (rest : List Char), distinct x = true → distinctItems xs = true →
      2 * ((write st depth x).length + (writeItems st depth xs).length) + 1 ≤ n →
      readItems n (write st depth x ++ (writeItems st depth xs ++ (st.gap depth' ++ ']' :: rest))) =
        some (x :: xs, rest)
  | x, [], depth, depth', n + 1, rest, hx, _, h => by
    have hstop := stops_gap st depth' (stops_of_head (by decide) : Stops (']' :: rest))
    simp only [writeItems, List.nil_append]
    rw [readItems, read_write st x depth n _ hx (by omega) hstop]
    simp only [skip_close st depth' (c := ']') (by decide) rest]
  | x, y :: ys, depth, depth', n + 1, rest, hx, hxs, h => by
    have hstop := stops_items st depth (y :: ys)
      (stops_gap st depth' (stops_of_head (by decide) : Stops (']' :: rest)))
    simp only [distinctItems, Bool.and_eq_true] at hxs
    rw [readItems, read_write st x depth n _ hx (by omega) hstop]
    simp only [writeItems, List.length_append, Style.comma_eq, List.length_cons] at h
    have hitems := readItems_write st y ys depth depth' n rest hxs.1 hxs.2 (by omega)
    have hopen := (opens_write st depth y).append
      (writeItems st depth ys ++ (st.gap depth' ++ ']' :: rest))
    simp only [writeItems, Style.comma_eq, List.cons_append, List.append_assoc]
    rw [skip_of_head (by intro c hc; obtain rfl := Option.some.inj hc; decide)]
    simp only [skip_space_gap st _ depth hopen.not_blank, hitems, Option.map_some]
  | _, _, _, _, 0, _, _, _, h => by omega
termination_by structural _ _ _ _ n => n

theorem readMembers_write (st : Style) : ∀ (k : String) (x : Json) (ms : List (String × Json))
    (depth depth' n : ℕ) (rest : List Char), distinct x = true → distinctMembers ms = true →
      2 * ((quote st.ascii k).length + (write st depth x).length +
        (writeMembers st depth ms).length) + 1 ≤ n →
      readMembers n (quote st.ascii k ++ (st.colon ++ (write st depth x ++
        (writeMembers st depth ms ++ (st.gap depth' ++ '\x7d' :: rest))))) =
        some ((k, x) :: ms, rest)
  | k, x, [], depth, depth', n + 1, rest, hx, _, h => by
    have hstop := stops_gap st depth' (stops_of_head (by decide) : Stops ('\x7d' :: rest))
    have hopen := (opens_write st depth x).append (st.gap depth' ++ '\x7d' :: rest)
    simp only [writeMembers, List.nil_append, quote, List.cons_append, List.append_assoc, readMembers]
    rw [readString_quote st.ascii k (by omega)]
    simp only [Style.colon_eq, List.cons_append]
    rw [skip_of_head (by intro c hc; obtain rfl := Option.some.inj hc; decide)]
    simp only [skip_space _ hopen.not_blank]
    rw [read_write st x depth n _ hx (by omega) hstop]
    simp only [skip_close st depth' (c := '\x7d') (by decide) rest, String.ofList_toList]
  | k, x, (k', y) :: ms, depth, depth', n + 1, rest, hx, hms, h => by
    have hstop := stops_members st depth ((k', y) :: ms)
      (stops_gap st depth' (stops_of_head (by decide) : Stops ('\x7d' :: rest)))
    have hopen := (opens_write st depth x).append
      (writeMembers st depth ((k', y) :: ms) ++ (st.gap depth' ++ '\x7d' :: rest))
    simp only [distinctMembers, Bool.and_eq_true] at hms
    simp only [quote, List.cons_append, List.append_assoc, List.nil_append, readMembers]
    rw [readString_quote st.ascii k (by omega)]
    simp only [Style.colon_eq, List.cons_append]
    rw [skip_of_head (by intro c hc; obtain rfl := Option.some.inj hc; decide)]
    simp only [skip_space _ hopen.not_blank]
    rw [read_write st x depth n _ hx (by omega) hstop]
    simp only [writeMembers, List.length_append, Style.comma_eq, List.length_cons] at h
    have hmembers := readMembers_write st k' y ms depth depth' n rest hms.1 hms.2 (by omega)
    have hopen' := (opens_quote st.ascii k').append (st.colon ++ (write st depth y ++
      (writeMembers st depth ms ++ (st.gap depth' ++ '\x7d' :: rest))))
    simp only [writeMembers, Style.comma_eq, List.cons_append, List.append_assoc]
    rw [skip_of_head (by intro c hc; obtain rfl := Option.some.inj hc; decide)]
    simp only [skip_space_gap st _ depth hopen'.not_blank, hmembers, Option.map_some,
      String.ofList_toList]
  | _, _, _, _, _, 0, _, _, _, h => by omega
termination_by structural _ _ _ _ _ n => n

end

/-- **What has been written is read back.** -/
theorem loads_dumps (st : Style) {v : Json} (h : distinct v = true) :
    loads (dumps st v) = some v := by
  have hopen := opens_write st 0 v
  have hread := read_write st v 0 (2 * (write st 0 v).length + 2) [] h (by omega)
    (fun c hc => absurd hc (by simp))
  rw [List.append_nil] at hread
  rw [loads, dumps, String.toList_ofList, skip_of_head hopen.not_blank, hread]
  rfl

/-! ## Lines -/

theorem lineBreak_hex4 (n : ℕ) : '\n' ∉ hex4 n := by
  have hne : ∀ k : ℕ, k.digitChar ≠ '\n' := fun k => Nat.digitChar_ne '\n' (by decide)
  simp only [hex4, List.mem_cons, List.not_mem_nil, or_false, not_or]
  exact ⟨(hne _).symm, (hne _).symm, (hne _).symm, (hne _).symm⟩

theorem lineBreak_unicodeEscape (n : ℕ) : '\n' ∉ unicodeEscape n := by
  unfold unicodeEscape
  split_ifs
  · simp [lineBreak_hex4]
  · simp [lineBreak_hex4]

theorem lineBreak_quote (ascii : Bool) (s : String) : '\n' ∉ quote ascii s := by
  have hesc : ∀ c, '\n' ∉ escape ascii c := by
    intro c
    unfold escape
    split_ifs with h1 h2 h3 h4 h5 h6 h7 h8
    iterate 7 exact by decide
    · exact lineBreak_unicodeEscape _
    · rw [List.mem_singleton]
      exact fun h => h3 h.symm
  simp [quote, hesc]

theorem lineBreak_writeInt (n : Int) : '\n' ∉ writeInt n := by
  have hdigits : '\n' ∉ Nat.toDigits 10 n.natAbs := fun h => absurd (isDigit_toDigits h) (by decide)
  unfold writeInt
  split_ifs
  · simp [hdigits]
  · exact hdigits

mutual

/-- **Without indentation a value is on one line.** -/
theorem lineBreak_write {st : Style} (h : st.indent = none) :
    ∀ (v : Json) (depth : ℕ), '\n' ∉ write st depth v
  | .null, _ => by simp [write]
  | .bool true, _ => by simp [write]
  | .bool false, _ => by simp [write]
  | .int i, _ => lineBreak_writeInt i
  | .str s, _ => lineBreak_quote st.ascii s
  | .arr [], _ => by simp [write]
  | .arr (x :: xs), depth => by
    simp [write, Style.gap, h, lineBreak_write h x, lineBreak_writeItems h xs]
  | .obj [], _ => by simp [write]
  | .obj ((k, x) :: ms), depth => by
    simp [write, Style.gap, Style.colon_eq, h, lineBreak_quote, lineBreak_write h x,
      lineBreak_writeMembers h ms]

theorem lineBreak_writeItems {st : Style} (h : st.indent = none) :
    ∀ (xs : List Json) (depth : ℕ), '\n' ∉ writeItems st depth xs
  | [], _ => by simp [writeItems]
  | x :: xs, depth => by
    simp [writeItems, Style.gap, Style.comma_eq, h, lineBreak_write h x, lineBreak_writeItems h xs]

theorem lineBreak_writeMembers {st : Style} (h : st.indent = none) :
    ∀ (ms : List (String × Json)) (depth : ℕ), '\n' ∉ writeMembers st depth ms
  | [], _ => by simp [writeMembers]
  | (k, x) :: ms, depth => by
    simp [writeMembers, Style.gap, Style.comma_eq, Style.colon_eq, h, lineBreak_quote,
      lineBreak_write h x, lineBreak_writeMembers h ms]

end

end Json

import Mathlib.Computability.RegularExpressions
import Mathlib.Data.List.Infix

/-!
# Searching lines

A regular expression is searched for in the lines of a text, as `grep` does.

* `word`, `oneOf`: the expressions for a text, and for one character out of some.
* `grep`: some line has a part that the expression matches.
* **`grep_of_infix`**, **`infix_of_grep`**: what is found lies in the text; what lies in the text and
  has no line break is found.
-/

set_option autoImplicit false

namespace RegularExpression

/-- The expression for a text. -/
def word : List Char → RegularExpression Char
  | [] => 1
  | c :: cs => char c * word cs

/-- One of the characters. -/
def oneOf : List Char → RegularExpression Char
  | [] => 0
  | c :: cs => char c + oneOf cs

variable {cs m text : List Char} {r p q : RegularExpression Char}

theorem mem_word : m ∈ (word cs).matches' ↔ m = cs := by
  rw [← rmatch_iff_matches']
  induction cs generalizing m with
  | nil => exact one_rmatch_iff m
  | cons c cs ih =>
    rw [word, mul_rmatch_iff]
    constructor
    · rintro ⟨t, u, rfl, ht, hu⟩
      rw [(char_rmatch_iff c t).mp ht, ih.mp hu]
      rfl
    · rintro rfl
      exact ⟨[c], cs, rfl, (char_rmatch_iff c _).mpr rfl, ih.mpr rfl⟩

theorem mem_oneOf : m ∈ (oneOf cs).matches' ↔ ∃ c ∈ cs, m = [c] := by
  rw [← rmatch_iff_matches']
  induction cs with
  | nil => simp [oneOf, zero_rmatch]
  | cons c cs ih =>
    rw [oneOf, add_rmatch_iff, char_rmatch_iff, ih]
    simp

theorem mem_mul : m ∈ (p * q).matches' ↔ ∃ u v, m = u ++ v ∧ u ∈ p.matches' ∧ v ∈ q.matches' := by
  rw [← rmatch_iff_matches', mul_rmatch_iff]
  simp only [rmatch_iff_matches']

/-- **Any number of characters** out of some. -/
theorem mem_star_oneOf : m ∈ (oneOf cs).star.matches' ↔ ∀ c ∈ m, c ∈ cs := by
  rw [matches'_star, Language.mem_kstar]
  constructor
  · rintro ⟨L, rfl, hL⟩ c hc
    obtain ⟨y, hy, hcy⟩ := List.mem_flatten.mp hc
    obtain ⟨c', hc', rfl⟩ := mem_oneOf.mp (hL y hy)
    rwa [List.mem_singleton.mp hcy]
  · intro h
    refine ⟨m.map fun c => [c], ?_, fun y hy => ?_⟩
    · induction m with
      | nil => rfl
      | cons c m ih => simpa using ih fun c' hc' => h c' (List.mem_cons_of_mem c hc')
    · obtain ⟨c, hc, rfl⟩ := List.mem_map.mp hy
      exact mem_oneOf.mpr ⟨c, h c hc, rfl⟩

/-- `grep -q`: some line has a part that the expression matches. -/
def grep (r : RegularExpression Char) (text : List Char) : Bool :=
  (text.splitOn '\n').any fun line => line.tails.any fun t => t.inits.any r.rmatch

theorem grep_eq_true : grep r text = true ↔
    ∃ line ∈ text.splitOn '\n', ∃ m ∈ r.matches', m <:+: line := by
  simp only [grep, List.any_eq_true, List.mem_tails, List.mem_inits, rmatch_iff_matches']
  refine exists_congr fun line => and_congr_right fun _ => ?_
  constructor
  · rintro ⟨t, ht, m, hm, hr⟩
    exact ⟨m, hr, hm.isInfix.trans ht.isInfix⟩
  · rintro ⟨m, hr, hm⟩
    obtain ⟨t, hpre, hsuf⟩ := List.infix_iff_prefix_suffix.mp hm
    exact ⟨t, hsuf, m, hpre, hr⟩

theorem infix_of_infix_append_cons {α : Type*} {x : α} {l rest m : List α} (hx : x ∉ m)
    (h : m <:+: l ++ x :: rest) : m <:+: l ∨ m <:+: rest := by
  obtain ⟨a, b, h⟩ := h
  rw [List.append_assoc] at h
  rcases List.append_eq_append_iff.mp h with ⟨as, hl, hm⟩ | ⟨as, ha, hr⟩
  · rcases List.append_eq_append_iff.mp hm with ⟨bs, has, hb⟩ | ⟨bs, hmb, hr⟩
    · subst has hl
      exact .inl ⟨a, bs, by simp⟩
    · cases bs with
      | nil =>
        rw [List.append_nil] at hmb
        subst hmb hl
        exact .inl (List.suffix_append a m).isInfix
      | cons y bs =>
        obtain ⟨rfl, -⟩ := List.cons.inj hr
        exact absurd (hmb ▸ List.mem_append_right as List.mem_cons_self) hx
  · cases as with
    | nil =>
      cases m with
      | nil => exact .inl (List.nil_infix)
      | cons y m =>
        obtain ⟨rfl, -⟩ := List.cons.inj hr
        exact absurd List.mem_cons_self hx
    | cons y as =>
      obtain ⟨-, rfl⟩ := List.cons.inj hr
      exact .inr ⟨as, b, List.append_assoc as m b⟩

theorem infix_line {lines : List (List Char)} (hn : '\n' ∉ m) (hl : lines ≠ [])
    (h : m <:+: ['\n'].intercalate lines) : ∃ line ∈ lines, m <:+: line := by
  induction lines with
  | nil => exact absurd rfl hl
  | cons line lines ih =>
    by_cases hne : lines = []
    · subst hne
      rw [List.intercalate_singleton] at h
      exact ⟨line, List.mem_cons_self, h⟩
    · rw [List.intercalate_cons_of_ne_nil hne, List.append_assoc] at h
      rcases infix_of_infix_append_cons hn h with h | h
      · exact ⟨line, List.mem_cons_self, h⟩
      · obtain ⟨l, hl, hm⟩ := ih hne h
        exact ⟨l, List.mem_cons_of_mem line hl, hm⟩

/-- **A part without a line break** is found. -/
theorem grep_of_infix (hm : m ∈ r.matches') (hn : '\n' ∉ m) (h : m <:+: text) :
    grep r text = true := by
  have htext : ['\n'].intercalate (text.splitOn '\n') = text := List.intercalate_splitOn '\n'
  rw [← htext] at h
  obtain ⟨line, hline, hinf⟩ := infix_line hn (List.splitOn_ne_nil '\n' text) h
  exact grep_eq_true.mpr ⟨line, hline, m, hm, hinf⟩

theorem line_infix {line : List Char} {lines : List (List Char)} (h : line ∈ lines) :
    line <:+: ['\n'].intercalate lines := by
  induction lines with
  | nil => cases h
  | cons l lines ih =>
    by_cases hne : lines = []
    · subst hne
      rw [List.intercalate_singleton, List.mem_singleton.mp h]
    · rw [List.intercalate_cons_of_ne_nil hne]
      rcases List.mem_cons.mp h with rfl | h
      · exact (List.prefix_append line _).isInfix.trans (List.prefix_append _ _).isInfix
      · exact (ih h).trans (List.suffix_append _ _).isInfix

/-- **What is found** lies in the text. -/
theorem infix_of_grep (h : grep r text = true) : ∃ m ∈ r.matches', m <:+: text := by
  obtain ⟨line, hline, m, hm, hinf⟩ := grep_eq_true.mp h
  refine ⟨m, hm, hinf.trans ?_⟩
  have htext : ['\n'].intercalate (text.splitOn '\n') = text := List.intercalate_splitOn '\n'
  rw [← htext]
  exact line_infix hline

end RegularExpression

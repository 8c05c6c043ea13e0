import UpsOrchestrator.Lib.Json

/-!
# Values of JSON as Python uses them

What `json.loads` has returned is read with `get`, compared with `==`, and its members are set.

* `get`, `item`, `is`, `truthy`, `toInt`, `same`: the operations of Python on a value.
* `lookup_setMember`, `distinct_setMember`: a member that is set.
* **`distinct_of_loads`**: what has been read is a dictionary at every level.
-/

set_option autoImplicit false

namespace Json

/-! ## Operations -/

/-- `members.get(key)`; null stands for no member. -/
def member (key : String) (ms : List (String × Json)) : Json := (ms.lookup key).getD .null

/-- `value.get(key)`; none if it raises. -/
def get (key : String) : Json → Option Json
  | .obj ms => some (member key ms)
  | _ => none

/-- `value[key]`; none if it raises. -/
def item (key : String) : Json → Option Json
  | .obj ms => ms.lookup key
  | _ => none

/-- The value, if it is a text. -/
def text : Json → Option String
  | .str s => some s
  | _ => none

/-- The value, if it is a whole number. -/
def whole : Json → Option Int
  | .int n => some n
  | _ => none

/-- `value == s`, for a text `s`. -/
def is (s : String) : Json → Bool
  | .str s' => s' = s
  | _ => false

/-- `bool(value)` -/
def truthy : Json → Bool
  | .null => false
  | .bool b => b
  | .int n => n ≠ 0
  | .str s => s ≠ ""
  | .arr xs => !xs.isEmpty
  | .obj ms => !ms.isEmpty

/-- A number, or a truth value as one. -/
def number : Json → Option Int
  | .int n => some n
  | .bool b => some (if b then 1 else 0)
  | _ => none

/-- `int(value)`, where `parse` reads a text; none if it raises. -/
def toInt (parse : String → Option Int) : Json → Option Int
  | .str s => parse s
  | v => v.number

mutual

/-- `value == other`; the order of members does not matter. -/
def same : Json → Json → Bool
  | .null, .null => true
  | .str a, .str b => a = b
  | .arr xs, .arr ys => sameItems xs ys
  | .obj ms, .obj ns => decide (ms.length = ns.length) && sameMembers ms ns
  | .bool b, v => v.number = some (if b then 1 else 0)
  | .int n, v => v.number = some n
  | _, _ => false

def sameItems : List Json → List Json → Bool
  | [], [] => true
  | x :: xs, y :: ys => same x y && sameItems xs ys
  | _, _ => false

def sameMembers : List (String × Json) → List (String × Json) → Bool
  | [], _ => true
  | (k, x) :: ms, ns => (match ns.lookup k with
    | some y => same x y
    | none => false) && sameMembers ms ns

end

theorem is_iff {s : String} {v : Json} : v.is s = true ↔ v = .str s := by
  cases v <;> simp [is]

theorem text_eq_some {s : String} {v : Json} : v.text = some s ↔ v = .str s := by
  cases v <;> simp [text]

theorem same_null {v : Json} : same .null v = true ↔ v = .null := by
  cases v <;> simp [same]

theorem same_str {a : String} {v : Json} : same (.str a) v = true ↔ v = .str a := by
  cases v <;> simp [same, eq_comm]

theorem truthy_of_same_bool {b : Bool} {v : Json} (h : same (.bool b) v = true) : v.truthy = b := by
  cases v <;> cases b <;> simp_all [same, number, truthy]

/-! ## Members -/

theorem lookup_member (key' key : String) (v : Json) (ms : List (String × Json)) :
    ((key, v) :: ms).lookup key' = if key' = key then some v else ms.lookup key' := by
  rw [List.lookup_cons]
  by_cases h : key' = key
  · rw [if_pos h, beq_iff_eq.mpr h]
  · rw [if_neg h, beq_eq_false_iff_ne.mpr h]

theorem sameMembers_lookup {key : String} {x : Json} {ms ns : List (String × Json)}
    (h : sameMembers ms ns = true) (hx : ms.lookup key = some x) :
    ∃ y, ns.lookup key = some y ∧ same x y = true := by
  induction ms with
  | nil => exact absurd hx nofun
  | cons m ms ih =>
    obtain ⟨k, x'⟩ := m
    simp only [sameMembers, Bool.and_eq_true] at h
    rw [lookup_member] at hx
    split_ifs at hx with hk
    · obtain rfl := Option.some.inj hx
      subst hk
      cases hy : ns.lookup key with
      | none => simp [hy] at h
      | some y => exact ⟨y, rfl, by simpa [hy] using h.1⟩
    · exact ih h.2 hx

theorem get_of_same {key : String} {x v : Json} {ms : List (String × Json)}
    (h : same (.obj ms) v = true) (hx : ms.lookup key = some x) :
    ∃ y, v.get key = some y ∧ same x y = true := by
  cases v with
  | obj ns =>
    simp only [same, Bool.and_eq_true] at h
    obtain ⟨y, hy, hxy⟩ := sameMembers_lookup h.2 hx
    exact ⟨y, by simp [get, member, hy], hxy⟩
  | _ => exact absurd h (by simp [same])

/-- **A member that is set is found**, and the others are as they were. -/
theorem lookup_setMember (key key' : String) (v : Json) (ms : List (String × Json)) :
    (setMember key v ms).lookup key' = if key' = key then some v else ms.lookup key' := by
  induction ms with
  | nil => exact lookup_member key' key v []
  | cons m ms ih =>
    obtain ⟨k, x⟩ := m
    rw [setMember]
    by_cases hk : k = key
    · subst hk
      rw [if_pos rfl, lookup_member, lookup_member]
      split_ifs <;> rfl
    · rw [if_neg hk, lookup_member, lookup_member, ih]
      by_cases h : key' = k
      · rw [if_pos h, if_neg (h ▸ hk), if_pos h]
      · rw [if_neg h, if_neg h]

theorem member_setMember (key key' : String) (v : Json) (ms : List (String × Json)) :
    member key' (setMember key v ms) = if key' = key then v else member key' ms := by
  unfold member
  rw [lookup_setMember]
  split_ifs <;> rfl

theorem keys_setMember (key : String) (v : Json) (ms : List (String × Json)) :
    (setMember key v ms).map (·.1) =
      if key ∈ ms.map (·.1) then ms.map (·.1) else ms.map (·.1) ++ [key] := by
  induction ms with
  | nil => rfl
  | cons m ms ih =>
    obtain ⟨k, x⟩ := m
    rw [setMember]
    by_cases hk : k = key
    · simp [hk]
    · rw [if_neg hk, List.map_cons, ih]
      by_cases h : key ∈ ms.map (·.1) <;> simp [h, Ne.symm hk]

theorem distinctMembers_setMember {v : Json} (hv : distinct v = true) (key : String)
    {ms : List (String × Json)} (h : distinctMembers ms = true) :
    distinctMembers (setMember key v ms) = true := by
  induction ms with
  | nil => simp [setMember, distinctMembers, hv]
  | cons m ms ih =>
    obtain ⟨k, x⟩ := m
    simp only [distinctMembers, Bool.and_eq_true] at h
    rw [setMember]
    split_ifs
    · simp [distinctMembers, hv, h.2]
    · simp [distinctMembers, h.1, ih h.2]

theorem distinct_setMember {v : Json} (hv : distinct v = true) (key : String)
    {ms : List (String × Json)} (h : distinct (.obj ms) = true) :
    distinct (.obj (setMember key v ms)) = true := by
  simp only [distinct, Bool.and_eq_true, decide_eq_true_eq] at h ⊢
  refine ⟨?_, distinctMembers_setMember hv key h.2⟩
  rw [keys_setMember]
  split_ifs with hk
  · exact h.1
  · refine List.nodup_append.mpr ⟨h.1, by simp, fun k hmem k' hmem' heq => ?_⟩
    rw [heq, List.mem_singleton.mp hmem'] at hmem
    exact hk hmem

theorem distinct_foldl {pairs acc : List (String × Json)} (h : distinctMembers pairs = true)
    (ha : distinct (.obj acc) = true) :
    distinct (.obj (pairs.foldl (fun ms p => setMember p.1 p.2 ms) acc)) = true := by
  induction pairs generalizing acc with
  | nil => exact ha
  | cons p pairs ih =>
    obtain ⟨k, x⟩ := p
    simp only [distinctMembers, Bool.and_eq_true] at h
    exact ih h.2 (distinct_setMember h.1 k ha)

theorem distinct_lookup {key : String} {v : Json} {ms : List (String × Json)}
    (h : distinctMembers ms = true) (hv : ms.lookup key = some v) : distinct v = true := by
  induction ms with
  | nil => exact absurd hv (by simp)
  | cons m ms ih =>
    obtain ⟨k, x⟩ := m
    simp only [distinctMembers, Bool.and_eq_true] at h
    rw [lookup_member] at hv
    split_ifs at hv
    · exact Option.some.inj hv ▸ h.1
    · exact ih h.2 hv

theorem distinct_item {key : String} {v v' : Json} (h : distinct v = true)
    (hi : v.item key = some v') : distinct v' = true := by
  cases v with
  | obj ms =>
    simp only [distinct, Bool.and_eq_true] at h
    exact distinct_lookup h.2 hi
  | _ => exact absurd hi (by simp [item])

theorem keyword_eq_some {text word : List Char} {v v' : Json} {rest : List Char}
    (h : keyword text word v = some (v', rest)) : v' = v := by
  unfold keyword at h
  split_ifs at h
  exact (Prod.mk.inj (Option.some.inj h)).1.symm

mutual

theorem distinct_read : ∀ (n : ℕ) (text : List Char) (v : Json) (rest : List Char),
    read n text = some (v, rest) → distinct v = true
  | 0, _, _, _, h => absurd h (by simp [read])
  | n + 1, [], _, _, h => absurd h (by simp [read])
  | n + 1, c :: cs, v, rest, h => by
    rw [read] at h
    split_ifs at h
    · obtain ⟨⟨ds, rest'⟩, -, he⟩ := Option.map_eq_some_iff.mp h
      obtain ⟨rfl, -⟩ := Prod.mk.inj he
      rfl
    · obtain ⟨rfl, -⟩ := Prod.mk.inj (Option.some.inj h)
      rfl
    · obtain ⟨⟨xs, rest'⟩, hxs, he⟩ := Option.map_eq_some_iff.mp h
      obtain ⟨rfl, -⟩ := Prod.mk.inj he
      exact distinct_readItems n _ xs rest' hxs
    · obtain ⟨rfl, -⟩ := Prod.mk.inj (Option.some.inj h)
      rfl
    · obtain ⟨⟨ms, rest'⟩, hms, he⟩ := Option.map_eq_some_iff.mp h
      obtain ⟨rfl, -⟩ := Prod.mk.inj he
      exact distinct_foldl (distinct_readMembers n _ ms rest' hms) rfl
    · rw [keyword_eq_some h]
      rfl
    · rw [keyword_eq_some h]
      rfl
    · rw [keyword_eq_some h]
      rfl
    · obtain ⟨⟨i, rest'⟩, -, he⟩ := Option.map_eq_some_iff.mp h
      obtain ⟨rfl, -⟩ := Prod.mk.inj he
      rfl

theorem distinct_readItems : ∀ (n : ℕ) (text : List Char) (xs : List Json) (rest : List Char),
    readItems n text = some (xs, rest) → distinctItems xs = true
  | 0, _, _, _, h => absurd h (by simp [readItems])
  | n + 1, text, xs, rest, h => by
    rw [readItems] at h
    split at h
    next => exact absurd h (by simp)
    next x rest' hx =>
      have hd := distinct_read n _ x rest' hx
      split at h
      next =>
        obtain ⟨rfl, -⟩ := Prod.mk.inj (Option.some.inj h)
        simp [distinctItems, hd]
      next =>
        obtain ⟨⟨ys, rest''⟩, hys, he⟩ := Option.map_eq_some_iff.mp h
        obtain ⟨rfl, -⟩ := Prod.mk.inj he
        simp [distinctItems, hd, distinct_readItems n _ ys rest'' hys]
      next => exact absurd h (by simp)

theorem distinct_readMembers : ∀ (n : ℕ) (text : List Char) (ms : List (String × Json))
    (rest : List Char), readMembers n text = some (ms, rest) → distinctMembers ms = true
  | 0, _, _, _, h => absurd h (by simp [readMembers])
  | n + 1, text, ms, rest, h => by
    unfold readMembers at h
    split at h
    next n' cs hn =>
      obtain rfl : n = n' := by omega
      split at h
      next => exact absurd h (by simp)
      next k rest₁ hk =>
        split at h
        next rest₂ hc =>
          split at h
          next => exact absurd h (by simp)
          next x rest₃ hx =>
            have hd := distinct_read n _ x rest₃ hx
            split at h
            next =>
              obtain ⟨rfl, -⟩ := Prod.mk.inj (Option.some.inj h)
              simp [distinctMembers, hd]
            next =>
              obtain ⟨⟨ns, rest₄⟩, hns, he⟩ := Option.map_eq_some_iff.mp h
              obtain ⟨rfl, -⟩ := Prod.mk.inj he
              simp [distinctMembers, hd, distinct_readMembers n _ ns rest₄ hns]
            next => exact absurd h (by simp)
        next => exact absurd h (by simp)
    next => exact absurd h (by simp)

end

/-- **What `loads` accepts is a dictionary at every level.** -/
theorem distinct_of_loads {text : String} {v : Json} (h : loads text = some v) : distinct v = true := by
  unfold loads at h
  split at h
  next v' rest hread =>
    split_ifs at h
    obtain rfl := Option.some.inj h
    exact distinct_read _ _ _ _ hread
  next => exact absurd h (by simp)

end Json

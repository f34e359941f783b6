/-
  CallFeed — blank characters, and the trimming and cutting of texts.

  A text is a list of characters here; the functions on `String` are the same
  operations on its characters.

  * `isBlank` is the Unicode property White_Space;
  * `trim` drops the blank characters at both ends;
  * `pieces isSep` cuts a text at every character with the property (`pieces_ne_nil`:
    there is always a piece), and `items` are the trimmed pieces between commas that are
    not empty.
-/

namespace CallFeed.Text

/-! ## Blank characters -/

/-- The characters with the Unicode property White_Space. -/
def isBlank (c : Char) : Bool :=
  let n := c.toNat
  (0x9 ≤ n && n ≤ 0xd) || n == 0x20 || n == 0x85 || n == 0xa0 || n == 0x1680 ||
    (0x2000 ≤ n && n ≤ 0x200a) || n == 0x2028 || n == 0x2029 || n == 0x202f ||
    n == 0x205f || n == 0x3000

/-! ## Trimming -/

def trimStart (cs : List Char) : List Char :=
  cs.dropWhile isBlank

def trimEnd (cs : List Char) : List Char :=
  (trimStart cs.reverse).reverse

def trim (cs : List Char) : List Char :=
  trimEnd (trimStart cs)

theorem trimStart_eq_self {cs : List Char} (h : ∀ c ∈ cs.head?, isBlank c = false) :
    trimStart cs = cs := by
  cases cs with
  | nil => rfl
  | cons c r => simp [trimStart, List.dropWhile, h c (by simp)]

theorem trimEnd_eq_self {cs : List Char} (h : ∀ c ∈ cs.getLast?, isBlank c = false) :
    trimEnd cs = cs := by
  rw [trimEnd, trimStart_eq_self (by simpa using h), List.reverse_reverse]

/-! ## Cutting -/

/-- The pieces of a text between the characters at which it is cut. -/
def pieces (isSep : Char → Bool) : List Char → List (List Char)
  | [] => [[]]
  | c :: r =>
    match pieces isSep r with
    | [] => [[c]]
    | p :: ps => if isSep c then [] :: p :: ps else (c :: p) :: ps

theorem pieces_ne_nil (isSep : Char → Bool) (cs : List Char) : pieces isSep cs ≠ [] := by
  cases cs with
  | nil => simp [pieces]
  | cons c r => rw [pieces]; split <;> (try split) <;> simp

/-- The trimmed pieces of a text between commas, the empty ones left out. -/
def items (s : String) : List String :=
  (((pieces (· = ',') s.toList).map trim).filter (· ≠ [])).map String.ofList

/-- Cuts a text at the last `sep`: what stands before it and what stands after it. -/
def cutLast (sep : Char) : List Char → Option (List Char × List Char)
  | [] => none
  | c :: r =>
    match cutLast sep r with
    | some (front, back) => some (c :: front, back)
    | none => if c = sep then some ([], r) else none

theorem cutLast_eq_none_iff {sep : Char} {cs : List Char} : cutLast sep cs = none ↔ sep ∉ cs := by
  induction cs with
  | nil => simp [cutLast]
  | cons c r ih =>
    rw [cutLast]
    cases h : cutLast sep r with
    | some p =>
      have : sep ∈ r := by
        apply Classical.byContradiction
        intro hn
        rw [ih.2 hn] at h
        cases h
      simp [this]
    | none =>
      have hr := ih.1 h
      by_cases hc : c = sep
      · simp [hc]
      · simp [hc, hr, Ne.symm hc]

theorem cutLast_append {sep : Char} {front back : List Char} (h : sep ∉ back) :
    cutLast sep (front ++ sep :: back) = some (front, back) := by
  induction front with
  | nil => simp [cutLast, cutLast_eq_none_iff.2 h]
  | cons c r ih => simp [cutLast, ih]

theorem cutLast_eq_some_iff {sep : Char} {cs front back : List Char} :
    cutLast sep cs = some (front, back) ↔ cs = front ++ sep :: back ∧ sep ∉ back := by
  constructor
  · intro h
    induction cs generalizing front with
    | nil => cases h
    | cons c r ih =>
      rw [cutLast] at h
      cases hr : cutLast sep r with
      | some p =>
        rw [hr] at h
        obtain ⟨f, b⟩ := p
        obtain ⟨rfl, rfl⟩ := Prod.mk.inj (Option.some.inj h)
        obtain ⟨rfl, hb⟩ := ih hr
        exact ⟨rfl, hb⟩
      | none =>
        rw [hr] at h
        by_cases hc : c = sep
        · simp only [hc, if_true, Option.some.injEq, Prod.mk.injEq] at h
          obtain ⟨rfl, rfl⟩ := h
          exact ⟨by simp [hc], cutLast_eq_none_iff.1 hr⟩
        · simp [hc] at h
  · rintro ⟨rfl, h⟩
    exact cutLast_append h

end CallFeed.Text

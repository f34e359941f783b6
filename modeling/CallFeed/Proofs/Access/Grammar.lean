/-
  CallFeed — how JSON documents are written.

  The grammar is said in judgments, without reading anything: a document may be written in
  many ways.

  * `Spelling` are the ways in which a text holds a character: as it is, by an escape of one
    letter, by the number of its code unit, or by those of a surrogate pair; `Quoted` are texts;
  * `Writes` are the ways in which a value is written, and `Document` adds the blanks
    around it. Numbers (`Numeral`) complete the grammar: no access list has any, and a
    document with one is none;
  * `Spells` are the ways in which a list of tokens is written; a list of tokens is read from
    a text just if it is spelled by it (`read_eq_some_iff`).
-/
import CallFeed.Access.Mapping
import Mathlib.Data.List.Basic
import Mathlib.Tactic.Common

namespace CallFeed.Access

/-! ## The grammar -/

/-- Spaces, tabs and line ends. -/
def Blank (cs : List Char) : Prop := ∀ c ∈ cs, c = ' ' ∨ c = '\t' ∨ c = '\n' ∨ c = '\r'

/-- A sign with blanks around it. -/
inductive Sign (c : Char) : List Char → Prop
  | mk {b b' : List Char} : Blank b → Blank b' → Sign c (b ++ c :: b')

/-- A hexadecimal digit of either case, and its value. -/
inductive Hex (c : Char) : Nat → Prop
  | decimal {n : Nat} : n < 10 → c.toNat = 0x30 + n → Hex c n
  | upper {n : Nat} : n < 6 → c.toNat = 0x41 + n → Hex c (n + 10)
  | lower {n : Nat} : n < 6 → c.toNat = 0x61 + n → Hex c (n + 10)

/-- The escape of a code unit: a backslash, the letter u and four digits. -/
inductive Escape : List Char → Nat → Prop
  | mk {a b c d : Char} {w x y z : Nat} : Hex a w → Hex b x → Hex c y → Hex d z →
      Escape ['\\', 'u', a, b, c, d] (((w * 16 + x) * 16 + y) * 16 + z)

/-- The letters of the short escapes, and what they stand for. -/
def shortEscapes : List (Char × Char) :=
  [('\x22', '\x22'), ('\\', '\\'), ('/', '/'), ('b', '\x08'), ('f', '\x0c'), ('n', '\n'),
    ('r', '\r'), ('t', '\t')]

/-- What stands for a character in a text. -/
inductive Spelling : List Char → Char → Prop
  /-- The character, unless it is a control character, a quotation mark or a backslash. -/
  | plain {c : Char} : 0x20 ≤ c.toNat → c ≠ '\x22' → c ≠ '\\' → Spelling [c] c
  | short {l c : Char} : (l, c) ∈ shortEscapes → Spelling ['\\', l] c
  | unit {w : List Char} {c : Char} : Escape w c.toNat → Spelling w c
  /-- The high and the low half of a surrogate pair. -/
  | pair {w w' : List Char} {high low : Nat} {c : Char} : Escape w high → Escape w' low →
      0xd800 ≤ high → high < 0xdc00 → 0xdc00 ≤ low → low < 0xe000 →
      c.toNat = 0x10000 + (high - 0xd800) * 0x400 + (low - 0xdc00) → Spelling (w ++ w') c

/-- What stands for some characters in a text. -/
inductive Inside : List Char → List Char → Prop
  | nil : Inside [] []
  | cons {w r cs : List Char} {c : Char} : Spelling w c → Inside r cs → Inside (w ++ r) (c :: cs)

/-- A text in quotes. -/
inductive Quoted : List Char → List Char → Prop
  | mk {w cs : List Char} : Inside w cs → Quoted ('\x22' :: (w ++ ['\x22'])) cs

def Digits (w : List Char) : Prop := ∀ c ∈ w, '0' ≤ c ∧ c ≤ '9'

/-- A number without leading zeros. -/
inductive Whole : List Char → Prop
  | zero : Whole ['0']
  | digits {c : Char} {w : List Char} : '1' ≤ c → c ≤ '9' → Digits w → Whole (c :: w)

inductive Fraction : List Char → Prop
  | none : Fraction []
  | digits {w : List Char} : Digits w → w ≠ [] → Fraction ('.' :: w)

inductive Exponent : List Char → Prop
  | none : Exponent []
  | digits {e : Char} {sign w : List Char} : e = 'e' ∨ e = 'E' →
      sign = [] ∨ sign = ['+'] ∨ sign = ['-'] → Digits w → w ≠ [] → Exponent (e :: (sign ++ w))

/-- A number. It belongs to the grammar of values, though an access list has none. -/
inductive Numeral : List Char → Prop
  | mk {sign w f e : List Char} : sign = [] ∨ sign = ['-'] → Whole w → Fraction f →
      Exponent e → Numeral (sign ++ w ++ f ++ e)

/-- The values that are written in documents. Numbers are kept as they are written. -/
inductive Json where
  | null
  | bool (b : Bool)
  | number (numeral : List Char)
  | text (s : List Char)
  | array (xs : List Json)
  | object (members : List (List Char × Json))

mutual

/-- A value and a way to write it. -/
inductive Writes : List Char → Json → Prop
  | null : Writes ['n', 'u', 'l', 'l'] .null
  | true : Writes ['t', 'r', 'u', 'e'] (.bool true)
  | false : Writes ['f', 'a', 'l', 's', 'e'] (.bool false)
  | number {w : List Char} : Numeral w → Writes w (.number w)
  | text {w s : List Char} : Quoted w s → Writes w (.text s)
  | emptyArray {o c : List Char} : Sign '[' o → Sign ']' c → Writes (o ++ c) (.array [])
  | array {o w c : List Char} {xs : List Json} : Sign '[' o → WritesElements w xs → Sign ']' c →
      Writes (o ++ w ++ c) (.array xs)
  | emptyObject {o c : List Char} : Sign '\x7b' o → Sign '\x7d' c → Writes (o ++ c) (.object [])
  | object {o w c : List Char} {ms : List (List Char × Json)} : Sign '\x7b' o →
      WritesMembers w ms → Sign '\x7d' c → Writes (o ++ w ++ c) (.object ms)

/-- Elements with commas between them. -/
inductive WritesElements : List Char → List Json → Prop
  | one {w : List Char} {x : Json} : Writes w x → WritesElements w [x]
  | more {w k r : List Char} {x : Json} {xs : List Json} : Writes w x → Sign ',' k →
      WritesElements r xs → WritesElements (w ++ k ++ r) (x :: xs)

/-- Members with commas between them. -/
inductive WritesMembers : List Char → List (List Char × Json) → Prop
  | one {n k w name : List Char} {x : Json} : Quoted n name → Sign ':' k → Writes w x →
      WritesMembers (n ++ k ++ w) [(name, x)]
  | more {n k w k' r name : List Char} {x : Json} {ms : List (List Char × Json)} :
      Quoted n name → Sign ':' k → Writes w x → Sign ',' k' → WritesMembers r ms →
      WritesMembers (n ++ k ++ w ++ k' ++ r) ((name, x) :: ms)

end

/-- A value with blanks around it. -/
inductive Document : List Char → Json → Prop
  | mk {b w b' : List Char} {x : Json} : Blank b → Writes w x → Blank b' →
      Document (b ++ w ++ b') x

/-! ## Characters -/

theorem isSpace_iff {c : Char} :
    isSpace c = true ↔ c = ' ' ∨ c = '\t' ∨ c = '\n' ∨ c = '\r' := by
  simp [isSpace, or_assoc]

theorem hexValue?_eq_some_iff {c : Char} {n : Nat} : Text.hexValue? c = some n ↔ Hex c n := by
  have hval : c.val.toNat = c.toNat := rfl
  simp only [Text.hexValue?, Char.le_def, UInt32.le_iff_toNat_le, hval]
  constructor
  · intro h
    split at h
    · cases h
      rename_i hc
      exact .decimal (by simp at hc ⊢; omega) (by simp at hc ⊢; omega)
    · split at h
      · cases h
        rename_i hc
        exact .lower (by simp at hc ⊢; omega) (by simp at hc ⊢; omega)
      · split at h
        · cases h
          rename_i hc
          exact .upper (by simp at hc ⊢; omega) (by simp at hc ⊢; omega)
        · cases h
  · intro h
    cases h with
    | decimal hn hc =>
      rw [hc, if_pos (by simp; omega)]
      simp
    | upper hn hc =>
      rw [hc, if_neg (by simp; omega), if_neg (by simp; omega), if_pos (by simp; omega)]
      simp
    | lower hn hc =>
      rw [hc, if_neg (by simp; omega), if_pos (by simp; omega)]
      simp

theorem codeUnit?_eq_some_iff {a b c d : Char} {n : Nat} :
    codeUnit? a b c d = some n ↔ Escape ['\\', 'u', a, b, c, d] n := by
  simp only [codeUnit?, Option.bind_eq_bind, Option.bind_eq_some_iff, Option.pure_def,
    Option.some.injEq, hexValue?_eq_some_iff]
  constructor
  · rintro ⟨w, hw, x, hx, y, hy, z, hz, rfl⟩
    exact .mk hw hx hy hz
  · rintro ⟨hw, hx, hy, hz⟩
    exact ⟨_, hw, _, hx, _, hy, _, hz, rfl⟩

theorem Hex.lt {c : Char} {n : Nat} (h : Hex c n) : n < 16 := by
  cases h <;> omega

theorem Escape.lt {w : List Char} {n : Nat} (h : Escape w n) : n < 0x10000 := by
  obtain ⟨ha, hb, hc, hd⟩ := h
  have := ha.lt
  have := hb.lt
  have := hc.lt
  have := hd.lt
  omega

/-- The character of a number that is none of a half of a surrogate pair. -/
theorem toNat_ofNat {n : Nat} (h : n < 0xd800 ∨ 0xdfff < n ∧ n < 0x110000) :
    (Char.ofNat n).toNat = n := by
  rw [Char.ofNat, dif_pos h]
  rfl

theorem toNat_range (c : Char) :
    c.toNat < 0xd800 ∨ 0xdfff < c.toNat ∧ c.toNat < 0x110000 := c.valid

theorem escaped?_eq_some_iff {l c : Char} :
    escaped? l = some c ↔ (l, c) ∈ shortEscapes := by
  constructor
  · intro h
    unfold escaped? at h
    split_ifs at h with hl <;> cases h
    · rcases hl with rfl | rfl | rfl <;> decide
    all_goals
      rename_i hl
      subst hl
      decide
  · intro h
    simp only [shortEscapes, List.mem_cons, Prod.mk.injEq, List.not_mem_nil, or_false] at h
    rcases h with ⟨rfl, rfl⟩ | ⟨rfl, rfl⟩ | ⟨rfl, rfl⟩ | ⟨rfl, rfl⟩ | ⟨rfl, rfl⟩ | ⟨rfl, rfl⟩ |
      ⟨rfl, rfl⟩ | ⟨rfl, rfl⟩ <;> rfl

/-! ## Texts -/

/-- What stands for a character is read as that character. -/
theorem readText_spelling {w : List Char} {c : Char} (h : Spelling w c) (r : List Char) :
    Token.readText (w ++ r) = (Token.readText r).map fun p => (c :: p.1, p.2) := by
  cases h with
  | plain hlow hquote hslash =>
    have hnot : ¬ (c = '\\' ∨ c < ' ') := by
      rintro (rfl | hlt)
      · exact hslash rfl
      · exact absurd (Char.lt_def.1 hlt) (Nat.not_lt.2 hlow)
    rw [List.singleton_append, Token.readText.eq_3 c r (fun _ _ _ _ _ h => absurd h hslash)
      (fun _ _ h => absurd h hslash), if_neg hquote, if_neg hnot]
  | @short l _ hmem =>
    have hl : ∀ a b c d r', l = 'u' → r = a :: b :: c :: d :: r' → False := by
      rintro a b c d r' rfl -
      revert hmem
      simp [shortEscapes]
    rw [List.cons_append, List.singleton_append, Token.readText.eq_2 l r hl,
      escaped?_eq_some_iff.2 hmem]
  | unit he =>
    have hrange := toNat_range c
    have hself : Char.ofNat c.toNat = c := Char.ofNat_toNat c
    generalize hn : c.toNat = n at he hrange hself
    obtain ⟨ha, hb, hc, hd⟩ := he
    have hunit := codeUnit?_eq_some_iff.2 (Escape.mk ha hb hc hd)
    rw [List.cons_append, Token.readText.eq_def]
    simp only [List.cons_append, List.nil_append, hunit]
    rw [if_neg, if_neg, hself]
    · simp only [isLowHalf, Bool.and_eq_true, decide_eq_true_eq]
      omega
    · simp only [isHighHalf, Bool.and_eq_true, decide_eq_true_eq]
      omega
  | @pair w w' high low _ hhigh hlow h1 h2 h3 h4 hn =>
    have hpair : pairChar high low = c := by
      rw [pairChar, ← hn, Char.ofNat_toNat]
    clear hn
    obtain ⟨ha, hb, hc, hd⟩ := hhigh
    obtain ⟨ha', hb', hc', hd'⟩ := hlow
    have hunit := codeUnit?_eq_some_iff.2 (Escape.mk ha hb hc hd)
    have hunit' := codeUnit?_eq_some_iff.2 (Escape.mk ha' hb' hc' hd')
    rw [Token.readText.eq_def]
    simp only [List.cons_append, List.nil_append, hunit, hunit']
    rw [if_pos, if_pos, hpair]
    · simpa only [isLowHalf, Bool.and_eq_true, decide_eq_true_eq] using ⟨h3, h4⟩
    · simpa only [isHighHalf, Bool.and_eq_true, decide_eq_true_eq] using ⟨h1, h2⟩

/-- What stands for some characters in a text is read as those characters. -/
theorem readText_inside {w cs : List Char} (h : Inside w cs) (r : List Char) :
    Token.readText (w ++ '\x22' :: r) = (Token.read r).map fun ts => (cs, ts) := by
  induction h with
  | nil =>
    rw [List.nil_append, Token.readText.eq_3 _ r (fun _ _ _ _ _ h => absurd h (by decide))
      (fun _ _ h => absurd h (by decide)), if_pos rfl]
  | cons hw _ ih =>
    rw [List.append_assoc, readText_spelling hw, ih, Option.map_map]
    rfl

/-- What is read as some characters stands for them, up to a quotation mark. -/
theorem inside_of_readText {cs s : List Char} {ts : List Token}
    (h : Token.readText cs = some (s, ts)) :
    ∃ w r, cs = w ++ '\x22' :: r ∧ Inside w s ∧ Token.read r = some ts := by
  -- a character is read, and then the rest
  have hcons : ∀ {w r : List Char} {c : Char}, cs = w ++ r → Spelling w c → r.length < cs.length →
      ((Token.readText r).map fun p => (c :: p.1, p.2)) = some (s, ts) →
      ∃ w' r', cs = w' ++ '\x22' :: r' ∧ Inside w' s ∧ Token.read r' = some ts := by
    intro w r c hcs hw hlt hr
    obtain ⟨⟨s', ts'⟩, hr', he⟩ := Option.map_eq_some_iff.1 hr
    cases he
    obtain ⟨w', r', rfl, hin, hs⟩ := inside_of_readText hr'
    exact ⟨w ++ w', r', hcs.trans (List.append_assoc _ _ _).symm, .cons hw hin, hs⟩
  unfold Token.readText at h
  split at h
  · rename_i a b c d r
    split at h
    · cases h
    · rename_i u hu
      have hescape := codeUnit?_eq_some_iff.1 hu
      split_ifs at h with hhigh hlow
      · split at h
        · rename_i a' b' c' d' r'
          split at h
          · cases h
          · rename_i u' hu'
            split_ifs at h with hlow'
            simp only [isHighHalf, isLowHalf, Bool.and_eq_true, decide_eq_true_eq] at hhigh hlow'
            refine hcons rfl (.pair hescape (codeUnit?_eq_some_iff.1 hu') hhigh.1 hhigh.2
              hlow'.1 hlow'.2 ?_) (by simp +arith) h
            exact toNat_ofNat (Or.inr (by omega))
        · cases h
      · have hlt := hescape.lt
        simp only [isHighHalf, isLowHalf, Bool.and_eq_true, decide_eq_true_eq] at hhigh hlow
        have hn : (Char.ofNat u).toNat = u := toNat_ofNat (by omega)
        rw [← hn] at hescape
        exact hcons rfl (.unit hescape) (by simp +arith) h
  · rename_i c r _
    split at h
    · rename_i d hd
      exact hcons rfl (.short (escaped?_eq_some_iff.1 hd)) (by simp +arith) h
    · cases h
  · rename_i c r _ _
    split_ifs at h with hquote hnot
    · obtain ⟨ts', hr, he⟩ := Option.map_eq_some_iff.1 h
      cases he
      exact ⟨[], r, by rw [hquote]; rfl, .nil, hr⟩
    · obtain ⟨hslash, hlow⟩ := not_or.1 hnot
      have hlow' : 0x20 ≤ c.toNat := Nat.not_lt.1 fun hlt => hlow (Char.lt_def.2 hlt)
      exact hcons rfl (.plain hlow' hquote hslash) (by simp) h
  · cases h
termination_by cs.length

/-! ## Tokens -/

/-- The sign of a token that is not a text. -/
def Token.sign? : Token → Option Char
  | .text _ => none
  | .openBrace => some '\x7b'
  | .closeBrace => some '\x7d'
  | .openBracket => some '['
  | .closeBracket => some ']'
  | .colon => some ':'
  | .comma => some ','

/-- Some tokens and a way to write them. -/
inductive Spells : List Char → List Token → Prop
  | nil : Spells [] []
  | blank {b r : List Char} {ts : List Token} : Blank b → Spells r ts → Spells (b ++ r) ts
  | sign {c : Char} {r : List Char} {t : Token} {ts : List Token} : t.sign? = some c →
      Spells r ts → Spells (c :: r) (t :: ts)
  | text {w r s : List Char} {ts : List Token} : Quoted w s → Spells r ts →
      Spells (w ++ r) (.text s :: ts)

theorem punctuation?_eq_some_iff {c : Char} {t : Token} :
    punctuation? c = some t ↔ t.sign? = some c := by
  constructor
  · intro h
    unfold punctuation? at h
    split_ifs at h <;> cases h <;> subst c <;> rfl
  · intro h
    cases t <;> cases h <;> rfl

/-- No sign opens a text, and none is blank. -/
theorem Token.sign?_other {t : Token} {c : Char} (h : t.sign? = some c) :
    c ≠ '\x22' ∧ isSpace c = false := by
  cases t <;> cases h <;> decide

/-- Blanks are passed over. -/
theorem read_blank {b : List Char} (hb : Blank b) (r : List Char) :
    Token.read (b ++ r) = Token.read r := by
  induction b with
  | nil => rfl
  | cons c b ih =>
    have hc := hb c List.mem_cons_self
    have hquote : c ≠ '\x22' := by
      rcases hc with rfl | rfl | rfl | rfl <;> decide
    rw [List.cons_append, Token.read, if_neg hquote, if_pos (isSpace_iff.2 hc)]
    exact ih fun c' hc' => hb c' (List.mem_cons_of_mem _ hc')

theorem read_spells {cs : List Char} {ts : List Token} (h : Spells cs ts) :
    Token.read cs = some ts := by
  induction h with
  | nil => rfl
  | blank hb _ ih => rw [read_blank hb, ih]
  | @sign c r t ts hc _ ih =>
    obtain ⟨hquote, hspace⟩ := Token.sign?_other hc
    rw [Token.read, if_neg hquote, if_neg (by simp [hspace]), punctuation?_eq_some_iff.2 hc, ih]
    rfl
  | text hq _ ih =>
    obtain ⟨hin⟩ := hq
    rw [List.cons_append, List.append_assoc, Token.read, if_pos rfl, List.singleton_append,
      readText_inside hin, ih]
    rfl

/-- What is read as some tokens spells them. -/
theorem spells_of_read {cs : List Char} {ts : List Token} (h : Token.read cs = some ts) :
    Spells cs ts := by
  match cs, h with
  | [], h =>
    cases h
    exact .nil
  | c :: r, h =>
    rw [Token.read] at h
    split_ifs at h with hquote hspace
    · subst hquote
      obtain ⟨⟨s, ts'⟩, hr, rfl⟩ := Option.map_eq_some_iff.1 h
      obtain ⟨w, r', hw, hin, hr'⟩ := inside_of_readText hr
      have hlt : r'.length < r.length := by
        rw [hw]
        simp +arith
      have htext := Spells.text (.mk hin) (spells_of_read hr')
      rwa [List.cons_append, List.append_assoc, List.singleton_append, ← hw] at htext
    · have hb : Blank [c] := fun c' hc' => by
        rw [List.mem_singleton.1 hc']
        exact isSpace_iff.1 hspace
      exact .blank hb (spells_of_read h)
    · split at h
      · rename_i t hsign
        obtain ⟨ts', hr, rfl⟩ := Option.map_eq_some_iff.1 h
        exact .sign (punctuation?_eq_some_iff.1 hsign) (spells_of_read hr)
      · cases h
termination_by cs.length
decreasing_by
  all_goals
    simp only [List.length_cons]
    omega

/-- A list of tokens is read from a text just if the text spells it. -/
theorem read_eq_some_iff {cs : List Char} {ts : List Token} :
    Token.read cs = some ts ↔ Spells cs ts :=
  ⟨spells_of_read, read_spells⟩

end CallFeed.Access

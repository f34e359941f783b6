/-
  CallFeed — what is read back from a percent-encoded text.

  * `IsEscape`: a text begins with a percent sign and two hexadecimal digits; `HasEscape`: it has
    such a place. Texts are taken apart along their escapes (`escape_induction`);
  * `percentBytes_encoded`: as the percent sign is written as it is, what was an escape in the text
    is one in its written form, and nothing else is read differently;
  * `percentDecode_percentEncode_iff`: a text is read back just if it has no escape.
-/
import CallFeed.Proofs.Access.Grammar
import CallFeed.Text.Percent

namespace CallFeed.Text

open Access (Hex hexValue?_eq_some_iff)

variable {cs r : List Char} {a b c : Char} {x y : Nat}

/-! ## Escapes -/

/-- The text begins with a percent sign and two hexadecimal digits. -/
def IsEscape (cs : List Char) : Prop :=
  ∃ a b r x y, cs = '%' :: a :: b :: r ∧ Hex a x ∧ Hex b y

/-- Somewhere in the text two hexadecimal digits follow a percent sign. -/
def HasEscape (cs : List Char) : Prop := ∃ front back, cs = front ++ back ∧ IsEscape back

theorem hasEscape_cons_iff : HasEscape (c :: r) ↔ IsEscape (c :: r) ∨ HasEscape r := by
  constructor
  · rintro ⟨front, back, hsplit, hback⟩
    cases front with
    | nil => exact Or.inl (hsplit ▸ hback)
    | cons d front => exact Or.inr ⟨front, back, (List.cons.inj hsplit).2, hback⟩
  · rintro (h | ⟨front, back, rfl, hback⟩)
    · exact ⟨[], _, rfl, h⟩
    · exact ⟨c :: front, back, rfl, hback⟩

theorem not_hasEscape_nil : ¬ HasEscape [] := by
  rintro ⟨front, back, hsplit, a, b, r, x, y, rfl, -, -⟩
  simp at hsplit

/-- Text without a percent sign adds no escape in front. -/
theorem hasEscape_append_iff {front : List Char} (hno : '%' ∉ front) :
    HasEscape (front ++ cs) ↔ HasEscape cs := by
  induction front with
  | nil => exact Iff.rfl
  | cons c front ih =>
    obtain ⟨hc, hno⟩ := List.ne_and_not_mem_of_not_mem_cons hno
    have hself : ¬ IsEscape (c :: (front ++ cs)) := by
      rintro ⟨a, b, r, x, y, hsplit, -, -⟩
      exact hc (List.cons.inj hsplit).1.symm
    rw [List.cons_append, hasEscape_cons_iff, or_iff_right hself, ih hno]

theorem not_hasEscape_of_not_mem (hno : '%' ∉ cs) : ¬ HasEscape cs := by
  rw [← List.append_nil cs, hasEscape_append_iff hno]
  exact not_hasEscape_nil

/-- Induction on a text, its escapes taken whole. -/
theorem escape_induction {P : List Char → Prop} (nil : P [])
    (escape : ∀ a b x y r, Hex a x → Hex b y → P r → P ('%' :: a :: b :: r))
    (char : ∀ c r, ¬ IsEscape (c :: r) → P r → P (c :: r)) (cs : List Char) : P cs := by
  induction cs using percentBytes.induct with
  | case1 a b r x y hb ha ih =>
    exact escape a b x y r (hexValue?_eq_some_iff.1 ha) (hexValue?_eq_some_iff.1 hb) ih
  | case2 a b r hno ih =>
    refine char _ _ ?_ ih
    rintro ⟨_, _, _, x, y, hcs, ha, hb⟩
    cases hcs
    exact hno x y (hexValue?_eq_some_iff.2 ha) (hexValue?_eq_some_iff.2 hb)
  | case3 c r hno ih =>
    refine char _ _ ?_ ih
    rintro ⟨a, b, r', x, y, hcs, -, -⟩
    exact hno a b r' (List.cons.inj hcs).1 (List.cons.inj hcs).2
  | case4 => exact nil

/-- An escape is read as its byte. -/
theorem percentBytes_escape (ha : Hex a x) (hb : Hex b y) :
    percentBytes ('%' :: a :: b :: r) = UInt8.ofNat (16 * x + y) :: percentBytes r := by
  rw [percentBytes, hexValue?_eq_some_iff.2 ha, hexValue?_eq_some_iff.2 hb]

/-- Any other character is read as itself. -/
theorem percentBytes_char (h : ¬ IsEscape (c :: r)) :
    percentBytes (c :: r) = String.utf8EncodeChar c ++ percentBytes r := by
  by_cases hsplit : ∃ a b r', c = '%' ∧ r = a :: b :: r'
  · obtain ⟨a, b, r', rfl, rfl⟩ := hsplit
    rw [percentBytes]
    split
    · rename_i x y ha hb
      exact absurd ⟨a, b, r', x, y, rfl, hexValue?_eq_some_iff.1 ha, hexValue?_eq_some_iff.1 hb⟩ h
    · rfl
  · rw [percentBytes.eq_2]
    rintro a b r' rfl rfl
    exact hsplit ⟨a, b, r', rfl, rfl⟩

/-- The bytes of a text are no more than those of its characters, and an escape makes them less. -/
theorem length_percentBytes (cs : List Char) :
    (percentBytes cs).length ≤ (cs.flatMap String.utf8EncodeChar).length ∧
      (HasEscape cs → (percentBytes cs).length < (cs.flatMap String.utf8EncodeChar).length) := by
  induction cs using escape_induction with
  | nil => exact ⟨Nat.le_refl _, fun h => absurd h not_hasEscape_nil⟩
  | escape a b x y r ha hb ih =>
    have hpos : ∀ c, 0 < (String.utf8EncodeChar c).length := by
      intro c
      rw [String.length_utf8EncodeChar]
      exact c.utf8Size_pos
    have hpercent := hpos '%'
    have ha' := hpos a
    have hb' := hpos b
    rw [percentBytes_escape ha hb]
    simp only [List.length_cons, List.flatMap_cons, List.length_append]
    omega
  | char c r h ih =>
    rw [percentBytes_char h, hasEscape_cons_iff, or_iff_right h]
    simp only [List.flatMap_cons, List.length_append, Nat.add_le_add_iff_left,
      Nat.add_lt_add_iff_left]
    exact ih

/-- A text without an escape is read as it is, and no other. -/
theorem percentBytes_eq_iff :
    percentBytes cs = cs.flatMap String.utf8EncodeChar ↔ ¬ HasEscape cs := by
  constructor
  · intro h hesc
    have hlt := (length_percentBytes cs).2 hesc
    rw [h] at hlt
    exact Nat.lt_irrefl _ hlt
  · induction cs using escape_induction with
    | nil => exact fun _ => rfl
    | escape a b x y r ha hb ih =>
      exact fun hno => absurd ⟨[], _, rfl, a, b, r, x, y, rfl, ha, hb⟩ hno
    | char c r h ih =>
      intro hno
      rw [hasEscape_cons_iff, or_iff_right h] at hno
      rw [percentBytes_char h, ih hno, List.flatMap_cons]

/-! ## Encoded texts -/

/-- The written form of a character. -/
def encodeChar (c : Char) : List Char := (String.utf8EncodeChar c).flatMap encodeByte

theorem toList_percentEncode (s : String) :
    (percentEncode s).toList = s.toList.flatMap encodeChar := by
  rw [percentEncode, String.toList_ofList, utf8, List.flatMap_assoc]
  rfl

theorem hex_hexDigit {n : Nat} (hn : n < 16) : Hex (hexDigit n) n := by
  have hall : ∀ n < 16, hexValue? (hexDigit n) = some n := by decide
  exact hexValue?_eq_some_iff.1 (hall n hn)

/-- Encoded bytes are read back. -/
theorem percentBytes_encodeBytes {bs : List UInt8} (hbs : ∀ b ∈ bs, isEncoded b = true) :
    percentBytes (bs.flatMap encodeByte ++ r) = bs ++ percentBytes r := by
  induction bs with
  | nil => rfl
  | cons b bs ih =>
    obtain ⟨hb, hbs⟩ := List.forall_mem_cons.1 hbs
    have hlt : b.toNat < 256 := b.toNat_lt
    have hhigh : Hex (hexDigit (b.toNat / 16)) (b.toNat / 16) := hex_hexDigit (by omega)
    have hlow : Hex (hexDigit (b.toNat % 16)) (b.toNat % 16) := hex_hexDigit (by omega)
    have hbyte : UInt8.ofNat (16 * (b.toNat / 16) + b.toNat % 16) = b := by
      rw [Nat.div_add_mod, UInt8.ofNat_toNat]
    rw [List.flatMap_cons, encodeByte, if_pos hb]
    simp only [List.cons_append, List.nil_append]
    rw [percentBytes_escape hhigh hlow, hbyte, ih hbs]

theorem utf8EncodeChar_of_lt (hc : c.toNat < 128) :
    String.utf8EncodeChar c = [UInt8.ofNat c.toNat] :=
  if_pos (Nat.le_of_lt_succ hc)

/-- The bytes of a character outside ASCII are outside ASCII. -/
theorem le_of_mem_utf8EncodeChar (hc : 128 ≤ c.toNat) {b : UInt8}
    (hb : b ∈ String.utf8EncodeChar c) : 128 ≤ b.toNat := by
  have hbyte : ∀ n, 128 ≤ n → n < 256 → 128 ≤ (UInt8.ofNat n).toNat := by
    intro n hlow hhigh
    rw [UInt8.toNat_ofNat_of_lt' hhigh]
    exact hlow
  have hval : c.val.toNat = c.toNat := rfl
  unfold String.utf8EncodeChar at hb
  simp only [hval] at hb
  generalize c.toNat = n at hc hb
  -- one byte, or a first byte from 192 on and others from 128 on
  split_ifs at hb with hone htwo hthree <;>
    simp only [List.mem_cons, List.not_mem_nil, or_false] at hb
  · omega
  · rcases hb with rfl | rfl <;> exact hbyte _ (by omega) (by omega)
  · rcases hb with rfl | rfl | rfl <;> exact hbyte _ (by omega) (by omega)
  · rcases hb with rfl | rfl | rfl | rfl <;> exact hbyte _ (by omega) (by omega)

/-- A character is written as it is, or all its bytes are encoded. -/
theorem encodeChar_cases (c : Char) :
    encodeChar c = [c] ∨ ∀ b ∈ String.utf8EncodeChar c, isEncoded b = true := by
  by_cases hc : c.toNat < 128
  · have hbytes := utf8EncodeChar_of_lt hc
    by_cases hb : isEncoded (UInt8.ofNat c.toNat) = true
    · rw [hbytes]
      exact Or.inr (List.forall_mem_singleton.2 hb)
    · have hself : (UInt8.ofNat c.toNat).toNat = c.toNat :=
        UInt8.toNat_ofNat_of_lt' (Nat.lt_trans hc (by decide))
      left
      rw [encodeChar, hbytes, List.flatMap_singleton, encodeByte, if_neg hb, hself,
        Char.ofNat_toNat]
  · right
    intro b hb
    have hle : 0x7f ≤ b.toNat :=
      Nat.le_of_succ_le (le_of_mem_utf8EncodeChar (Nat.not_lt.1 hc) hb)
    have hle' : (0x7f : UInt8) ≤ b := UInt8.le_iff_toNat_le.2 hle
    simp [isEncoded, hle']

theorem isEncoded_of_hex (ha : Hex a x) : isEncoded (UInt8.ofNat a.toNat) = false := by
  cases ha with
  | decimal hn ha =>
    have hall : ∀ n < 10, isEncoded (UInt8.ofNat (0x30 + n)) = false := by decide
    rw [ha]
    exact hall _ hn
  | upper hn ha =>
    have hall : ∀ n < 6, isEncoded (UInt8.ofNat (0x41 + n)) = false := by decide
    rw [ha]
    exact hall _ hn
  | lower hn ha =>
    have hall : ∀ n < 6, isEncoded (UInt8.ofNat (0x61 + n)) = false := by decide
    rw [ha]
    exact hall _ hn

theorem not_hex_percent : ¬ Hex '%' x := by
  intro h
  have hpercent : '%'.toNat = 0x25 := rfl
  cases h <;> omega

/-- A hexadecimal digit is written as it is. -/
theorem encodeChar_of_hex (ha : Hex a x) : encodeChar a = [a] := by
  rcases encodeChar_cases a with hself | hencoded
  · exact hself
  · have hlt : a.toNat < 128 := by cases ha <;> omega
    rw [utf8EncodeChar_of_lt hlt, List.forall_mem_singleton, isEncoded_of_hex ha] at hencoded
    cases hencoded

/-- A written form that begins with a hexadecimal digit is that of a text that does. -/
theorem exists_of_encoded_eq_cons (ha : Hex a x) (h : cs.flatMap encodeChar = a :: r) :
    ∃ cs', cs = a :: cs' ∧ r = cs'.flatMap encodeChar := by
  cases cs with
  | nil => cases h
  | cons c cs =>
    rw [List.flatMap_cons] at h
    rcases encodeChar_cases c with hself | hencoded
    · rw [hself, List.singleton_append] at h
      obtain ⟨rfl, rfl⟩ := List.cons.inj h
      exact ⟨cs, rfl, rfl⟩
    · -- the first byte of the character is written with a percent sign
      have hne : String.utf8EncodeChar c ≠ [] := by
        rw [← List.length_pos_iff, String.length_utf8EncodeChar]
        exact c.utf8Size_pos
      obtain ⟨b, bs, hbs⟩ := List.exists_cons_of_ne_nil hne
      rw [hbs] at hencoded
      rw [encodeChar, hbs, List.flatMap_cons, encodeByte, if_pos (hencoded b List.mem_cons_self)] at h
      exact absurd ((List.cons.inj h).1 ▸ ha) not_hex_percent

/-- What is an escape in the written form of a text is one in the text. -/
theorem isEscape_of_encoded (h : IsEscape ('%' :: cs.flatMap encodeChar)) : IsEscape ('%' :: cs) := by
  obtain ⟨a, b, r, x, y, hcs, ha, hb⟩ := h
  obtain ⟨cs', rfl, hr⟩ := exists_of_encoded_eq_cons ha (List.cons.inj hcs).2
  obtain ⟨cs'', rfl, -⟩ := exists_of_encoded_eq_cons hb hr.symm
  exact ⟨a, b, cs'', x, y, rfl, ha, hb⟩

/-- A written form is read as the text is, whose escapes it does not hide. -/
theorem percentBytes_encoded (cs : List Char) :
    percentBytes (cs.flatMap encodeChar) = percentBytes cs := by
  induction cs using escape_induction with
  | nil => rfl
  | escape a b x y r ha hb ih =>
    have hpercent : encodeChar '%' = ['%'] := by decide
    rw [List.flatMap_cons, List.flatMap_cons, List.flatMap_cons, hpercent, encodeChar_of_hex ha,
      encodeChar_of_hex hb]
    simp only [List.cons_append, List.nil_append]
    rw [percentBytes_escape ha hb, percentBytes_escape ha hb, ih]
  | char c r h ih =>
    rw [List.flatMap_cons, percentBytes_char h]
    rcases encodeChar_cases c with hself | hencoded
    · have hno : ¬ IsEscape (c :: r.flatMap encodeChar) := by
        rintro ⟨a, b, r', x, y, hcs, ha, hb⟩
        obtain ⟨rfl, -⟩ := List.cons.inj hcs
        exact h (isEscape_of_encoded ⟨a, b, r', x, y, hcs, ha, hb⟩)
      rw [hself, List.singleton_append, percentBytes_char hno, ih]
    · rw [encodeChar, percentBytes_encodeBytes hencoded, ih]

/-! ## Texts -/

theorem fromUTF8?_eq_some_iff {bytes : ByteArray} {s : String} :
    String.fromUTF8? bytes = some s ↔ bytes = s.toByteArray := by
  unfold String.fromUTF8?
  constructor
  · intro h
    split at h
    · cases h
      rfl
    · cases h
  · rintro rfl
    rw [dif_pos s.isValidUTF8]
    rfl

theorem toByteArray_eq (s : String) : s.toByteArray = ⟨(utf8 s).toArray⟩ := by
  apply ByteArray.ext
  rw [← @String.ofList_toList s, String.toByteArray_ofList, List.utf8Encode, List.data_toByteArray,
    String.ofList_toList, utf8]

theorem percentDecode_eq_some_iff {text s : String} :
    percentDecode text = some s ↔ percentBytes text.toList = utf8 s := by
  rw [percentDecode, fromUTF8?_eq_some_iff, toByteArray_eq, ByteArray.mk.injEq]
  exact ⟨List.toArray_inj, congrArg List.toArray⟩

/-- **A text is read back just if it has no escape.** -/
theorem percentDecode_percentEncode_iff {s : String} :
    percentDecode (percentEncode s) = some s ↔ ¬ HasEscape s.toList := by
  rw [percentDecode_eq_some_iff, toList_percentEncode, percentBytes_encoded, utf8,
    percentBytes_eq_iff]

theorem percentDecode_percentEncode (s : String) :
    percentDecode (percentEncode s) = percentDecode s := by
  rw [percentDecode, toList_percentEncode, percentBytes_encoded, ← percentDecode]

end CallFeed.Text

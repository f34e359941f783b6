/-
  CallFeed — percent-encoding of header texts.

  The bytes of a text in UTF-8 are written as they are where a header may hold
  them, and as a percent sign with two hexadecimal digits where not. The percent
  sign itself is one of the bytes that are written as they are.

  * `percentEncode` is the encoding;
  * `percentDecode` reads it back: two digits after a percent sign are a byte, and
    any other byte is itself.
-/

namespace CallFeed.Text

/-- The bytes of a text in UTF-8. -/
def utf8 (s : String) : List UInt8 :=
  s.toList.flatMap String.utf8EncodeChar

/-! ## Encoding -/

/-- The bytes that a header text holds only in encoded form: controls, bytes outside
    ASCII, and the signs for space, double quote, number, less, greater, grave
    accent, question and the two braces. -/
def isEncoded (b : UInt8) : Bool :=
  b < 0x20 || 0x7f ≤ b || [0x20, 0x22, 0x23, 0x3c, 0x3e, 0x60, 0x3f, 0x7b, 0x7d].contains b

/-- The hexadecimal digit of a value below 16, in upper case. -/
def hexDigit (n : Nat) : Char :=
  (Nat.digitChar n).toUpper

/-- The written form of one byte. -/
def encodeByte (b : UInt8) : List Char :=
  if isEncoded b then ['%', hexDigit (b.toNat / 16), hexDigit (b.toNat % 16)]
  else [Char.ofNat b.toNat]

/-- The written form of a text. -/
def percentEncode (s : String) : String :=
  String.ofList ((utf8 s).flatMap encodeByte)

/-! ## Decoding -/

/-- The value of a hexadecimal digit of either case. -/
def hexValue? (c : Char) : Option Nat :=
  if '0' ≤ c ∧ c ≤ '9' then some (c.toNat - '0'.toNat)
  else if 'a' ≤ c ∧ c ≤ 'f' then some (c.toNat - 'a'.toNat + 10)
  else if 'A' ≤ c ∧ c ≤ 'F' then some (c.toNat - 'A'.toNat + 10)
  else none

/-- The bytes that a written form stands for. -/
def percentBytes : List Char → List UInt8
  | '%' :: h :: l :: r =>
    match hexValue? h, hexValue? l with
    | some a, some b => UInt8.ofNat (16 * a + b) :: percentBytes r
    | _, _ => String.utf8EncodeChar '%' ++ percentBytes (h :: l :: r)
  | c :: r => String.utf8EncodeChar c ++ percentBytes r
  | [] => []

/-- The text that a written form stands for, if its bytes are UTF-8. -/
def percentDecode (s : String) : Option String :=
  String.fromUTF8? ⟨(percentBytes s.toList).toArray⟩

end CallFeed.Text

/-
  CallFeed — numerals of counts, and the text of a span of time.

  * `readCount` reads a decimal numeral in blanks, with at most one plus sign in
    front, whose value is a word of 64 bits;
  * `spanText` writes a span of milliseconds: below a second in milliseconds, from
    a second on in seconds with the fraction cut after its last digit that counts.
-/
import CallFeed.Text.Blank

namespace CallFeed.Text

/-! ## Reading -/

/-- The largest number of 64 bits. -/
def maxWord : Nat := 18446744073709551615

def digitValue? (c : Char) : Option Nat :=
  if '0' ≤ c ∧ c ≤ '9' then some (c.toNat - '0'.toNat) else none

/-- The value of a string of digits that follows digits of the value `n`. -/
def digitsFrom (n : Nat) : List Char → Option Nat
  | [] => some n
  | c :: r => (digitValue? c).bind fun d => digitsFrom (10 * n + d) r

/-- The value of a string of one or more ASCII digits. -/
def digits? : List Char → Option Nat
  | [] => none
  | c :: r => digitsFrom 0 (c :: r)

/-- The numeral without a plus sign in front of it. -/
def dropPlus : List Char → List Char
  | '+' :: r => r
  | cs => cs

/-- The count that a text names: a decimal numeral, blanks around it, one plus sign
    allowed, no larger than `maxWord`. -/
def readCount (s : String) : Option Nat :=
  (digits? (dropPlus (trim s.toList))).filter (· ≤ maxWord)

/-! ## Spans of time -/

/-- Three digits of a fraction, without the zeros at its end. -/
def fractionText (thousandths : Nat) : String :=
  let digits := [thousandths / 100 % 10, thousandths / 10 % 10, thousandths % 10]
  String.ofList ((digits.reverse.dropWhile (· = 0)).reverse.map Nat.digitChar)

/-- The text of a span of milliseconds. -/
def spanText (ms : Nat) : String :=
  if ms = 0 then "0ns"
  else if ms < 1000 then s!"{ms}ms"
  else if ms % 1000 = 0 then s!"{ms / 1000}s"
  else s!"{ms / 1000}.{fractionText (ms % 1000)}s"

/-- The text of a limit that may be missing. -/
def limitText : Option Nat → String
  | none => "None"
  | some ms => s!"Some({spanText ms})"

end CallFeed.Text

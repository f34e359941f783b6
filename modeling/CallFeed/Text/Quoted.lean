/-
  CallFeed — quoted texts.

  * `quote s` puts a text in double quotes; a quote, a backslash and the control
    characters that have a letter are written with a backslash, every other
    unprintable character by its code point (`\u` and hexadecimal digits in
    braces);
  * `quoteList` writes a list of texts, quoted and in brackets.
-/
import CallFeed.Text.Unprintable

namespace CallFeed.Text

/-- The letter of an escape that stands for one character. -/
def escapeLetter? (c : Char) : Option Char :=
  if c = '\x22' ∨ c = '\\' then some c
  else if c = '\n' then some 'n'
  else if c = '\t' then some 't'
  else if c = '\r' then some 'r'
  else if c = '\x00' then some '0'
  else none

/-- The written form of one character inside quotes. -/
def escape (c : Char) : List Char :=
  match escapeLetter? c with
  | some l => ['\\', l]
  | none =>
    if isUnprintable c then ['\\', 'u', '\x7b'] ++ Nat.toDigits 16 c.toNat ++ ['\x7d'] else [c]

/-- A text in double quotes. -/
def quote (s : String) : String :=
  String.ofList ('\x22' :: s.toList.flatMap escape ++ ['\x22'])

/-- A list of texts, quoted, in brackets. -/
def quoteList (ss : List String) : String :=
  "[" ++ String.intercalate ", " (ss.map quote) ++ "]"

end CallFeed.Text

/-
  CallFeed — the tokens of a written access list.

  An access list is written as a JSON object. Its tokens are the texts in quotes,
  the brackets and braces, colons and commas; between tokens there may be spaces,
  tabs and line ends.

  * `Token.read` is the list of the tokens of a text; it fails on any other
    character, on a text that is not closed, on a control character in a text, on
    an unknown escape and on half of a surrogate pair;
  * `escaped?` are the escapes of one letter, and `pairChar` joins the two halves of
    a surrogate pair.
-/
import CallFeed.Text.Percent

namespace CallFeed.Access

inductive Token where
  | text (s : List Char)
  | openBrace
  | closeBrace
  | openBracket
  | closeBracket
  | colon
  | comma
  deriving DecidableEq, Repr

/-! ## Characters -/

/-- The characters allowed between tokens. -/
def isSpace (c : Char) : Bool :=
  c = ' ' || c = '\t' || c = '\n' || c = '\r'

/-- The token of a punctuation sign. -/
def punctuation? (c : Char) : Option Token :=
  if c = '\x7b' then some .openBrace
  else if c = '\x7d' then some .closeBrace
  else if c = '[' then some .openBracket
  else if c = ']' then some .closeBracket
  else if c = ':' then some .colon
  else if c = ',' then some .comma
  else none

/-- The character that a backslash and a letter stand for. -/
def escaped? (c : Char) : Option Char :=
  if c = '\x22' ∨ c = '\\' ∨ c = '/' then some c
  else if c = 'b' then some '\x08'
  else if c = 'f' then some '\x0c'
  else if c = 'n' then some '\n'
  else if c = 'r' then some '\r'
  else if c = 't' then some '\t'
  else none

/-- The number of four hexadecimal digits. -/
def codeUnit? (a b c d : Char) : Option Nat := do
  let a ← Text.hexValue? a
  let b ← Text.hexValue? b
  let c ← Text.hexValue? c
  let d ← Text.hexValue? d
  pure (((a * 16 + b) * 16 + c) * 16 + d)

def isHighHalf (u : Nat) : Bool := 0xd800 ≤ u && u < 0xdc00

def isLowHalf (u : Nat) : Bool := 0xdc00 ≤ u && u < 0xe000

/-- The character of a surrogate pair. -/
def pairChar (high low : Nat) : Char :=
  Char.ofNat (0x10000 + (high - 0xd800) * 0x400 + (low - 0xdc00))

/-! ## Reading -/

mutual

def Token.read : List Char → Option (List Token)
  | [] => some []
  | c :: r =>
    if c = '\x22' then (Token.readText r).map fun p => .text p.1 :: p.2
    else if isSpace c then Token.read r
    else match punctuation? c with
      | some t => (Token.read r).map (t :: ·)
      | none => none

/-- The rest of a text in quotes, and the tokens behind it. -/
def Token.readText : List Char → Option (List Char × List Token)
  | '\\' :: 'u' :: a :: b :: c :: d :: r =>
    match codeUnit? a b c d with
    | none => none
    | some u =>
      if isHighHalf u then
        match r with
        | '\\' :: 'u' :: a' :: b' :: c' :: d' :: r' =>
          match codeUnit? a' b' c' d' with
          | none => none
          | some u' =>
            if isLowHalf u' then
              (Token.readText r').map fun p => (pairChar u u' :: p.1, p.2)
            else none
        | _ => none
      else if isLowHalf u then none
      else (Token.readText r).map fun p => (Char.ofNat u :: p.1, p.2)
  | '\\' :: c :: r =>
    match escaped? c with
    | some d => (Token.readText r).map fun p => (d :: p.1, p.2)
    | none => none
  | c :: r =>
    if c = '\x22' then (Token.read r).map fun ts => ([], ts)
    else if c = '\\' ∨ c < ' ' then none
    else (Token.readText r).map fun p => (c :: p.1, p.2)
  | [] => none

end

end CallFeed.Access

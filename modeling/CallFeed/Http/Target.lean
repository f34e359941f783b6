/-
  CallFeed — the target of a request, and the method that it names.

  A target is a path with an optional query, a star, an authority alone, or a scheme
  and an authority in front of a path.

  * `Target.read` splits a text into these parts, or fails on a text that is no
    target;
  * `Target.method` is the path, nothing decoded: a slash if the path after an
    authority with a scheme is empty, and nothing for an authority alone.
-/
import CallFeed.Text.Blank
import CallFeed.Text.Percent

namespace CallFeed

/-- The target of a request. -/
inductive Target where
  /-- A path that starts with a slash, or a star. -/
  | path (path : String)
  /-- A path behind a scheme and an authority; it may be empty. -/
  | absolute (path : String)
  | authority
  deriving DecidableEq, Repr

namespace Target

/-- The signs, other than letters and digits, that a path may hold. -/
def pathSigns : List Char := "!$%&\x27()*+,-./:;=@[\\]^_|~\x22\x7b\x7d".toList

/-- The signs, other than letters and digits, that a query may hold. -/
def querySigns : List Char := "!$%&\x27()*+,-./:;=?@[\\]^_|~\x60\x7b\x7d".toList

/-- The signs, other than letters and digits, that an authority may hold. -/
def authoritySigns : List Char := "!$%&\x27()*+,-.:;=@[]_~".toList

/-- Whether a character is a letter, a digit, one of the signs, or not ASCII. -/
def isText (signs : List Char) (c : Char) : Bool :=
  c.isAlphanum || signs.contains c || 0x80 ≤ c.toNat

def pathOf (cs : List Char) : List Char :=
  cs.takeWhile fun c => c ≠ '?' && c ≠ '#'

/-- The query of a text whose path is followed by one, without its sign and a fragment. -/
def queryOf (cs : List Char) : List Char :=
  match cs.drop (pathOf cs).length with
  | '?' :: r => r.takeWhile (· ≠ '#')
  | _ => []

/-- Whether a text is a path with an optional query and fragment. -/
def isPathAndQuery (cs : List Char) : Bool :=
  (pathOf cs).all (isText pathSigns) && (queryOf cs).all (isText querySigns)

/-- The most colons that a section of an authority may hold. -/
def mostColons : Nat := 8

/-- The sections of an authority: each but the last ends with the name of a user or with
    an address in brackets, and the last is the rest of the host with its port. -/
def sections (cs : List Char) : List (List Char) :=
  Text.pieces (fun c => c = '@' || c = ']') cs

/-- Whether a text can be a section: with a limited number of colons, and with no percent
    sign in front of a bracket. -/
def isSection (cs : List Char) : Bool :=
  cs.count ':' ≤ mostColons && (!cs.contains '[' || !(cs.takeWhile (· ≠ '[')).contains '%')

/-- Whether a section can be the last one: with no percent sign, and with one colon at
    most. -/
def isLastSection (cs : List Char) : Bool :=
  !cs.contains '%' && cs.count ':' ≤ 1

/-- Whether a text is an authority: not empty, of the characters of an authority, with
    one pair of brackets at most, with something behind the name of a user, and of
    sections that can stand where they stand. -/
def isAuthority (cs : List Char) : Bool :=
  !cs.isEmpty && cs.all (fun c => c.isAlphanum || authoritySigns.contains c) &&
    [[], ['[', ']']].contains (cs.filter fun c => c = '[' || c = ']') &&
    cs.getLast? ≠ some '@' && (sections cs).all isSection &&
    (sections cs).getLast?.all isLastSection

/-- The authority at the start of a text. -/
def authorityOf (cs : List Char) : List Char :=
  cs.takeWhile fun c => c ≠ '/' && c ≠ '?' && c ≠ '#'

/-- The most characters that a scheme may have. -/
def longestScheme : Nat := 64

/-- The scheme at the start of a text, and the text behind it, a colon and two slashes. -/
def splitScheme? (cs : List Char) : Option (List Char × List Char) :=
  let scheme := cs.takeWhile fun c => c.isAlphanum || "+-.~".toList.contains c
  match cs.drop scheme.length with
  | ':' :: '/' :: '/' :: r => some (scheme, r)
  | _ => none

/-- The most bytes that a target may have. -/
def longestTarget : Nat := 65534

/-- The target of a text that does not start with a slash. -/
def readFull (cs : List Char) : Option Target :=
  match splitScheme? cs with
  | some (scheme, r) =>
    let rest := r.drop (authorityOf r).length
    if scheme.length ≤ longestScheme && isAuthority (authorityOf r) && isPathAndQuery rest then
      some (.absolute (String.ofList (pathOf rest)))
    else none
  | none => if isAuthority cs then some .authority else none

def read (text : String) : Option Target :=
  if longestTarget < (Text.utf8 text).length then none
  else
    match text.toList with
    | [] => none
    | ['*'] => some (.path "*")
    | '/' :: r =>
      if isPathAndQuery ('/' :: r) then some (.path (String.ofList (pathOf ('/' :: r)))) else none
    | cs => readFull cs

def method : Target → String
  | path p => p
  | absolute p => if p = "" then "/" else p
  | authority => ""

end Target

end CallFeed

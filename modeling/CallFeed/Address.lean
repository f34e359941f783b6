/-
  CallFeed — addresses of callers, and their one written form.

  An address is a host and a port. A host is four octets, or eight groups of 16 bits
  with the number of a scope, which is zero if there is none.

  * `Address.read` reads an address: octets with points between them, or groups in
    hexadecimal with colons between them and in brackets; two colons stand for one or
    more groups of zeros, and the last two groups may be written as four octets;
  * `Address.text` is the form in which an address is written: in lower case, without
    zeros in front, and with the first longest run of two or more groups of zeros
    left out.
-/
import CallFeed.Text.Numeral
import CallFeed.Text.Percent

namespace CallFeed

structure Octets where
  a : UInt8
  b : UInt8
  c : UInt8
  d : UInt8
  deriving DecidableEq, Repr

structure Groups where
  toList : List UInt16
  length_eq : toList.length = 8
  deriving DecidableEq, Repr

/-- A host on the network. -/
inductive Host where
  | octets (o : Octets)
  | groups (g : Groups) (scope : UInt32)
  deriving DecidableEq, Repr

structure Address where
  host : Host
  port : UInt16
  deriving DecidableEq, Repr

/-! ## Writing -/

def Octets.text (o : Octets) : String :=
  String.intercalate "." ([o.a, o.b, o.c, o.d].map fun n => toString n.toNat)

namespace Groups

/-- The octets at the end of groups that stand for four octets: those behind five
    groups of zeros and one of ones. -/
def octets? (g : Groups) : Option Octets :=
  match g.toList with
  | [0, 0, 0, 0, 0, 0xffff, m, n] =>
    some ⟨(m >>> 8).toUInt8, m.toUInt8, (n >>> 8).toUInt8, n.toUInt8⟩
  | _ => none

/-- Groups in hexadecimal, with colons between them. -/
def join (gs : List UInt16) : String :=
  String.intercalate ":" (gs.map fun n => String.ofList (Nat.toDigits 16 n.toNat))

/-- The first longest run of zeros: where it begins, and its length. -/
def longestRun (gs : List UInt16) : Nat × Nat :=
  (List.range gs.length).foldl
    (fun best i =>
      let n := ((gs.drop i).takeWhile (· = 0)).length
      if best.2 < n then (i, n) else best)
    (0, 0)

def text (g : Groups) : String :=
  match g.octets? with
  | some o => "::ffff:" ++ o.text
  | none =>
    let (start, n) := longestRun g.toList
    if 1 < n then join (g.toList.take start) ++ "::" ++ join (g.toList.drop (start + n))
    else join g.toList

end Groups

def Host.text : Host → String
  | octets o => o.text
  | groups g scope =>
    "[" ++ g.text ++ (if scope = 0 then "" else "%" ++ toString scope.toNat) ++ "]"

def Address.text (a : Address) : String :=
  a.host.text ++ ":" ++ toString a.port.toNat

/-! ## Reading -/

namespace Address

/-- The values of the digits at the start of a text, and the rest of it. -/
def readDigits (value? : Char → Option Nat) : List Char → List Nat × List Char
  | [] => ([], [])
  | c :: r =>
    match value? c with
    | some n =>
      let (ns, r') := readDigits value? r
      (n :: ns, r')
    | none => ([], c :: r)

/-- The number that digits stand for. -/
def number (base : Nat) (digits : List Nat) : Nat :=
  digits.foldl (fun n d => base * n + d) 0

/-- The decimal number below `bound` at the start of a text. -/
def readNumber (bound : Nat) (cs : List Char) : Option (Nat × List Char) :=
  let (ds, r) := readDigits Text.digitValue? cs
  if ds ≠ [] ∧ number 10 ds < bound then some (number 10 ds, r) else none

/-- The octet at the start of a text: up to three digits, with no zero in front. -/
def readOctet (cs : List Char) : Option (UInt8 × List Char) :=
  let (ds, r) := readDigits Text.digitValue? cs
  if ds ≠ [] ∧ ds.length ≤ 3 ∧ (ds.head? = some 0 → ds.length = 1) ∧ number 10 ds < 256 then
    some (UInt8.ofNat (number 10 ds), r)
  else none

/-- The group at the start of a text: up to four hexadecimal digits. -/
def readGroup (cs : List Char) : Option (UInt16 × List Char) :=
  let (ds, r) := readDigits Text.hexValue? cs
  if ds ≠ [] ∧ ds.length ≤ 4 then some (UInt16.ofNat (number 16 ds), r) else none

/-- The text behind a character that must stand at its start. -/
def expect? (c : Char) : List Char → Option (List Char)
  | d :: r => if d = c then some r else none
  | [] => none

/-- The four octets at the start of a text. -/
def readOctets (cs : List Char) : Option (Octets × List Char) := do
  let (a, r) ← readOctet cs
  let (b, r) ← readOctet (← expect? '.' r)
  let (c, r) ← readOctet (← expect? '.' r)
  let (d, r) ← readOctet (← expect? '.' r)
  pure (⟨a, b, c, d⟩, r)

/-- The two groups of four octets. -/
def groupsOf (o : Octets) : List UInt16 :=
  [o.a.toUInt16 <<< 8 ||| o.b.toUInt16, o.c.toUInt16 <<< 8 ||| o.d.toUInt16]

/-- Up to `n` groups at the start of a text, the rest of it, and whether the groups end
    with two that are written as octets. The first group has no colon in front. -/
def readGroups (isFirst : Bool) : Nat → List Char → List UInt16 × List Char × Bool
  | 0, cs => ([], cs, false)
  | n + 1, cs =>
    let here := if isFirst then some cs else expect? ':' cs
    match if n = 0 then none else here.bind readOctets with
    | some (o, r) => (groupsOf o, r, true)
    | none =>
      match here.bind readGroup with
      | some (g, r) =>
        let (gs, r', ended) := readGroups false n r
        (g :: gs, r', ended)
      | none => ([], cs, false)

/-- The eight groups at the start of a text. Two colons stand for as many groups of
    zeros as are missing, for one at least. -/
def readHost (cs : List Char) : Option (List UInt16 × List Char) :=
  match readGroups true 8 cs with
  | (front, r, ended) =>
    if front.length = 8 then some (front, r)
    else if ended then none
    else do
      let r ← expect? ':' (← expect? ':' r)
      let (back, r, _) := readGroups true (7 - front.length) r
      pure (front ++ List.replicate (8 - (front.length + back.length)) 0 ++ back, r)

/-- The number of the scope at the start of a text, or zero. -/
def readScope (cs : List Char) : Nat × List Char :=
  ((expect? '%' cs).bind (readNumber 4294967296)).getD (0, cs)

/-- The port that is the whole of a text, with a colon in front. -/
def readPort (cs : List Char) : Option UInt16 :=
  match (expect? ':' cs).bind (readNumber 65536) with
  | some (n, []) => some (UInt16.ofNat n)
  | _ => none

/-- An address whose host is eight groups. -/
def readWithGroups (cs : List Char) : Option Address := do
  let (gs, r) ← readHost (← expect? '[' cs)
  let (scope, r) := readScope r
  let port ← readPort (← expect? ']' r)
  if h : gs.length = 8 then pure ⟨.groups ⟨gs, h⟩ (UInt32.ofNat scope), port⟩ else none

/-- An address whose host is four octets. -/
def readWithOctets (cs : List Char) : Option Address := do
  let (o, r) ← readOctets cs
  let port ← readPort r
  pure ⟨.octets o, port⟩

def read (text : String) : Option Address :=
  (readWithOctets text.toList).orElse fun _ => readWithGroups text.toList

end Address

end CallFeed

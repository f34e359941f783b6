/-
  CallFeed — request headers, and the consumer that they name.

  * `Header.read` checks a name and a value: a name is a token of at most `longestName`
    characters, kept in lower case, and a value holds no control character but the tab;
  * `identify` finds the consumer: there must be one header of the name
    `consumerHeader`, and its value must be visible ASCII, spaces and tabs
    (`identify_eq_ok_iff`).
-/
import CallFeed.Fault

namespace CallFeed

/-! ## Headers -/

/-- A header of a request: a name in lower case and the bytes of its value. -/
structure Header where
  name : String
  value : List UInt8
  deriving DecidableEq, Repr

/-- Why a header cannot be sent. -/
inductive HeaderFault where
  | name
  | value
  deriving DecidableEq, Repr

/-- The characters of a header name. -/
def isToken (c : Char) : Bool :=
  c.isAlphanum || "!#$%&*+-.^_|~\x27\x60".toList.contains c

/-- The bytes of a header value. -/
def isFieldByte (b : UInt8) : Bool :=
  (0x20 ≤ b && b != 0x7f) || b == 0x09

/-- The most characters that a header name may have. -/
def longestName : Nat := 65535

/-- A header of the given name and value. -/
def Header.read (name : String) (value : List UInt8) : Except HeaderFault Header :=
  if name = "" ∨ longestName < name.length ∨ ¬ name.toList.all isToken then .error .name
  else if ¬ value.all isFieldByte then .error .value
  else .ok ⟨name.toLower, value⟩

/-! ## The consumer -/

/-- The name of the header that names the consumer. -/
def consumerHeader : String := "consumer"

/-- The bytes of a consumer's name. -/
def isVisible (b : UInt8) : Bool :=
  (0x20 ≤ b && b < 0x7f) || b == 0x09

/-- Why the headers name no consumer. -/
inductive IdentityFault where
  | missing
  | repeated
  | unreadable
  deriving DecidableEq, Repr

/-- The wording of the reason. -/
def IdentityFault.reason : IdentityFault → String
  | missing => "missing consumer metadata"
  | repeated => "multiple consumer metadata values"
  | unreadable => "consumer metadata is not ASCII"

/-- The text of bytes that are ASCII. -/
def asciiText (bytes : List UInt8) : String :=
  String.ofList (bytes.map fun b => Char.ofNat b.toNat)

/-- The values of the headers of a name. -/
def valuesOf (name : String) (headers : List Header) : List (List UInt8) :=
  (headers.filter (·.name = name)).map (·.value)

/-- The consumer that the headers name. -/
def identify (headers : List Header) : Except IdentityFault String :=
  match valuesOf consumerHeader headers with
  | [] => .error .missing
  | [value] => if value.all isVisible then .ok (asciiText value) else .error .unreadable
  | _ :: _ :: _ => .error .repeated

theorem identify_eq_ok_iff {headers : List Header} {consumer : String} :
    identify headers = .ok consumer ↔
      ∃ value, valuesOf consumerHeader headers = [value] ∧ value.all isVisible ∧
        asciiText value = consumer := by
  rw [identify]
  split <;> rename_i h
  · simp [h]
  · rename_i value
    by_cases hv : value.all isVisible = true
    · rw [if_pos hv, h]
      constructor
      · rintro ⟨⟩
        exact ⟨value, rfl, hv, rfl⟩
      · rintro ⟨v, hvs, -, rfl⟩
        rw [(List.cons.inj hvs).1]
    · rw [if_neg hv, h]
      constructor
      · rintro ⟨⟩
      · rintro ⟨v, hvs, hall, -⟩
        rw [← (List.cons.inj hvs).1] at hall
        exact absurd hall hv
  · simp [h]

/-- The fault of headers that name no consumer. -/
def IdentityFault.fault (f : IdentityFault) : Fault := .unauthenticated f.reason

end CallFeed

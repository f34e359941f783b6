/-
  CallFeed — access lists: which consumer may call which method.

  * `AccessList.ofRows` builds the list from names and texts of patterns; the last
    row of a consumer counts;
  * `AccessList.read` builds it from a written mapping;
  * `AccessList.grants` is the decision, and `AccessList.check` the same as a fault.
-/
import CallFeed.Access.Mapping
import CallFeed.Access.Pattern
import CallFeed.Fault
import CallFeed.Table

namespace CallFeed

open Access (Pattern Mapping)

/-- The patterns of methods that each consumer may call. -/
structure AccessList where
  entries : Table (List Pattern)

namespace AccessList

/-- The list of the given consumers and texts of patterns. -/
def ofRows (rows : List (String × List String)) : AccessList :=
  ⟨(Table.ofRows rows).mapValues (·.map Pattern.read)⟩

/-- The rows of a written mapping. -/
def rowsOf (m : Mapping) : List (String × List String) :=
  m.map fun row => (String.ofList row.1, row.2.map String.ofList)

/-- The list that a text writes. Of a text that writes none the fault has a fixed detail,
    which stands for the words of whatever reads the text. -/
def read (text : String) : Except Fault AccessList :=
  match Mapping.read text with
  | some m => .ok (ofRows (rowsOf m))
  | none => .error (.accessList "not an object whose values are lists of texts")

def consumers (a : AccessList) : Nat := a.entries.size

def grants (a : AccessList) (consumer method : String) : Bool :=
  match a.entries.get? consumer with
  | some patterns => patterns.any (·.covers method)
  | none => false

/-- Refuses a call that is not granted. -/
def check (a : AccessList) (consumer method : String) : Except Fault Unit :=
  if a.grants consumer method then .ok () else .error (.permissionDenied consumer method)

end AccessList

end CallFeed

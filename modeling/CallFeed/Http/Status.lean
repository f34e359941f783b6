/-
  CallFeed — the status of a finished call, and its form as a response.

  * `Code` are the codes, and `Code.ofNumber` takes any number for one of them;
  * `Status.headers` are the headers of the response that carries a status, in the
    order of their names; an empty message has no header.
-/
import CallFeed.Text.Percent

namespace CallFeed

/-- The codes of a status, from 0 for success to 16. -/
abbrev Code := Fin 17

namespace Code

/-- The cause is not known. -/
def unknown : Code := ⟨2, by decide⟩

/-- The request makes no sense, whatever the state of the service. -/
def invalidArgument : Code := ⟨3, by decide⟩

/-- The caller may not do this. -/
def permissionDenied : Code := ⟨7, by decide⟩

/-- Something inside the service is broken. -/
def internal : Code := ⟨13, by decide⟩

/-- The service is not there at present. -/
def unavailable : Code := ⟨14, by decide⟩

/-- It is not known who the caller is. -/
def unauthenticated : Code := ⟨16, by decide⟩

/-- The code of a number; a number that is no code counts as an unknown cause. -/
def ofNumber (n : Int) : Code :=
  if h : 0 ≤ n ∧ n < 17 then ⟨n.toNat, by omega⟩ else unknown

end Code

/-- How a call ended: a code and a message. -/
structure Status where
  code : Code
  message : String
  deriving DecidableEq, Repr

namespace Status

/-- The status of a number and a message. -/
def ofNumber (n : Int) (message : String) : Status := ⟨.ofNumber n, message⟩

/-- The headers of the response that carries the status. -/
def headers (s : Status) : List (String × String) :=
  [("content-type", "application/grpc")] ++
    (if s.message = "" then [] else [("grpc-message", Text.percentEncode s.message)]) ++
    [("grpc-status", toString s.code.val)]

end Status

end CallFeed

/-
  CallFeed — the causes for which a request is refused.

  * `Fault` are the causes; `Fault.kind` names a cause, `Fault.message` tells it to
    the operator, `Fault.clientMessage` to the caller, who learns neither the
    consumer's name nor any internal detail;
  * `Fault.status` is the status that a caller receives;
  * `Failure` is what an operation ends with when it has no answer: a fault, or a
    breakdown, that is a demand on the machine that no machine meets.
-/
import CallFeed.Http.Status

namespace CallFeed

/-- A cause for which a request is refused. -/
inductive Fault where
  /-- The caller does not say who it is, or not clearly. -/
  | unauthenticated (reason : String)
  /-- The access list does not grant the method to the consumer. -/
  | permissionDenied (consumer method : String)
  /-- A window of a stat subscription is too short. -/
  | invalidWindow (seconds : Nat)
  | shuttingDown
  | accessList (detail : String)
  | configuration (detail : String)
  deriving DecidableEq, Repr

namespace Fault

/-- The name of a cause, as metrics report it. -/
def kind : Fault → String
  | unauthenticated _ => "unauthenticated"
  | permissionDenied _ _ => "permission_denied"
  | invalidWindow _ => "invalid_window"
  | shuttingDown => "shutting_down"
  | accessList _ => "acl_parse"
  | configuration _ => "config"

def message : Fault → String
  | unauthenticated reason => "Unauthenticated: " ++ reason
  | permissionDenied consumer method =>
    "Permission denied: consumer " ++ consumer ++ " may not call " ++ method
  | invalidWindow seconds => "Invalid stat window: " ++ toString seconds ++ "s (minimum 1s)"
  | shuttingDown => "Telemetry hubs are shutting down"
  | accessList detail => "ACL parse error: " ++ detail
  | configuration detail => "Configuration error: " ++ detail

def clientMessage : Fault → String
  | unauthenticated _ => "Missing or invalid consumer metadata"
  | permissionDenied _ method => "Permission denied for " ++ method
  | invalidWindow _ => "Stat interval must be at least 1 second"
  | shuttingDown => "Server is shutting down"
  | accessList _ | configuration _ => "An internal error occurred"

/-- The code of the status that a cause is answered with. -/
def code : Fault → Code
  | unauthenticated _ => .unauthenticated
  | permissionDenied _ _ => .permissionDenied
  | invalidWindow _ => .invalidArgument
  | shuttingDown => .unavailable
  | accessList _ | configuration _ => .internal

def status (f : Fault) : Status := ⟨f.code, f.clientMessage⟩

end Fault

/-- How an operation ends that has no answer. -/
inductive Failure where
  | fault (f : Fault)
  /-- It breaks down, since it asks for more than any machine has. -/
  | breakdown
  deriving DecidableEq, Repr

end CallFeed

/-
  CallFeed — the configuration, and how it is loaded from variables.

  * `Config.load` reads the six variables in the order access list, inbound
    capacity, subscriber capacity, delivery limit, exempt methods, and reports the
    first fault;
  * `Config.text` is the line that shows a configuration without its access list.
-/
import CallFeed.Access.List
import CallFeed.Rules
import CallFeed.Settings
import CallFeed.Text.Numeral
import CallFeed.Text.Quoted

namespace CallFeed

/-- What each variable is set to. -/
abbrev Variables := String → Option String

/-- Why the variables give no configuration. -/
inductive ConfigFault where
  /-- A variable that must be set is not. -/
  | missing (name : String)
  /-- A variable is set to a text that is no value for it. -/
  | invalid (detail : String)
  deriving DecidableEq, Repr

namespace ConfigFault

def message : ConfigFault → String
  | missing name => "Missing required environment variable: " ++ name
  | invalid detail => "Invalid configuration value: " ++ detail

def fault (f : ConfigFault) : Fault := .configuration f.message

/-- The fault of a variable with a text that is no value for it. -/
def ofText (name text : String) : ConfigFault := .invalid (name ++ ": " ++ text)

end ConfigFault

/-- A configuration of the service. -/
structure Config where
  access : AccessList
  inbound : Nat
  subscriber : Nat
  limit : Option Nat
  logExempt : List String
  statExempt : List String

namespace Config

def accessVariable : String := "TELEMETRY_ACL"

def inboundVariable : String := "TELEMETRY_INBOUND_QUEUE_CAPACITY"

def subscriberVariable : String := "TELEMETRY_SUBSCRIBER_QUEUE_CAPACITY"

def limitVariable : String := "TELEMETRY_DELIVERY_TIMEOUT_MS"

def logExemptVariable : String := "TELEMETRY_LOG_EXEMPT_METHODS"

def statExemptVariable : String := "TELEMETRY_STAT_EXEMPT_METHODS"

/-- The delivery limit in milliseconds when none is named. -/
def standardLimit : Nat := 5000

/-- The methods exempt from the log feed when none are named. -/
def standardLogExempt : String := "/main.Admin/Logging"

/-- The access list of a variable, which must be set. -/
def loadAccess (vars : Variables) : Except ConfigFault AccessList :=
  match vars accessVariable with
  | none => .error (.missing accessVariable)
  | some text =>
    match AccessList.read text with
    | .ok a => .ok a
    | .error f => .error (.ofText accessVariable f.message)

/-- The count of a variable: `least` or more, or `standard` if it is not set. -/
def loadCount (vars : Variables) (name : String) (least standard : Nat) :
    Except ConfigFault Nat :=
  match vars name with
  | none => .ok standard
  | some text =>
    match Text.readCount text with
    | some n => if least ≤ n then .ok n else .error (.ofText name text)
    | none => .error (.ofText name text)

/-- The configuration of the variables. A delivery limit of zero means none. -/
def load (vars : Variables) : Except ConfigFault Config := do
  let access ← loadAccess vars
  let inbound ← loadCount vars inboundVariable 1 Settings.standard.inbound
  let subscriber ← loadCount vars subscriberVariable 1 Settings.standard.subscriber
  let limit ← loadCount vars limitVariable 0 standardLimit
  pure
    { access, inbound, subscriber
      limit := if limit = 0 then none else some limit
      logExempt := Text.items ((vars logExemptVariable).getD standardLogExempt)
      statExempt := Text.items ((vars statExemptVariable).getD "") }

def settings (c : Config) : Settings :=
  (Settings.mk c.inbound c.subscriber c.limit).clamp

def rules (c : Config) : DispatchRules := ⟨c.logExempt, c.statExempt⟩

/-- The configuration in one line; of the access list it shows the size alone. -/
def text (c : Config) : String :=
  "Config \x7b acl_consumers: " ++ toString c.access.consumers ++
    ", inbound_queue_capacity: " ++ toString c.inbound ++
    ", subscriber_queue_capacity: " ++ toString c.subscriber ++
    ", delivery_timeout: " ++ Text.limitText c.limit ++
    ", log_exempt_methods: " ++ Text.quoteList c.logExempt ++
    ", stat_exempt_methods: " ++ Text.quoteList c.statExempt ++ " \x7d"

end Config

end CallFeed

/-
  CallFeed — notices: what happens in a service, apart from its hubs.

  The notices of a service and the journals of its hubs hold everything that log
  lines and metrics tell.
-/
import CallFeed.Fault
import CallFeed.Settings

namespace CallFeed

/-- What happens in the service, apart from its hubs. -/
inductive Notice where
  | loaded (config : String)
  /-- The service starts with the settings that were asked for. -/
  | started (consumers : Nat) (settings : Settings)
  | shuttingDown
  | alreadyShuttingDown
  /-- Somebody finds both hubs stopped. -/
  | hubsStopped
  | authorized (consumer : String)
  | rejected (cause : Fault)
  /-- A call is reported on no feed. -/
  | exempt (method : String)
  /-- A subscriber finds the log feed closed. -/
  | logEnded
  /-- A subscriber finds the stat feed closed. -/
  | statEnded (seconds : Nat)
  /-- A window ends with this many events in it. -/
  | windowEnded (seconds calls : Nat)
  deriving DecidableEq, Repr

end CallFeed

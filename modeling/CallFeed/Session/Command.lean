/-
  CallFeed — commands to a session, and what they are answered with.

  `Command` are the things that the owner and the clients of a service do. A command
  is refused (`Refusal`) if it needs a service that was let go of, or a subscription
  that was never made, was given up or is of the other feed; every other end of it is
  one of the `Reply`s.
-/
import CallFeed.Session.Reading

namespace CallFeed

/-- What is done with a session. -/
inductive Command (α : Type) where
  /-- A call is made, or several equal ones, each when the one before has settled. -/
  | call (times : Option Nat) (request : Request α)
  | authorize (headers : List Header) (method : String)
  | check (consumer method : String)
  | attachLog
  | attachStat (seconds : Nat)
  | detach (id : Nat)
  | receive (id : Nat)
  | drain (id : Nat)
  /-- A stat subscription is looked at once. -/
  | poll (id : Nat)
  /-- A snapshot of a stat subscription is waited for. -/
  | snapshot (id : Nat)
  /-- A subscription is read as a stream, and given up then. -/
  | stream (id take : Nat)
  | advance (ms : Nat)
  | shutDown
  | isShutDown
  /-- Whether both hubs have stopped is asked. -/
  | awaitClosed
  /-- The service is to be shut down when the signal is given. -/
  | watch
  | signal
  /-- Which watchers have done their duty is asked. -/
  | watchers
  /-- The authorization of calls is taken from the service anew. -/
  | reauthorize
  /-- The owner lets go of the service. -/
  | release

/-- Why a command is refused. -/
inductive Refusal where
  | noService
  | noSuchId
  | gone
  | notLog
  | notStat
  deriving DecidableEq, Repr

/-- What a command is answered with. -/
inductive Reply (α : Type) where
  | refused (r : Refusal)
  | failed (f : Failure)
  | ok
  /-- The number of a call, and its answer unless it waits. -/
  | called (number : Nat) (answer : Option (Answer α))
  /-- How many calls were made, and the numbers of those that had to wait. -/
  | calledTimes (times : Nat) (waiting : List Nat)
  | event (e : Event)
  /-- The number of a subscription, and the window of a stat subscription. -/
  | attached (id : Nat) (seconds : Option Nat)
  | received (r : Received)
  | drained (events : List Event) (stop : StreamEnd)
  | polled (p : Poll)
  | snapshots (xs : List Snapshot) (stop : StreamEnd)
  | flag (b : Bool)
  | count (n : Nat)
  | flags (bs : List Bool)

end CallFeed

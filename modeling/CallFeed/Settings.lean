/-
  CallFeed — the settings of a hub.

  `Settings` size the queues of a hub and set the patience of its deliveries;
  `Settings.clamp` leaves no capacity at zero, and `largestQueue` is the largest
  capacity that a queue can have.
-/

namespace CallFeed

/-- The sizes of a hub's queues and the patience of its deliveries. -/
structure Settings where
  /-- How many events may wait for the dispatcher. -/
  inbound : Nat
  /-- How many events may wait for each subscriber. -/
  subscriber : Nat
  /-- How many milliseconds a delivery waits for space; without a limit, for ever. -/
  limit : Option Nat
  deriving DecidableEq, Repr

namespace Settings

/-- The same settings with capacities of at least one. -/
def clamp (s : Settings) : Settings :=
  { s with inbound := max s.inbound 1, subscriber := max s.subscriber 1 }

/-- The settings of a hub when none are given. -/
def standard : Settings := ⟨1024, 256, some 5000⟩

end Settings

/-- The largest capacity of a queue, a number of 61 bits. -/
def largestQueue : Nat := 2305843009213693951

end CallFeed

/-
  CallFeed — hubs: one queue in, one queue per subscriber out.

  A hub takes events from its inbound queue one at a time and broadcasts each to
  the subscribers that are in its set at that moment, in the order in which they
  attached. Subscribers are known by their `Place`, which is how many attached
  before; emits are known by their `Ticket`.

  * `Hub` is the state; its `journal` holds everything that happened in it, oldest
    first, and is what metrics and log lines are read from;
  * `Stage` is how far the hub has come: it accepts events, or it only works off
    those it has accepted, or it has stopped;
  * `Broadcast` is a broadcast under way: the subscribers that are still ahead, the
    one being served first, and since when that one has been waited for;
  * `feedsPlace` tells whether anything may still be put into a subscriber's queue.
-/
import CallFeed.Event
import CallFeed.Settings

namespace CallFeed

/-- The place of a subscriber: how many subscribers attached to the hub before it. -/
abbrev Place := Nat

/-- The mark of an emit by which it is told that it has ended. -/
abbrev Ticket := Nat

/-- Why a subscriber is taken out of the set. -/
inductive Eviction where
  /-- A delivery to it found no space within the limit. -/
  | timeout
  /-- Nobody holds its queue any more. -/
  | closed
  deriving DecidableEq, Repr

def Eviction.name : Eviction → String
  | timeout => "timeout"
  | closed => "closed"

/-- What happens in a hub. -/
inductive Occurrence where
  | started
  /-- A subscriber is entered, which makes the set this large. -/
  | attached (place : Place) (members : Nat)
  | emitted (event : Event)
  /-- An event is not accepted since the inbound queue is closed. -/
  | dropped (event : Event)
  /-- An event is taken to be broadcast to these subscribers. -/
  | taken (event : Event) (targets : List Place)
  /-- A delivery begins to wait for space. -/
  | waited (place : Place) (since : Nat)
  | delivered (place : Place) (event : Event)
  /-- A delivery is given up. -/
  | failed (place : Place) (reason : Eviction) (time : Nat)
  /-- The subscribers of failed deliveries are taken out, which leaves the set this large. -/
  | evicted (failed : List (Place × Eviction)) (members : Nat)
  | received (place : Place) (event : Event)
  | detached (place : Place)
  /-- The inbound queue is closed. -/
  | closed
  /-- The dispatcher stops: it drops the last members, and has worked off this many
      events since the inbound queue was closed. -/
  | stopped (members drained : Nat)
  deriving DecidableEq, Repr

structure Queue where
  events : List Event
  /-- Whether the subscriber still holds the queue. -/
  held : Bool
  deriving DecidableEq, Repr

/-- A broadcast under way. -/
structure Broadcast where
  event : Event
  /-- The subscribers not yet served, the one being served first. -/
  ahead : List Place
  /-- Since when the first one's queue has been waited for. -/
  since : Option Nat
  failed : List (Place × Eviction)
  deriving DecidableEq, Repr

/-- How far a hub has come. -/
inductive Stage where
  | running
  /-- It accepts no more events, and has begun to broadcast this many of those that
      were still queued. -/
  | draining (drained : Nat)
  | stopped
  deriving DecidableEq, Repr

/-- The state of a hub. -/
structure Hub where
  feed : Feed
  settings : Settings
  /-- How many can still emit, the waiting emits apart. -/
  senders : Nat
  /-- Whether the hub has been told to close. -/
  closing : Bool
  stage : Stage
  inbound : List Event
  /-- The emits that wait for space in the inbound queue, the first one first. -/
  waiting : List (Ticket × Event)
  /-- The queues of all that ever attached. -/
  queues : List Queue
  /-- The set of subscribers. -/
  members : List Place
  sending : Option Broadcast
  journal : List Occurrence
  deriving DecidableEq, Repr

namespace Hub

/-- A hub that starts with the given number of senders, or none if its inbound queue
    would be larger than any queue. -/
def start? (feed : Feed) (settings : Settings) (senders : Nat) : Option Hub :=
  let settings := settings.clamp
  if settings.inbound ≤ largestQueue then
    some
      { feed, settings, senders, closing := false, stage := .running, inbound := []
        waiting := [], queues := [], members := [], sending := none, journal := [.started] }
  else none

def note (h : Hub) (o : Occurrence) : Hub :=
  { h with journal := h.journal ++ [o] }

/-- The queue at a place; where nobody attached, a queue that nobody holds. -/
def queue (h : Hub) (p : Place) : Queue :=
  h.queues[p]?.getD ⟨[], false⟩

def setQueue (h : Hub) (p : Place) (q : Queue) : Hub :=
  { h with queues := h.queues.set p q }

/-- The subscribers that the broadcast under way has still ahead. -/
def ahead (h : Hub) : List Place :=
  match h.sending with
  | some b => b.ahead
  | none => []

/-- Whether anything may still be put into the queue at a place. -/
def feedsPlace (h : Hub) (p : Place) : Bool :=
  h.members.contains p || h.ahead.contains p

def isStopped (h : Hub) : Bool :=
  h.stage = .stopped

/-- When the delivery that is waiting is given up. -/
def deadline? (h : Hub) : Option Nat := do
  let b ← h.sending
  let since ← b.since
  let limit ← h.settings.limit
  pure (since + limit)

end Hub

end CallFeed

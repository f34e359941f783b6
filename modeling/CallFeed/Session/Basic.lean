/-
  CallFeed — sessions: a service, a clock, and everything its clients hold.

  A session is driven by commands, one after the other. After each of them it
  settles: the dispatchers of both hubs work until they can only wait, and the calls
  that they let go on go on.

  * `Session.settle` lets both dispatchers work, then the calls that they let go on,
    then the dispatcher of the stat feed again. A call is told on the log feed before
    the stat feed, so that the log feed does not move again;
  * `Session.advanceTo` moves the clock, from one delivery limit to the next.
-/
import CallFeed.Session.Call

namespace CallFeed

/-- A call that was made. -/
structure Call (α : Type) where
  /-- While it waits: its event, and the feeds still to be told, the one that it waits
      for first. -/
  pending : Option (Event × List Feed)
  answer : Answer α

/-- What a client of the service holds. -/
inductive Subscription where
  | log (place : Place)
  | stat (feed : StatFeed)

/-- A service with its clients. -/
structure Session (α : Type) where
  service : Service
  now : Nat
  calls : List (Call α)
  /-- The subscriptions made so far; one that was given up is no more there. -/
  subscriptions : List (Option Subscription)
  /-- Whether the signal from outside has been given. -/
  signalled : Bool
  /-- How many have been set to shut the service down when the signal is given. -/
  watchers : Nat
  notices : List Notice

namespace Session

variable {α : Type}

def note (s : Session α) (n : Notice) : Session α :=
  { s with notices := s.notices ++ [n] }

def setHub (s : Session α) (feed : Feed) (h : Hub) : Session α :=
  { s with service := s.service.setHub feed h }

/-! ## Calls -/

/-- Changes what a call waits for. -/
def setPending (s : Session α) (t : Ticket) (pending : Option (Event × List Feed)) : Session α :=
  { s with calls := s.calls.modify t fun c => { c with pending } }

/-- Tells a call's event on the feeds, until one of them makes it wait. -/
def tell (s : Session α) (t : Ticket) (e : Event) : List Feed → Session α
  | [] => s.setPending t none
  | feed :: feeds =>
    match (s.service.hub feed).emit t e with
    | (h, .waiting) => (s.setHub feed h).setPending t (some (e, feed :: feeds))
    | (h, _) => (s.setHub feed h).tell t e feeds

/-- Goes on with a call whose wait has ended. -/
def resume (s : Session α) (t : Ticket) : Session α :=
  match (s.calls[t]?).bind Call.pending with
  | some (e, _ :: feeds) => s.tell t e feeds
  | _ => s

/-! ## Settling -/

/-- Lets the dispatcher of a feed work until it can only wait. The tickets are those of
    the calls that it lets go on. -/
def dispatch (s : Session α) (feed : Feed) : Session α × List Ticket :=
  let (h, tickets) := (s.service.hub feed).settle s.now
  (s.setHub feed h, tickets)

/-- Lets calls go on, one after the other. -/
def resumeAll (s : Session α) (tickets : List Ticket) : Session α :=
  tickets.foldl resume s

/-- Lets everything work until it can only wait. -/
def settle (s : Session α) : Session α :=
  let (s, told) := s.dispatch .log
  let (s, ended) := s.dispatch .stat
  let (s, late) := (s.resumeAll (told ++ ended)).dispatch .stat
  s.resumeAll late

/-! ## The clock -/

/-- When the next delivery is given up. -/
def deadline? (s : Session α) : Option Nat :=
  [s.service.log.deadline?, s.service.stat.deadline?].reduceOption.min?

/-- Moves the clock to `time`, by way of up to `n` delivery limits. -/
def advanceBy (time : Nat) : Nat → Session α → Session α
  | 0, s => { s with now := time }
  | n + 1, s =>
    match s.deadline? with
    | some d =>
      if d ≤ time then advanceBy time n ({ s with now := max s.now d }.settle)
      else { s with now := time }
    | none => { s with now := time }

/-- Moves the clock to `time`. A wait that begins now ends later than now, so that there
    is no more than one delivery limit for each millisecond. -/
def advanceTo (s : Session α) (time : Nat) : Session α :=
  (s.advanceBy time (time + 1 - s.now)).settle

end Session

end CallFeed

/-
  CallFeed — reading subscriptions.

  * `Session.drainLog` takes events from a log subscription, letting the dispatchers
    work after each, until there are none or enough;
  * `Session.pollStat` looks at a stat subscription once, and `Session.awaitSnapshot`
    keeps looking until there is a snapshot or the feed is closed: it looks again
    when events have come, and otherwise moves the clock to the next limit of a
    delivery or to the end of the window, whichever is first.
-/
import CallFeed.Session.Basic

namespace CallFeed

/-- Why reading a stream of a subscription has ended. -/
inductive StreamEnd where
  | taken
  /-- There is nothing yet. -/
  | empty
  /-- There is nothing, and nothing will come. -/
  | closed
  deriving DecidableEq, Repr

namespace Hub

/-- Whether a subscriber finds anything when it looks: events, or the end. -/
def hasNews (h : Hub) (p : Place) : Bool :=
  !(h.queue p).events.isEmpty || !h.feedsPlace p

/-- The number of events on their way to a subscriber's queue or in it, at most. -/
def upcoming (h : Hub) (p : Place) : Nat :=
  (h.queue p).events.length + h.inbound.length + h.waiting.length + 1

end Hub

namespace Session

variable {α : Type}

/-! ## The log feed -/

def receiveLog (s : Session α) (p : Place) : Session α × Received :=
  let (h, r) := s.service.log.receive p
  (s.setHub .log h, r)

/-- Takes up to `n` events of a log subscription. -/
def drainLog (p : Place) : Nat → Session α → Session α × List Event × StreamEnd
  | 0, s => (s, [], .taken)
  | n + 1, s =>
    match s.receiveLog p with
    | (s, .event e) =>
      let (s, es, stop) := drainLog p n s.settle
      (s, e :: es, stop)
    | (s, .empty) => (s, [], .empty)
    | (s, .closed) => (s, [], .closed)

def drainAllLog (s : Session α) (p : Place) : Session α × List Event × StreamEnd :=
  s.drainLog p (s.service.log.upcoming p + 1)

/-! ## The stat feed -/

/-- The notices of a look at a stat subscription. -/
def pollNotices (seconds : Nat) : Poll → List Notice
  | .snapshot x => [.windowEnded seconds x.total]
  | .pending => []
  | .closed => [.statEnded seconds]

/-- Looks at the `i`-th subscription, which is the stat subscription `f`. -/
def pollStat (s : Session α) (i : Nat) (f : StatFeed) : Session α × StatFeed × Poll :=
  let (f', h, r) := f.poll s.now s.service.stat
  ({ (s.setHub .stat h) with
      subscriptions := s.subscriptions.set i (some (.stat f'))
      notices := s.notices ++ pollNotices f.seconds r }, f', r)

/-- The time to which the clock moves while a stat subscription is waited for. -/
def nextTime (s : Session α) (f : StatFeed) : Nat :=
  match s.deadline? with
  | some d => max s.now (min d f.ticker.due)
  | none => f.ticker.due

/-- Looks at a stat subscription up to `n` times, until there is a snapshot. -/
def awaitSnapshotBy (i : Nat) : Nat → Session α → StatFeed →
    Session α × StatFeed × Option Snapshot
  | 0, s, f => (s, f, none)
  | n + 1, s, f =>
    match s.pollStat i f with
    | (s, f, .snapshot x) => (s, f, some x)
    | (s, f, .closed) => (s, f, none)
    | (s, f, .pending) =>
      let s := s.settle
      if s.service.stat.hasNews f.place then awaitSnapshotBy i n s f
      else awaitSnapshotBy i n { s with now := s.nextTime f } f

/-- Waits for the next snapshot of a stat subscription. Every look but the last counts
    an event or is followed by a movement of the clock. -/
def awaitSnapshot (s : Session α) (i : Nat) (f : StatFeed) :
    Session α × StatFeed × Option Snapshot :=
  s.awaitSnapshotBy i
    (f.ticker.due - s.now + s.service.stat.upcoming f.place + s.service.log.waiting.length + 3) f

/-- Waits for up to `n` snapshots of a stat subscription, letting the dispatchers work after
    each. -/
def streamStat (i : Nat) : Nat → Session α → StatFeed → Session α × List Snapshot × StreamEnd
  | 0, s, _ => (s, [], .taken)
  | n + 1, s, f =>
    match s.awaitSnapshot i f with
    | (s, f, some x) =>
      let (s, xs, stop) := streamStat i n s.settle f
      (s, x :: xs, stop)
    | (s, _, none) => (s, [], .closed)

end Session

end CallFeed

/-
  CallFeed — counting events in windows of time.

  * `Snapshot` are the counts of a window, by method and by consumer, without the time
    at which it ended; `record` counts one event;
  * `Ticker` says when windows end: one period after another, but a tick that is
    taken late by more than `Ticker.grace` starts the next period anew. No period is
    longer than `longestPeriod`, the first window apart;
  * `StatFeed.poll` is one look at a stat subscription: if the window is over it
    yields the counts, those of the events still queued included, and begins anew;
    if not it counts what is queued, and finds the feed closed or not.
-/
import CallFeed.Hub.Clients
import CallFeed.Table

namespace CallFeed

/-! ## Counts -/

/-- How many events of each method and of each consumer were counted. The time of day at
    which the window ended, which a snapshot bears as well, is left out: nothing depends
    on it. -/
structure Snapshot where
  byMethod : Table Nat
  byConsumer : Table Nat

namespace Snapshot

def empty : Snapshot := ⟨.empty, .empty⟩

/-- One more than a count that may be missing. -/
def succ (n : Option Nat) : Nat := n.getD 0 + 1

def record (s : Snapshot) (e : Event) : Snapshot :=
  ⟨s.byMethod.alter e.method succ, s.byConsumer.alter e.consumer succ⟩

/-- Counts events one after the other. -/
def recordAll (s : Snapshot) (es : List Event) : Snapshot := es.foldl record s

def total (s : Snapshot) : Nat := Table.sumRows s.byConsumer.rows

def isEmpty (s : Snapshot) : Bool := s.byMethod.rows.isEmpty && s.byConsumer.rows.isEmpty

end Snapshot

/-! ## The length of a window -/

/-- The shortest window, in seconds. -/
def shortestWindow : Nat := 1

/-- The length from which on the end of a window lies beyond every clock, in seconds: the
    least number of 64 bits. The bound is an assumption, which does not look at the time: to
    a clock of 63 bits that stands at `t` seconds, windows that are up to `t` seconds shorter
    are too long as well. -/
def endlessWindow : Nat := 9223372036854775808

def windowOf (seconds : Nat) : Except Fault Nat :=
  if seconds < shortestWindow then .error (.invalidWindow seconds) else .ok seconds

/-! ## The end of a window -/

/-- The longest time between two ticks in milliseconds: thirty years of 365 days. -/
def longestPeriod : Nat := 946080000000

/-- When windows end. -/
structure Ticker where
  /-- The time from one tick to the next in milliseconds. -/
  period : Nat
  due : Nat
  deriving DecidableEq, Repr

namespace Ticker

/-- How late a tick may be taken without moving those after it. -/
def grace : Nat := 5

/-- The ticker of windows of the given length, the first one beginning now. Only the
    first one may be longer than `longestPeriod`. -/
def start (now seconds : Nat) : Ticker :=
  ⟨min (seconds * 1000) longestPeriod, now + seconds * 1000⟩

/-- The ticker after the tick that is due was taken. -/
def tick (t : Ticker) (now : Nat) : Ticker :=
  { t with due := if now ≤ t.due + grace then t.due + t.period else now + t.period }

end Ticker

/-! ## Stat subscriptions -/

/-- What one look at a stat subscription yields. -/
inductive Poll where
  | snapshot (s : Snapshot)
  | pending
  /-- The window is not over, and no events will come. -/
  | closed

/-- A subscription of the stat feed: a queue of the hub, and the window that it is
    counted in. -/
structure StatFeed where
  place : Place
  seconds : Nat
  ticker : Ticker
  counts : Snapshot

namespace StatFeed

/-- A subscription whose first window begins now. -/
def start (place : Place) (now seconds : Nat) : StatFeed :=
  ⟨place, seconds, .start now seconds, .empty⟩

/-- One look at the subscription. -/
def poll (f : StatFeed) (now : Nat) (h : Hub) : StatFeed × Hub × Poll :=
  let (h, events) := h.receiveAll f.place
  let counts := f.counts.recordAll events
  if f.ticker.due ≤ now then
    ({ f with ticker := f.ticker.tick now, counts := .empty }, h, .snapshot counts)
  else ({ f with counts }, h, if h.feedsPlace f.place then .pending else .closed)

end StatFeed

end CallFeed

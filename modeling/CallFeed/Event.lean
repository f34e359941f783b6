/-
  CallFeed — the two feeds and the events that they carry.

  A call that is let through is reported as one `Event`: who called what, and from
  which address if the transport knows it. The log feed hands the events on one by
  one, the stat feed counts them.
-/
import CallFeed.Address

namespace CallFeed

/-- The feeds that calls are reported on. -/
inductive Feed where
  /-- Every event by itself. -/
  | log
  /-- Counts of events per window of time. -/
  | stat
  deriving DecidableEq, Repr

def Feed.name : Feed → String
  | .log => "log"
  | .stat => "stat"

/-- One call that was let through. -/
structure Event where
  consumer : String
  method : String
  /-- The address of the caller, if the transport reported one. -/
  peer : Option Address := none
  deriving DecidableEq, Repr

/-- The event with the caller's address replaced by what the transport reported. -/
def Event.withPeer (e : Event) (peer : Option Address) : Event :=
  { e with peer }

end CallFeed

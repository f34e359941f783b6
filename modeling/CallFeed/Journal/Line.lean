/-
  CallFeed — log lines.

  `Occurrence.lines` are the lines of one thing that happens in a hub, and
  `Notice.line` is the line of one that happens in the service: a level, a target, a
  message, and values with their names.
-/
import CallFeed.Hub.Basic
import CallFeed.Notice
import CallFeed.Text.Numeral

namespace CallFeed

/-- The number of the subscriber at a place. -/
def Place.number (p : Place) : Nat := p + 1

def hubLine (level text : String) (feed : Feed) : String :=
  level ++ " telemetry.hub " ++ text ++ " hub=" ++ feed.name

def evictionLine (feed : Feed) (e : Place × Eviction) : String :=
  (match e.2 with
    | .timeout => hubLine "WARN" "Subscriber evicted: delivery timed out" feed
    | .closed => hubLine "DEBUG" "Subscriber detached" feed) ++
    " subscriber_id=" ++ toString (Place.number e.1)

/-- The lines of what happens in the hub of a feed. -/
def Occurrence.lines (feed : Feed) : Occurrence → List String
  | started => [hubLine "DEBUG" "Dispatch loop started" feed]
  | attached p members =>
    [hubLine "DEBUG" "Subscriber attached" feed ++ " subscriber_id=" ++
      toString (Place.number p) ++ " subscribers=" ++ toString members]
  | dropped _ => [hubLine "TRACE" "Hub closed, event dropped" feed]
  | evicted gone _ => gone.map (evictionLine feed)
  | stopped members drained =>
    [hubLine "INFO" "Dispatch loop stopped" feed ++ " subscribers_closed=" ++
      toString members ++ " events_drained=" ++ toString drained]
  | emitted _ | taken _ _ | waited _ _ | delivered _ _ | failed _ _ _ | received _ _ |
    detached _ | closed => []

/-- The line of what happens in the service. -/
def Notice.line : Notice → String
  | loaded config => "DEBUG telemetry.service Configuration loaded config=" ++ config
  | started consumers settings =>
    "INFO telemetry.service Telemetry service started consumers=" ++ toString consumers ++
      " inbound_capacity=" ++ toString settings.inbound ++
      " subscriber_capacity=" ++ toString settings.subscriber ++
      " delivery_timeout=" ++ Text.limitText settings.limit
  | shuttingDown => "INFO telemetry.service Telemetry service shutting down"
  | alreadyShuttingDown => "DEBUG telemetry.service Shutdown already in progress"
  | hubsStopped => "DEBUG telemetry.service All hubs stopped"
  | authorized consumer => "TRACE telemetry.grpc.auth Call authorized consumer=" ++ consumer
  | rejected cause => "DEBUG telemetry.grpc.auth Call rejected error=" ++ cause.message
  | exempt method =>
    "TRACE telemetry.grpc.auth Method exempt from both feeds method=" ++ method
  | logEnded => "DEBUG telemetry.subscription Log subscription closed feed=log"
  | statEnded seconds =>
    "DEBUG telemetry.subscription Stat subscription closed feed=stat window_secs=" ++
      toString seconds
  | windowEnded seconds calls =>
    "TRACE telemetry.subscription Stat window closed feed=stat window_secs=" ++
      toString seconds ++ " calls=" ++ toString calls

/-- Lines in the order of their characters. -/
def sortLines (lines : List String) : List String :=
  lines.mergeSort fun a b => !decide (b < a)

end CallFeed

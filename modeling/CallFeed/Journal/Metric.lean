/-
  CallFeed — metrics, read off what has happened.

  * `Metric` are the quantities that are reported, and `Metric.name` their names;
  * `metricsOf` are those of a hub and `metricsOfNotices` those of the service, each
    with its value, and only if something has touched it: a counter is the number of
    the happenings that it counts (`lookup_counter`), and the size of a set is the one
    reported last.
-/
import CallFeed.Hub.Basic
import CallFeed.Notice

namespace CallFeed

/-- The quantities that are reported. -/
inductive Metric where
  | calls (outcome : String)
  | delivered (feed : Feed)
  | active (feed : Feed)
  | evicted (feed : Feed) (reason : Eviction)
  | windows
  deriving DecidableEq, Repr

/-- A name with its labels. -/
def labelled (name : String) (labels : List (String × String)) : String :=
  name ++ "\x7b" ++ String.intercalate "," (labels.map fun l => l.1 ++ "=" ++ l.2) ++ "\x7d"

def Metric.name : Metric → String
  | calls outcome => labelled "telemetry_calls_total" [("outcome", outcome)]
  | delivered feed => labelled "telemetry_events_delivered_total" [("hub", feed.name)]
  | active feed => labelled "telemetry_subscribers_active" [("hub", feed.name)]
  | evicted feed reason =>
    labelled "telemetry_subscribers_evicted_total" [("hub", feed.name), ("reason", reason.name)]
  | windows => labelled "telemetry_windows_emitted_total" []

/-- Whether an occurrence puts an event into a queue. -/
def Occurrence.isDelivery : Occurrence → Bool
  | delivered _ _ => true
  | _ => false

/-- The subscribers that an occurrence takes out, with the reasons. -/
def Occurrence.evictions : Occurrence → List (Place × Eviction)
  | evicted gone _ => gone
  | _ => []

/-- The size of the set that an occurrence reports. -/
def Occurrence.size? : Occurrence → Option Nat
  | attached _ members => some members
  | evicted _ members => some members
  | stopped _ _ => some 0
  | _ => none

/-- The events put into the queues of subscribers. -/
def deliveredCount (journal : List Occurrence) : Nat :=
  journal.countP Occurrence.isDelivery

/-- The subscribers taken out for a reason. -/
def evictedCount (reason : Eviction) (journal : List Occurrence) : Nat :=
  (journal.flatMap Occurrence.evictions).countP (·.2 = reason)

/-- The size of the set that was reported last. -/
def reportedSize? (journal : List Occurrence) : Option Nat :=
  (journal.filterMap Occurrence.size?).getLast?

def counter (m : Metric) (n : Nat) : List (Metric × Nat) :=
  if n = 0 then [] else [(m, n)]

theorem lookup_reported (m m' : Metric) (n : Option Nat) :
    (n.toList.map fun n => (m, n)).lookup m' = if m' = m then n else none := by
  cases n with
  | none => simp
  | some n =>
    rw [Option.toList_some, List.map_singleton, List.lookup_cons]
    by_cases hm : m' = m
    · simp [hm]
    · simp [hm, beq_eq_false_iff_ne.2 hm]

theorem lookup_counter (m m' : Metric) (n : Nat) :
    (counter m n).lookup m' = if m' = m ∧ n ≠ 0 then some n else none := by
  unfold counter
  by_cases hn : n = 0
  · simp [hn]
  · simpa [hn] using lookup_reported m m' (some n)

def metricsOf (feed : Feed) (journal : List Occurrence) : List (Metric × Nat) :=
  counter (.delivered feed) (deliveredCount journal) ++
    (reportedSize? journal).toList.map (fun n => (.active feed, n)) ++
    counter (.evicted feed .timeout) (evictedCount .timeout journal) ++
    counter (.evicted feed .closed) (evictedCount .closed journal)

/-- The outcome of a call that a notice reports. -/
def Notice.outcome? : Notice → Option String
  | authorized _ => some "allowed"
  | rejected cause => some cause.kind
  | _ => none

def callCount (outcome : String) (notices : List Notice) : Nat :=
  notices.countP (·.outcome? = some outcome)

theorem callCount_append (outcome : String) (ns ms : List Notice) :
    callCount outcome (ns ++ ms) = callCount outcome ns + callCount outcome ms :=
  List.countP_append

def Notice.isWindow : Notice → Bool
  | windowEnded _ _ => true
  | _ => false

def outcomes : List String :=
  ["allowed", (Fault.unauthenticated "").kind, (Fault.permissionDenied "" "").kind]

def metricsOfNotices (notices : List Notice) : List (Metric × Nat) :=
  outcomes.flatMap (fun o => counter (.calls o) (callCount o notices)) ++
    counter .windows (notices.countP Notice.isWindow)

end CallFeed

/-
  CallFeed — what can be observed of a session, beside its replies.

  * `Session.subscribers?` are the sizes of the sets of subscribers;
  * `Session.ended` are the calls that ended between two states of a session, and
    `Session.newLines` the log lines written between them;
  * `Session.lines` and `Session.metrics` tell of everything that has happened.
-/
import CallFeed.Journal.Line
import CallFeed.Journal.Metric
import CallFeed.Session.Perform

namespace CallFeed

namespace Session

variable {α : Type}

/-- The sizes of the two sets of subscribers, as long as the service is there. -/
def subscribers? (s : Session α) : Option (Nat × Nat) :=
  if s.service.released then none
  else some (s.service.log.members.length, s.service.stat.members.length)

/-- The calls that waited in the state `before` and do so no more, with their answers. -/
def ended (before after : Session α) : List (Nat × Answer α) :=
  (List.range before.calls.length).filterMap fun t =>
    if before.isPending t then (after.answer? t).map (callNumber t, ·) else none

def lines (s : Session α) : List String :=
  s.service.log.journal.flatMap (Occurrence.lines .log) ++
    s.service.stat.journal.flatMap (Occurrence.lines .stat) ++ s.notices.map Notice.line

/-- What has happened since the state `before`. -/
def since (before after : Session α) : Session α :=
  let recent (h h' : Hub) : Hub := { h' with journal := h'.journal.drop h.journal.length }
  { after with
    service :=
      { after.service with
        log := recent before.service.log after.service.log
        stat := recent before.service.stat after.service.stat }
    notices := after.notices.drop before.notices.length }

/-- The log lines written since the state `before`, in the order of their characters. -/
def newLines (before after : Session α) : List String :=
  sortLines (since before after).lines

def metrics (s : Session α) : List (Metric × Nat) :=
  metricsOfNotices s.notices ++ metricsOf .log s.service.log.journal ++
    metricsOf .stat s.service.stat.journal

end Session

end CallFeed

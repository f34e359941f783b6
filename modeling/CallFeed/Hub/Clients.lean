/-
  CallFeed — what senders and subscribers do with a hub.

  * `Hub.emit` puts an event into the inbound queue; an emit waits while the queue is
    full or others wait, and its event is dropped once the queue is closed;
  * `Hub.attach` enters a subscriber, `Hub.detach` gives up its queue;
  * `Hub.receive` takes the first event of a subscriber's queue, and tells an empty
    queue from one that is closed, `Hub.receiveAll` takes all events queued;
  * `Hub.requestClose` tells the hub to close, `Hub.dropSender` that one less can
    emit.
-/
import CallFeed.Fault
import CallFeed.Hub.Basic

namespace CallFeed

/-- How an emit begins. -/
inductive EmitStart where
  /-- Its event is in the inbound queue. -/
  | accepted
  /-- Its event waits for space. -/
  | waiting
  /-- Its event is lost, the inbound queue being closed. -/
  | dropped
  deriving DecidableEq, Repr

/-- What a subscriber finds in its queue. -/
inductive Received where
  | event (e : Event)
  /-- Nothing yet. -/
  | empty
  /-- Nothing, and nothing will come. -/
  | closed
  deriving DecidableEq, Repr

namespace Hub

/-! ## Senders -/

/-- Begins the emit of an event. -/
def emit (h : Hub) (t : Ticket) (e : Event) : Hub × EmitStart :=
  let h := h.note (.emitted e)
  if h.stage = .running then
    if h.waiting = [] ∧ h.inbound.length < h.settings.inbound then
      ({ h with inbound := h.inbound ++ [e] }, .accepted)
    else ({ h with waiting := h.waiting ++ [(t, e)] }, .waiting)
  else (h.note (.dropped e), .dropped)

/-- Tells the hub to close. -/
def requestClose (h : Hub) : Hub := { h with closing := true }

/-- Takes note that one less can emit. -/
def dropSender (h : Hub) : Hub := { h with senders := h.senders - 1 }

/-! ## Subscribers -/

/-- Enters a subscriber. A queue larger than any queue breaks the request down before
    anything is entered. -/
def attach (h : Hub) : Except Failure (Hub × Place) :=
  if largestQueue < h.settings.subscriber then .error .breakdown
  else if h.isStopped then .error (.fault .shuttingDown)
  else
    let p := h.queues.length
    .ok
      ({ h with queues := h.queues ++ [Queue.mk [] true], members := h.members ++ [p] }.note
        (.attached p (h.members.length + 1)), p)

/-- Gives up the queue of a subscriber, with all that is in it. -/
def detach (h : Hub) (p : Place) : Hub :=
  (h.setQueue p ⟨[], false⟩).note (.detached p)

/-- Takes the first event of a subscriber's queue. -/
def receive (h : Hub) (p : Place) : Hub × Received :=
  match (h.queue p).events with
  | e :: rest =>
    ((h.setQueue p { h.queue p with events := rest }).note (.received p e), .event e)
  | [] => (h, if h.feedsPlace p then .empty else .closed)

/-- Takes all events of a subscriber's queue. -/
def receiveAll (h : Hub) (p : Place) : Hub × List Event :=
  let q := h.queue p
  ({ (h.setQueue p { q with events := [] }) with
      journal := h.journal ++ q.events.map (.received p) }, q.events)

end Hub

end CallFeed

/-
  CallFeed — a hub by itself, with a sender and subscribers.

  The hub can be let go of, as can the sender; when both are gone and nobody waits,
  the hub closes by itself. Commands are done and the hub settles as in a session of
  the whole service.

  * `HubSession.perform` does a command; `HubSession.ended` are the emits that ended
    between two states.
-/
import CallFeed.Hub.Dispatch
import CallFeed.Hub.Clients
import CallFeed.Journal.Line
import CallFeed.Journal.Metric

namespace CallFeed

/-- A hub with its clients. -/
structure HubSession where
  hub : Hub
  now : Nat
  /-- Whether the hub was not let go of. -/
  hasHub : Bool
  /-- Whether the sender was not let go of. -/
  hasSender : Bool
  emits : Nat
  /-- The subscriptions made; one that was given up is no more there. -/
  subscriptions : List (Option Place)

/-- What is done with a hub. -/
inductive HubCommand where
  | attach
  | detach (id : Nat)
  | receive (id : Nat)
  | emit (e : Event)
  | close
  | advance (ms : Nat)
  | isStopped
  | dropHub
  | dropSender

/-- What a command to a hub is answered with. -/
inductive HubReply where
  | ok
  | attached (id : Nat)
  | failed (f : Failure)
  | received (r : Received)
  | emitted (number : Nat)
  | flag (b : Bool)
  | noHub
  | noSender
  | noSuchId
  | gone

namespace HubSession

/-- Lets the dispatcher work until it can only wait. -/
def settle (s : HubSession) : HubSession :=
  { s with hub := (s.hub.settle s.now).1 }

/-- A new hub with one sender, if its inbound queue can be made. -/
def open? (feed : Feed) (settings : Settings) : Option HubSession :=
  (Hub.start? feed settings 2).map fun hub =>
    settle { hub, now := 0, hasHub := true, hasSender := true, emits := 0, subscriptions := [] }

/-- Moves the clock to `time`, by way of up to `n` delivery limits. -/
def advanceBy (time : Nat) : Nat → HubSession → HubSession
  | 0, s => { s with now := time }
  | n + 1, s =>
    match s.hub.deadline? with
    | some d =>
      if d ≤ time then advanceBy time n ({ s with now := max s.now d }.settle)
      else { s with now := time }
    | none => { s with now := time }

/-- Does what needs a subscription. -/
def withPlace (s : HubSession) (id : Nat) (f : Place → HubSession × HubReply) :
    HubSession × HubReply :=
  match id with
  | 0 => (s, .noSuchId)
  | i + 1 =>
    match s.subscriptions[i]? with
    | none => (s, .noSuchId)
    | some none => (s, .gone)
    | some (some p) => f p

def act (s : HubSession) : HubCommand → HubSession × HubReply
  | .attach =>
    if s.hasHub then
      match s.hub.attach with
      | .ok (hub, p) =>
        ({ s with hub, subscriptions := s.subscriptions ++ [some p] },
          .attached (s.subscriptions.length + 1))
      | .error f => (s, .failed f)
    else (s, .noHub)
  | .detach id =>
    s.withPlace id fun p =>
      ({ s with hub := s.hub.detach p, subscriptions := s.subscriptions.set (id - 1) none }, .ok)
  | .receive id =>
    s.withPlace id fun p =>
      let (hub, r) := s.hub.receive p
      ({ s with hub }, .received r)
  | .emit e =>
    if s.hasSender then
      ({ s with hub := (s.hub.emit s.emits e).1, emits := s.emits + 1 }, .emitted (s.emits + 1))
    else (s, .noSender)
  | .close => ({ s with hub := s.hub.requestClose }, .ok)
  | .advance ms => (s.advanceBy (s.now + ms) (ms + 1), .ok)
  | .isStopped => (s, if s.hasHub then .flag s.hub.isStopped else .noHub)
  | .dropHub =>
    if s.hasHub then ({ s with hub := s.hub.dropSender, hasHub := false }, .ok) else (s, .noHub)
  | .dropSender =>
    if s.hasSender then ({ s with hub := s.hub.dropSender, hasSender := false }, .ok)
    else (s, .noSender)

/-- Does a command and lets the hub settle. -/
def perform (s : HubSession) (c : HubCommand) : HubSession × HubReply :=
  let (s, r) := s.act c
  (s.settle, r)

def isPending (s : HubSession) (t : Ticket) : Bool :=
  (s.hub.waiting.map Prod.fst).contains t

/-- The numbers of the emits that have ended since the state `before`. -/
def ended (before after : HubSession) : List Nat :=
  ((List.range after.emits).filter fun t =>
    (before.emits ≤ t || before.isPending t) && !after.isPending t).map (· + 1)

/-- The log lines written since the state `before`, in the order of their characters. -/
def newLines (before after : HubSession) : List String :=
  sortLines ((after.hub.journal.drop before.hub.journal.length).flatMap
    (Occurrence.lines after.hub.feed))

def lines (s : HubSession) : List String :=
  sortLines (s.hub.journal.flatMap (Occurrence.lines s.hub.feed))

def metrics (s : HubSession) : List (Metric × Nat) :=
  metricsOf s.hub.feed s.hub.journal

end HubSession

end CallFeed

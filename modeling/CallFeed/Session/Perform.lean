/-
  CallFeed — doing commands.

  * `Session.open?` begins a session, if the queues of its hubs can be made;
  * `Session.act` does a command, and `Session.perform` lets the session settle after
    it;
  * `Session.makeCall` makes a call: it is decided on at once, and told on the feeds
    until one of them makes it wait.
-/
import CallFeed.Session.Command

namespace CallFeed

namespace Session

variable {α : Type}

/-- A session that begins with a service. -/
def start (service : Service) (notices : List Notice) : Session α :=
  settle
    { service, now := 0, calls := [], subscriptions := [], signalled := false, watchers := 0
      notices }

/-- A session of a service with the given access list, settings and rules, if its hubs
    can be made. -/
def open? (access : AccessList) (settings : Settings) (rules : DispatchRules) :
    Option (Session α) :=
  (Service.start? access settings rules).map fun service =>
    start service [.started access.consumers settings]

/-- A session of a configured service, if its hubs can be made. -/
def ofConfig? (c : Config) : Option (Session α) :=
  open? c.access c.settings c.rules

/-! ## Calls -/

def makeCall (s : Session α) (r : Request α) : Session α :=
  let course := s.service.consider r
  let t := s.calls.length
  let s :=
    { s with
      calls := s.calls ++ [Call.mk none course.answer]
      notices := s.notices ++ course.notices }
  match course.event with
  | some e => (s.tell t e (s.service.rules.feedsOf e.method)).settle
  | none => s

def isPending (s : Session α) (t : Ticket) : Bool :=
  ((s.calls[t]?).bind Call.pending).isSome

/-- The answer of a call that does not wait. -/
def answer? (s : Session α) (t : Ticket) : Option (Answer α) :=
  if s.isPending t then none else (s.calls[t]?).map Call.answer

/-- The number by which clients know a call. -/
def callNumber (t : Ticket) : Nat := t + 1

/-- Makes `n` equal calls, and tells which of them had to wait. -/
def makeCalls (r : Request α) : Nat → Session α → Session α × List Nat
  | 0, s => (s, [])
  | n + 1, s =>
    let t := s.calls.length
    let s := s.makeCall r
    let (s', waiting) := makeCalls r n s
    (s', if s.isPending t then callNumber t :: waiting else waiting)

/-! ## Subscriptions -/

/-- The subscription of a number. -/
def find (s : Session α) : Nat → Except Refusal Subscription
  | 0 => .error .noSuchId
  | i + 1 =>
    match s.subscriptions[i]? with
    | none => .error .noSuchId
    | some none => .error .gone
    | some (some x) => .ok x

def findLog (s : Session α) (id : Nat) : Except Refusal Place :=
  match s.find id with
  | .ok (.log p) => .ok p
  | .ok (.stat _) => .error .notLog
  | .error r => .error r

def findStat (s : Session α) (id : Nat) : Except Refusal StatFeed :=
  match s.find id with
  | .ok (.stat f) => .ok f
  | .ok (.log _) => .error .notStat
  | .error r => .error r

/-- Keeps a new subscription, and gives it the next number. -/
def keep (s : Session α) (x : Subscription) : Session α × Nat :=
  ({ s with subscriptions := s.subscriptions ++ [some x] }, s.subscriptions.length + 1)

def giveUp (s : Session α) (id : Nat) (x : Subscription) : Session α :=
  let s := { s with subscriptions := s.subscriptions.set (id - 1) none }
  match x with
  | .log p => s.setHub .log (s.service.log.detach p)
  | .stat f => s.setHub .stat (s.service.stat.detach f.place)

/-! ## The service -/

/-- Shuts the service down, and tells whether it was not shut down before. -/
def shutDown (s : Session α) : Session α × Bool :=
  let (service, first) := s.service.shutDown
  ({ s with service }.note (if first then .shuttingDown else .alreadyShuttingDown), first)

/-- Whether a watcher has nothing more to do. -/
def watcherDone (s : Session α) : Bool :=
  s.signalled || s.service.isShutDown || s.service.released

/-- What `n` watchers do when the signal has been given. -/
def fireWatchers : Nat → Session α → Session α
  | 0, s => s
  | n + 1, s => if s.service.released then s else fireWatchers n s.shutDown.1

/-! ## Acting -/

/-- Does what needs a service that was not let go of. -/
def withService (s : Session α) (f : Session α → Session α × Reply α) : Session α × Reply α :=
  if s.service.released then (s, .refused .noService) else f s

/-- Does what needs a subscription. -/
def withFound {β : Type} (s : Session α) (found : Except Refusal β)
    (f : β → Session α × Reply α) : Session α × Reply α :=
  match found with
  | .ok x => f x
  | .error r => (s, .refused r)

def act (s : Session α) : Command α → Session α × Reply α
  | .call none r =>
    let t := s.calls.length
    let s := s.makeCall r
    (s, .called (callNumber t) (s.answer? t))
  | .call (some n) r =>
    let (s, waiting) := s.makeCalls r n
    (s, .calledTimes n waiting)
  | .authorize headers method =>
    (s, match s.service.authorize headers method with
      | .ok e => .event e
      | .error f => .failed (.fault f))
  | .check consumer method =>
    s.withService fun s =>
      (s, match s.service.access.check consumer method with
        | .ok _ => .ok
        | .error f => .failed (.fault f))
  | .attachLog =>
    s.withService fun s =>
      match s.service.attachLog with
      | (service, .ok p) =>
        let (s, id) := { s with service }.keep (.log p)
        (s, .attached id none)
      | (service, .error f) => ({ s with service }, .failed f)
  | .attachStat seconds =>
    s.withService fun s =>
      match s.service.attachStat s.now seconds with
      | (service, .ok f) =>
        let (s, id) := { s with service }.keep (.stat f)
        (s, .attached id (some seconds))
      | (service, .error f) => ({ s with service }, .failed f)
  | .detach id => s.withFound (s.find id) fun x => (s.giveUp id x, .ok)
  | .receive id =>
    s.withFound (s.findLog id) fun p =>
      match s.receiveLog p with
      | (s, .closed) => (s.note .logEnded, .received .closed)
      | (s, r) => (s, .received r)
  | .drain id =>
    s.withFound (s.findLog id) fun p =>
      match s.drainAllLog p with
      | (s, es, .closed) => (s.note .logEnded, .drained es .closed)
      | (s, es, stop) => (s, .drained es stop)
  | .poll id =>
    s.withFound (s.findStat id) fun f =>
      let (s, _, p) := s.pollStat (id - 1) f
      (s, .polled p)
  | .snapshot id =>
    s.withFound (s.findStat id) fun f =>
      match s.awaitSnapshot (id - 1) f with
      | (s, _, some x) => (s, .polled (.snapshot x))
      | (s, _, none) => (s, .polled .closed)
  | .stream id n =>
    s.withFound (s.find id) fun x =>
      match x with
      | .log p =>
        let (s, es, stop) := s.drainLog p n
        (s.giveUp id x, .drained es stop)
      | .stat f =>
        let (s, xs, stop) := s.streamStat (id - 1) n f
        (s.giveUp id x, .snapshots xs stop)
  | .advance ms => (s.advanceTo (s.now + ms), .ok)
  | .shutDown =>
    s.withService fun s =>
      let (s, first) := s.shutDown
      (s, .flag first)
  | .isShutDown => s.withService fun s => (s, .flag s.service.isShutDown)
  | .awaitClosed =>
    s.withService fun s =>
      if s.service.isClosed then (s.note .hubsStopped, .flag true) else (s, .flag false)
  | .watch =>
    s.withService fun s =>
      let s := { s with watchers := s.watchers + 1 }
      (if s.signalled then s.fireWatchers 1 else s, .count s.watchers)
  | .signal =>
    let s' := { s with signalled := true }
    (if s.watcherDone then s' else s'.fireWatchers s.watchers, .ok)
  | .watchers => (s, .flags (List.replicate s.watchers s.watcherDone))
  | .reauthorize => s.withService fun s => (s, .ok)
  | .release => s.withService fun s => ({ s with service := s.service.release }, .ok)

/-- Does a command and lets the session settle. -/
def perform (s : Session α) (c : Command α) : Session α × Reply α :=
  let (s, r) := s.act c
  (s.settle, r)

end Session

end CallFeed

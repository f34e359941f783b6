/-
  CallFeed — the service: an access list, rules, and the hubs of the two feeds.

  * `Service.start?` starts both hubs; `Service.authorize` is the decision on a call;
  * `Service.attachLog` and `Service.attachStat` enter subscribers. A window that
    never ends breaks the request down when the subscriber is already entered; the
    queue that nobody then holds is noticed by the next broadcast;
  * `Service.shutDown` closes the feeds, and tells whether it was the first to do
    so; `Service.release` is the owner's letting go, which closes them too.
-/
import CallFeed.Config
import CallFeed.Http.Header
import CallFeed.Hub.Dispatch
import CallFeed.Notice
import CallFeed.Window

namespace CallFeed

/-- The notices of a service that starts with a configuration it has loaded. -/
def Config.openingNotices (c : Config) : List Notice :=
  [.loaded c.text, .started c.access.consumers c.settings]

structure Service where
  access : AccessList
  rules : DispatchRules
  log : Hub
  stat : Hub
  isShutDown : Bool
  /-- Whether its owner has let go of it. -/
  released : Bool

namespace Service

/-- The service with the given settings, or none if a queue of its hubs would be
    larger than any queue. Each hub has two senders: the service and the
    authorization of calls. -/
def start? (access : AccessList) (settings : Settings) (rules : DispatchRules) :
    Option Service := do
  let log ← Hub.start? .log settings 2
  let stat ← Hub.start? .stat settings 2
  pure { access, rules, log, stat, isShutDown := false, released := false }

def hub (s : Service) : Feed → Hub
  | .log => s.log
  | .stat => s.stat

def setHub (s : Service) (feed : Feed) (h : Hub) : Service :=
  match feed with
  | .log => { s with log := h }
  | .stat => { s with stat := h }

/-! ## Calls -/

/-- The event of a call that is let through. -/
def authorize (s : Service) (headers : List Header) (method : String) : Except Fault Event :=
  match identify headers with
  | .error f => .error f.fault
  | .ok consumer =>
    match s.access.check consumer method with
    | .ok _ => .ok { consumer, method }
    | .error f => .error f

/-! ## Subscribers -/

/-- Enters a subscriber of the log feed. -/
def attachLog (s : Service) : Service × Except Failure Place :=
  if s.isShutDown then (s, .error (.fault .shuttingDown))
  else
    match s.log.attach with
    | .ok (h, p) => ({ s with log := h }, .ok p)
    | .error f => (s, .error f)

/-- Enters a subscriber of the stat feed with the given window. -/
def attachStat (s : Service) (now seconds : Nat) : Service × Except Failure StatFeed :=
  match windowOf seconds with
  | .error f => (s, .error (.fault f))
  | .ok seconds =>
    if s.isShutDown then (s, .error (.fault .shuttingDown))
    else
      match s.stat.attach with
      | .error f => (s, .error f)
      | .ok (h, p) =>
        if endlessWindow ≤ seconds then ({ s with stat := h.detach p }, .error .breakdown)
        else ({ s with stat := h }, .ok (.start p now seconds))

/-! ## The end -/

def closeHubs (s : Service) : Service :=
  { s with log := s.log.requestClose, stat := s.stat.requestClose }

/-- Shuts the service down, and tells whether it was not shut down before. -/
def shutDown (s : Service) : Service × Bool :=
  if s.isShutDown then (s, false) else ({ s.closeHubs with isShutDown := true }, true)

def release (s : Service) : Service :=
  let s := s.closeHubs
  { s with log := s.log.dropSender, stat := s.stat.dropSender, released := true }

/-- Whether both hubs have stopped. -/
def isClosed (s : Service) : Bool := s.log.isStopped && s.stat.isStopped

end Service

end CallFeed

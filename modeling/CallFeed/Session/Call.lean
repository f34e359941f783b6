/-
  CallFeed — calls: what is asked for, what is told on the feeds, what is answered.

  * `Request` are the ways in which a call comes in: to be admitted, to be reported
    without being asked for, with a handler behind it, or as an HTTP request with a
    service behind it, which may be any (`Inner`);
  * `Service.consider` decides on a request: the notices of the decision, the event
    to report if the call is let through, and the `Answer` that the call ends with
    when everything has been reported. A call that is refused reaches no handler and
    reports nothing.
-/
import CallFeed.Http.Target
import CallFeed.Service

namespace CallFeed

/-! ## Requests -/

structure HttpRequest where
  target : Target
  headers : List Header
  /-- The address of the caller, if the transport knows it. -/
  peer : Option Address
  body : String

/-- What has reached the inside of an HTTP service. -/
structure Seen where
  path : String
  headers : Nat
  body : String
  deriving DecidableEq, Repr

def HttpRequest.seen (r : HttpRequest) : Seen := ⟨r.target.method, r.headers.length, r.body⟩

/-- What is behind the authorization of HTTP requests: what it makes of a request that
    reaches it, be it a response, of which the headers are kept here, or a failure. -/
structure Inner where
  respond : Seen → Except String (List (String × String))

namespace Inner

def accepts : Inner := ⟨fun _ => .ok []⟩

/-- It answers with a status. -/
def ends (s : Status) : Inner := ⟨fun _ => .ok s.headers⟩

/-- It fails to answer. -/
def breaks (text : String) : Inner := ⟨fun _ => .error text⟩

end Inner

/-- A call that comes in. The values of handlers are of the type `α`. -/
inductive Request (α : Type) where
  /-- It asks to be let through. -/
  | ask (headers : List Header) (method : String) (peer : Option Address)
  /-- It is reported without a decision. -/
  | report (consumer method : String)
  /-- It asks for a handler to be run, which would end with this result. -/
  | intercept (headers : List Header) (method : String) (handler : Except Status α)
  /-- It comes over HTTP. -/
  | http (request : HttpRequest) (inner : Inner)

/-! ## Answers -/

/-- What a call ends with. -/
inductive Answer (α : Type) where
  /-- It is let through, and this was reported. -/
  | admitted (e : Event)
  | refused (s : Status)
  | reported
  | handled (result : Except Status α)
  | unhandled (s : Status)
  /-- A response over HTTP, and what the inside saw of the request. -/
  | response (headers : List (String × String)) (seen : Option Seen)
  | broken (text : String) (seen : Seen)

/-- What the inside makes of a request is passed on. -/
def Inner.answer {α : Type} (seen : Seen) (inner : Inner) : Answer α :=
  match inner.respond seen with
  | .ok headers => .response headers (some seen)
  | .error text => .broken text seen

/-! ## Decisions -/

/-- What becomes of a request. -/
structure Course (α : Type) where
  notices : List Notice
  /-- What is to be reported. -/
  event : Option Event
  /-- The answer when it has been reported. -/
  answer : Answer α

namespace Service

/-- The notice of a call that no feed is told of. -/
def exemptNotices (s : Service) (e : Event) : List Notice :=
  if s.rules.feedsOf e.method = [] then [.exempt e.method] else []

/-- What becomes of a call that needs to be let through. -/
def letIn {α : Type} (s : Service) (headers : List Header) (method : String)
    (peer : Option Address) (accepted : Event → Answer α) (refused : Status → Answer α) :
    Course α :=
  match s.authorize headers method with
  | .ok e =>
    let e := e.withPeer peer
    ⟨.authorized e.consumer :: s.exemptNotices e, some e, accepted e⟩
  | .error f => ⟨[.rejected f], none, refused f.status⟩

def consider {α : Type} (s : Service) : Request α → Course α
  | .ask headers method peer => s.letIn headers method peer .admitted .refused
  | .report consumer method =>
    let e : Event := { consumer, method }
    ⟨s.exemptNotices e, some e, .reported⟩
  | .intercept headers method handler =>
    s.letIn headers method none (fun _ => .handled handler) .unhandled
  | .http r inner =>
    s.letIn r.headers r.target.method r.peer (fun _ => inner.answer r.seen)
      (fun st => .response st.headers none)

end Service

end CallFeed

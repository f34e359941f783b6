/-
  CallFeed — what can be seen of an access list from outside.

  * `Observation` is what a command shows to those outside, and `Session.observed` what a list of
    commands shows; `Origin` are the ways in which a service comes about;
  * `Request.Seeks`: a request that needs to be let through, and the form of its refusal;
    `reply_of_refusal`: of the cause, the reply tells the kind and the method;
  * `access_unseen`: of two access lists of the same size that decide alike on what they are
    asked, nobody can tell which one is there, and a refusal tells its kind and the method.
-/
import CallFeed.Proofs.Session.Relisted
import CallFeed.Session.Observe

namespace CallFeed

/-! ## Observations -/

/-- What can be observed of a command. -/
structure Observation (α : Type) where
  reply : Reply α
  time : Nat
  subscribers : Option (Nat × Nat)
  /-- The calls that ended, with their answers. -/
  ended : List (Nat × Answer α)
  lines : List String
  metrics : List (Metric × Nat)

/-- How a service comes about: with settings and rules that are given, or from a configuration
    that is loaded, whatever its access list. -/
inductive Origin where
  | given (settings : Settings) (rules : DispatchRules)
  | loaded (c : Config)

namespace Session

variable {α : Type}

/-- What can be observed while commands are done one after the other. -/
def observed : List (Command α) → Session α → List (Observation α)
  | [], _ => []
  | c :: cs, s =>
    let (s', reply) := s.perform c
    ⟨reply, s'.now, s'.subscribers?, ended s s', newLines s s', s'.metrics⟩ :: observed cs s'

/-- What the access list is asked while commands are done one after the other. -/
def asked : List (Command α) → Session α → List (String × String)
  | [], _ => []
  | c :: cs, s => s.presents c ++ asked cs (s.perform c).1

/-- What can be observed of a session from its beginning. -/
def seen (cs : List (Command α)) (s : Session α) :
    List String × List (Metric × Nat) × Option (Nat × Nat) × List (Observation α) :=
  (s.lines, s.metrics, s.subscribers?, s.observed cs)

section
variable {s : Session α} {a : AccessList}

theorem observed_relist (cs : List (Command α))
    (hagree : s.service.access.Agree a (s.asked cs)) : (s.relist a).observed cs = s.observed cs := by
  induction cs generalizing s with
  | nil => rfl
  | cons c cs ih =>
    obtain ⟨hfirst, hrest⟩ := List.forall_mem_append.1 hagree
    have hnext : (s.perform c).1.service.access.Agree a ((s.perform c).1.asked cs) := by
      rw [access_perform]
      exact hrest
    simp only [observed, perform_relist c hfirst, ih hnext]
    rfl

theorem seen_relist (cs : List (Command α)) (hagree : s.service.access.Agree a (s.asked cs)) :
    (s.relist a).seen cs = s.seen cs := by
  simp only [seen, observed_relist cs hagree]
  rfl

end

end Session

/-! ## Beginnings -/

theorem Session.start_relist {α : Type} (service : Service) (a : AccessList) (ns : List Notice) :
    (start (service.relist a) ns : Session α) = (start service ns).relist a := by
  let s : Session α := ⟨service, 0, [], [], false, 0, ns⟩
  show (s.relist a).settle = s.settle.relist a
  exact settle_relist s a

theorem Service.start?_relist (a a' : AccessList) (settings : Settings) (rules : DispatchRules) :
    start? a' settings rules = (start? a settings rules).map (·.relist a') := by
  unfold start?
  cases Hub.start? .log settings 2 with
  | none => rfl
  | some log =>
    simp only [Option.bind_eq_bind, Option.bind_some]
    cases Hub.start? .stat settings 2 <;> rfl

/-- Of its access list, a configuration shows the size alone. -/
theorem Config.openingNotices_access (c : Config) {a a' : AccessList}
    (hsize : a'.consumers = a.consumers) :
    ({ c with access := a' } : Config).openingNotices =
      ({ c with access := a } : Config).openingNotices := by
  unfold openingNotices text settings
  dsimp only
  rw [hsize]

namespace Origin

variable {α : Type} {a a' : AccessList}

/-- The session of a service with the given access list, if its hubs can be made. -/
def open? : Origin → AccessList → Option (Session α)
  | given settings rules, a => Session.open? a settings rules
  | loaded c, a =>
    (Service.start? a c.settings c.rules).map fun service =>
      .start service ({ c with access := a } : Config).openingNotices

/-- Of the access list, the beginning shows the size alone. -/
theorem open?_relist (o : Origin) (hsize : a'.consumers = a.consumers) :
    (o.open? a' : Option (Session α)) = (o.open? a).map (·.relist a') := by
  cases o with
  | given settings rules =>
    simp only [open?, Session.open?, Service.start?_relist a a', Option.map_map, hsize]
    congr 1
    funext service
    exact Session.start_relist service a' _
  | loaded c =>
    simp only [open?, Service.start?_relist a a', Option.map_map, c.openingNotices_access hsize]
    congr 1
    funext service
    exact Session.start_relist service a' _

theorem access_open? {o : Origin} {s : Session α} (ho : o.open? a = some s) :
    s.service.access = a := by
  have hself : (o.open? a : Option (Session α)) = (o.open? a).map (·.relist a) :=
    o.open?_relist rfl
  rw [ho, Option.map_some, Option.some.injEq] at hself
  rw [hself]
  rfl

end Origin

/-! ## Refusals -/

/-- The request needs to be let through with these headers and this method. If it is refused
    with a status, its answer is `refused` of that. -/
inductive Request.Seeks {α : Type} :
    Request α → List Header → String → (refused : Status → Answer α) → Prop
  | ask {headers method peer} : Seeks (.ask headers method peer) headers method .refused
  | intercept {headers method handler} :
      Seeks (.intercept headers method handler) headers method .unhandled
  | http {r inner} : Seeks (.http r inner) r.headers r.target.method fun st =>
      .response st.headers none

/-- The status of a refusal of this kind, whoever is refused. -/
def refusalStatus (kind method : String) : Status :=
  if kind = (Fault.permissionDenied "" method).kind then (Fault.permissionDenied "" method).status
  else (Fault.unauthenticated "").status

namespace Service

variable {s : Service} {headers : List Header} {method : String} {f : Fault}

/-- A consumer without the grant is refused for that, whether the list names it or not. -/
theorem authorize_of_not_grants {consumer : String} (hc : identify headers = .ok consumer)
    (hnot : s.access.grants consumer method = false) :
    s.authorize headers method = .error (.permissionDenied consumer method) := by
  simp [authorize, hc, AccessList.check, hnot]

theorem authorize_eq_error (hf : s.authorize headers method = .error f) :
    (∃ reason, f = .unauthenticated reason) ∨ ∃ consumer, f = .permissionDenied consumer method := by
  cases hc : identify headers with
  | error reason =>
    simp only [authorize, hc, Except.error.injEq] at hf
    exact Or.inl ⟨_, hf.symm⟩
  | ok consumer =>
    cases hg : s.access.grants consumer method with
    | true => simp [authorize, hc, AccessList.check, hg] at hf
    | false =>
      rw [authorize_of_not_grants hc hg, Except.error.injEq] at hf
      exact Or.inr ⟨consumer, hf.symm⟩

/-- Of its cause, the status of a refusal tells the kind and the method. -/
theorem status_of_refusal (hf : s.authorize headers method = .error f) :
    f.status = refusalStatus f.kind method := by
  rcases authorize_eq_error hf with ⟨reason, rfl⟩ | ⟨consumer, rfl⟩ <;> rfl

end Service

namespace Session

variable {α : Type} {s : Session α}

/-- Of the cause for which it is refused, a call is told the kind and the method. -/
theorem reply_of_refusal {r : Request α} {headers : List Header} {method : String}
    {refused : Status → Answer α} {f : Fault} (hr : r.Seeks headers method refused)
    (hf : s.service.authorize headers method = .error f) :
    (s.perform (.call none r)).2 =
      .called (callNumber s.calls.length) (some (refused (refusalStatus f.kind method))) := by
  have hcourse : s.service.consider r =
      ⟨[.rejected f], none, refused (refusalStatus f.kind method)⟩ := by
    rw [← Service.status_of_refusal hf]
    cases hr <;> simp only [Service.consider, Service.letIn, hf]
  simp [perform, act, makeCall, hcourse, answer?, isPending]

/-- **An access list is seen by its decisions alone.** However a service comes about, let two
    access lists have the same size and decide alike on all that is asked while some commands are
    done. Then the service begins with one if it does with the other, and all that can be observed
    is the same: the lines and the metrics of the beginning, and the reply, the time, the sets of
    subscribers, the calls that end, the lines and the metrics of each command. A call that is
    refused is told the kind of the refusal and its own method, whatever the service, the consumer
    and the other headers; and who has no grant is refused with one kind, whether the list names
    the consumer or not. -/
theorem access_unseen (o : Origin) {a a' : AccessList} (hsize : a'.consumers = a.consumers)
    (cs : List (Command α))
    (hagree : ∀ s : Session α, o.open? a = some s → a.Agree a' (s.asked cs)) :
    (o.open? a').map (seen cs) = (o.open? a).map (seen cs) ∧
    (∀ (s : Session α) (r : Request α) headers method refused f, r.Seeks headers method refused →
      s.service.authorize headers method = .error f →
      (s.perform (.call none r)).2 =
        .called (callNumber s.calls.length) (some (refused (refusalStatus f.kind method)))) ∧
    ∀ (s : Session α) headers method consumer, identify headers = .ok consumer →
      s.service.access.grants consumer method = false →
      s.service.authorize headers method = .error (.permissionDenied consumer method) := by
  refine ⟨?_, fun s r headers method refused f => reply_of_refusal,
    fun s headers method consumer => Service.authorize_of_not_grants⟩
  rw [o.open?_relist hsize, Option.map_map]
  cases ho : (o.open? a : Option (Session α)) with
  | none => rfl
  | some s =>
    have hasked : s.service.access.Agree a' (s.asked cs) := by
      rw [Origin.access_open? ho]
      exact hagree s ho
    exact congrArg some (seen_relist cs hasked)

/-- `x` has a whole service, and `y` one method of no service. -/
def broad : AccessList := .ofRows [("x", ["/svc/*"]), ("y", ["/b"])]

/-- `x` has one method of the service, and `z` has nothing. -/
def narrow : AccessList := .ofRows [("x", ["/svc/a"]), ("z", [])]

/-- A call of one method by a consumer whose name is one character. -/
def visit (consumer : UInt8) : Request Unit :=
  .ask [⟨consumerHeader, [consumer]⟩] "/svc/a" none

/-- `x` and `y` call while both feeds are read, and then the service ends. -/
def visits : List (Command Unit) :=
  [.attachLog, .attachStat 1, .call none (visit 0x78), .call none (visit 0x79), .receive 1,
    .snapshot 2, .shutDown, .release, .check "x" "/svc/b"]

/-- A small service from a loaded configuration. -/
def smallOrigin : Origin := .loaded ⟨broad, 4, 4, some 5, [], []⟩

/-- Nobody can tell by these calls which of two lists is there. To `y`, who has no grant of the
    method in one of them and is unknown to the other, the first says the same as to `u`, whom
    neither knows. -/
theorem access_unseen_visits : ∃ s : Session Unit,
    broad.grants "x" "/svc/b" = true ∧ narrow.grants "x" "/svc/b" = false ∧
    narrow.consumers = broad.consumers ∧ smallOrigin.open? broad = some s ∧
    s.asked visits = [("x", "/svc/a"), ("y", "/svc/a")] ∧
    (smallOrigin.open? narrow).map (seen visits) = (smallOrigin.open? broad).map (seen visits) ∧
    ∀ consumer ∈ [(0x79 : UInt8), 0x75], (s.perform (.call none (visit consumer))).2 =
      .called 1 (some (.refused ⟨.permissionDenied, "Permission denied for /svc/a"⟩)) := by
  have hsize : narrow.consumers = broad.consumers := rfl
  have hasked : ∀ s : Session Unit, smallOrigin.open? broad = some s →
      s.asked visits = [("x", "/svc/a"), ("y", "/svc/a")] := by
    rintro s ⟨⟩
    rfl
  have hagree : ∀ s : Session Unit, smallOrigin.open? broad = some s →
      broad.Agree narrow (s.asked visits) := by
    intro s ho
    rw [hasked s ho]
    simp only [AccessList.Agree, List.forall_mem_cons]
    exact ⟨rfl, rfl, by simp⟩
  obtain ⟨hseen, hreply, hdenied⟩ := access_unseen smallOrigin hsize visits hagree
  refine ⟨_, rfl, rfl, hsize, rfl, hasked _ rfl, hseen, ?_⟩
  simp only [List.forall_mem_cons]
  exact ⟨hreply _ _ _ _ _ _ .ask (hdenied _ _ _ "y" rfl rfl),
    hreply _ _ _ _ _ _ .ask (hdenied _ _ _ "u" rfl rfl), by simp⟩

end Session

end CallFeed

/-
  CallFeed — one session with two access lists.

  * `Session.relist` gives the service another access list and leaves all else as it is;
  * whatever decides on no call goes the same way with either list (`settle_relist`,
    `advanceTo_relist`, `awaitSnapshot_relist`, ..);
  * `Request.presents` are the consumer and the method that a request is decided by, and
    `Session.presents` those of a command; `perform_relist`: where both lists decide alike on these,
    a command has the same reply, and leaves sessions that differ in their lists alone.
-/
import CallFeed.Session.Perform

namespace CallFeed

/-! ## What is decided on -/

/-- The consumer and the method of a call whose headers name a consumer. -/
def presented (headers : List Header) (method : String) : List (String × String) :=
  match identify headers with
  | .ok consumer => [(consumer, method)]
  | .error _ => []

/-- What the access list is asked when a request comes in. -/
def Request.presents {α : Type} : Request α → List (String × String)
  | .ask headers method _ | .intercept headers method _ => presented headers method
  | .report _ _ => []
  | .http r _ => presented r.headers r.target.method

/-- Two access lists decide alike on these consumers and methods. -/
def AccessList.Agree (a a' : AccessList) (pairs : List (String × String)) : Prop :=
  ∀ p ∈ pairs, a'.grants p.1 p.2 = a.grants p.1 p.2

theorem AccessList.check_congr {a a' : AccessList} {consumer method : String}
    (hagree : a'.grants consumer method = a.grants consumer method) :
    a'.check consumer method = a.check consumer method := by
  rw [check, check, hagree]

namespace Service

/-- The service with another access list. -/
def relist (s : Service) (a : AccessList) : Service := { s with access := a }

section
variable (s : Service) (a : AccessList)

@[simp] theorem relist_hub (feed : Feed) : (s.relist a).hub feed = s.hub feed := by
  cases feed <;> rfl

@[simp] theorem relist_setHub (feed : Feed) (h : Hub) :
    (s.relist a).setHub feed h = (s.setHub feed h).relist a := by
  cases feed <;> rfl

@[simp] theorem relist_log : (s.relist a).log = s.log := rfl

@[simp] theorem relist_stat : (s.relist a).stat = s.stat := rfl

@[simp] theorem relist_isShutDown : (s.relist a).isShutDown = s.isShutDown := rfl

@[simp] theorem relist_released : (s.relist a).released = s.released := rfl

theorem relist_attachLog :
    (s.relist a).attachLog = (s.attachLog.1.relist a, s.attachLog.2) := by
  by_cases hd : s.isShutDown = true
  · simp [attachLog, hd]
  · simp only [attachLog, relist_isShutDown, relist_log, hd]
    cases s.log.attach <;> rfl

theorem relist_attachStat (now seconds : Nat) : (s.relist a).attachStat now seconds =
    ((s.attachStat now seconds).1.relist a, (s.attachStat now seconds).2) := by
  unfold attachStat
  cases windowOf seconds with
  | error f => rfl
  | ok n =>
    by_cases hd : s.isShutDown = true
    · simp [hd]
    · cases hat : s.stat.attach with
      | error f => simp [hd, hat]
      | ok r =>
        by_cases hend : endlessWindow ≤ n <;> simp [hd, hat, hend] <;> rfl

theorem relist_shutDown : (s.relist a).shutDown = (s.shutDown.1.relist a, s.shutDown.2) := by
  by_cases hd : s.isShutDown = true
  · simp [shutDown, hd]
  · simp only [shutDown, relist_isShutDown, hd]
    rfl

end

variable {s : Service} {a : AccessList}

/-- Where the lists decide alike, so does the service. -/
theorem relist_authorize {headers : List Header} {method : String}
    (hagree : s.access.Agree a (presented headers method)) :
    (s.relist a).authorize headers method = s.authorize headers method := by
  unfold authorize
  unfold presented at hagree
  cases hc : identify headers with
  | error f => rfl
  | ok consumer =>
    rw [hc] at hagree
    have hcheck : a.check consumer method = s.access.check consumer method :=
      AccessList.check_congr (hagree _ List.mem_cons_self)
    simp only [relist, hcheck]

theorem relist_letIn {α : Type} {headers : List Header} {method : String}
    (hagree : s.access.Agree a (presented headers method)) (peer : Option Address)
    (accepted : Event → Answer α) (refused : Status → Answer α) :
    (s.relist a).letIn headers method peer accepted refused =
      s.letIn headers method peer accepted refused := by
  unfold letIn
  rw [relist_authorize hagree]
  rfl

theorem relist_consider {α : Type} {r : Request α} (hagree : s.access.Agree a r.presents) :
    (s.relist a).consider r = s.consider r := by
  cases r with
  | report consumer method => rfl
  | ask headers method peer | intercept headers method handler | http r inner =>
    unfold consider
    exact relist_letIn hagree _ _ _

end Service

namespace Session

variable {α : Type}

/-- The session with another access list. -/
def relist (s : Session α) (a : AccessList) : Session α :=
  { s with service := s.service.relist a }

section
variable (s : Session α) (a : AccessList)

@[simp] theorem relist_service : (s.relist a).service = s.service.relist a := rfl

@[simp] theorem relist_now : (s.relist a).now = s.now := rfl

@[simp] theorem relist_calls : (s.relist a).calls = s.calls := rfl

@[simp] theorem relist_setHub (feed : Feed) (h : Hub) :
    (s.relist a).setHub feed h = (s.setHub feed h).relist a := by
  cases feed <;> rfl

/-! ## What decides on no call -/

theorem tell_relist (t : Ticket) (e : Event) (feeds : List Feed) :
    (s.relist a).tell t e feeds = (s.tell t e feeds).relist a := by
  induction feeds generalizing s with
  | nil => rfl
  | cons feed feeds ih =>
    unfold tell
    simp only [relist_service, Service.relist_hub, relist_setHub, ih]
    split <;> rfl

theorem resume_relist (t : Ticket) : (s.relist a).resume t = (s.resume t).relist a := by
  unfold resume
  simp only [relist_calls, tell_relist]
  split <;> rfl

theorem resumeAll_relist (ts : List Ticket) :
    (s.relist a).resumeAll ts = (s.resumeAll ts).relist a := by
  induction ts generalizing s with
  | nil => rfl
  | cons t ts ih =>
    simp only [resumeAll, List.foldl_cons, resume_relist] at ih ⊢
    exact ih (s.resume t)

theorem dispatch_relist (feed : Feed) :
    (s.relist a).dispatch feed = ((s.dispatch feed).1.relist a, (s.dispatch feed).2) := by
  simp only [dispatch, relist_service, Service.relist_hub, relist_now, relist_setHub]

theorem settle_relist : (s.relist a).settle = s.settle.relist a := by
  simp only [settle, dispatch_relist, resumeAll_relist]

theorem deadline?_relist : (s.relist a).deadline? = s.deadline? := rfl

theorem advanceBy_relist (time n : Nat) :
    advanceBy time n (s.relist a) = (advanceBy time n s).relist a := by
  induction n generalizing s with
  | zero => rfl
  | succ n ih =>
    unfold advanceBy
    simp only [deadline?_relist, relist_now]
    split
    · rename_i d hd
      split
      · have hmoved : ({ s.relist a with now := max s.now d } : Session α) =
            ({ s with now := max s.now d } : Session α).relist a := rfl
        rw [hmoved, settle_relist, ih]
      · rfl
    · rfl

theorem advanceTo_relist (time : Nat) : (s.relist a).advanceTo time = (s.advanceTo time).relist a := by
  simp only [advanceTo, relist_now, advanceBy_relist, settle_relist]

theorem receiveLog_relist (p : Place) :
    (s.relist a).receiveLog p = ((s.receiveLog p).1.relist a, (s.receiveLog p).2) := rfl

theorem drainLog_relist (p : Place) (n : Nat) :
    (s.relist a).drainLog p n = ((s.drainLog p n).1.relist a, (s.drainLog p n).2) := by
  induction n generalizing s with
  | zero => rfl
  | succ n ih =>
    unfold drainLog
    rw [receiveLog_relist]
    cases s.receiveLog p with | mk s' r =>
    cases r with
    | event e =>
      simp only [settle_relist, ih]
    | empty => rfl
    | closed => rfl

theorem pollStat_relist (i : Nat) (f : StatFeed) :
    (s.relist a).pollStat i f = ((s.pollStat i f).1.relist a, (s.pollStat i f).2) := rfl

theorem awaitSnapshotBy_relist (i n : Nat) (f : StatFeed) :
    awaitSnapshotBy i n (s.relist a) f =
      ((awaitSnapshotBy i n s f).1.relist a, (awaitSnapshotBy i n s f).2) := by
  induction n generalizing s f with
  | zero => rfl
  | succ n ih =>
    unfold awaitSnapshotBy
    rw [pollStat_relist]
    obtain ⟨s', f', r⟩ := s.pollStat i f
    cases r with
    | snapshot x => rfl
    | closed => rfl
    | pending =>
      simp only [settle_relist, relist_service, Service.relist_stat]
      split
      · exact ih s'.settle f'
      · exact ih { s'.settle with now := s'.settle.nextTime f' } f'

theorem awaitSnapshot_relist (i : Nat) (f : StatFeed) : (s.relist a).awaitSnapshot i f =
    ((s.awaitSnapshot i f).1.relist a, (s.awaitSnapshot i f).2) :=
  awaitSnapshotBy_relist s a i _ f

theorem streamStat_relist (i n : Nat) (f : StatFeed) : streamStat i n (s.relist a) f =
    ((streamStat i n s f).1.relist a, (streamStat i n s f).2) := by
  induction n generalizing s f with
  | zero => rfl
  | succ n ih =>
    unfold streamStat
    rw [awaitSnapshot_relist]
    obtain ⟨s', f', x⟩ := s.awaitSnapshot i f
    cases x with
    | none => rfl
    | some x => simp only [settle_relist, ih]

theorem giveUp_relist (id : Nat) (x : Subscription) :
    (s.relist a).giveUp id x = (s.giveUp id x).relist a := by
  cases x <;> rfl

theorem shutDown_relist : (s.relist a).shutDown = (s.shutDown.1.relist a, s.shutDown.2) := by
  simp only [shutDown, relist_service, Service.relist_shutDown]
  rfl

theorem fireWatchers_relist (n : Nat) :
    (s.relist a).fireWatchers n = (s.fireWatchers n).relist a := by
  induction n generalizing s with
  | zero => rfl
  | succ n ih =>
    unfold fireWatchers
    simp only [relist_service, Service.relist_released, shutDown_relist, ih]
    split <;> rfl

theorem find_relist (id : Nat) : (s.relist a).find id = s.find id := by
  cases id <;> rfl

theorem findLog_relist (id : Nat) : (s.relist a).findLog id = s.findLog id := by
  rw [findLog, findLog, find_relist]

theorem findStat_relist (id : Nat) : (s.relist a).findStat id = s.findStat id := by
  rw [findStat, findStat, find_relist]

end

/-! ## Calls -/

section
variable {s : Session α} {a : AccessList}

theorem makeCall_relist {r : Request α} (hagree : s.service.access.Agree a r.presents) :
    (s.relist a).makeCall r = (s.makeCall r).relist a := by
  unfold makeCall
  simp only [relist_service, Service.relist_consider hagree]
  cases (s.service.consider r).event with
  | none => rfl
  | some e =>
    let s' : Session α :=
      { s with
        calls := s.calls ++ [Call.mk none (s.service.consider r).answer]
        notices := s.notices ++ (s.service.consider r).notices }
    show ((s'.relist a).tell s.calls.length e (s.service.rules.feedsOf e.method)).settle = _
    rw [tell_relist, settle_relist]

/-- A call leaves the access list as it is. -/
theorem access_makeCall (s : Session α) (r : Request α) :
    (s.makeCall r).service.access = s.service.access := by
  have hself : s.makeCall r = (s.makeCall r).relist s.service.access :=
    makeCall_relist (a := s.service.access) fun _ _ => rfl
  rw [hself]
  rfl

theorem makeCalls_relist {r : Request α} (n : Nat)
    (hagree : n ≠ 0 → s.service.access.Agree a r.presents) :
    makeCalls r n (s.relist a) = ((makeCalls r n s).1.relist a, (makeCalls r n s).2) := by
  induction n generalizing s with
  | zero => rfl
  | succ n ih =>
    have hfirst := hagree (Nat.succ_ne_zero n)
    have hrest : (s.makeCall r).service.access.Agree a r.presents := by
      rwa [access_makeCall]
    unfold makeCalls
    simp only [makeCall_relist hfirst, relist_calls, ih fun _ => hrest]
    rfl

/-! ## Commands -/

/-- What the access list is asked when a command is done. -/
def presents (s : Session α) : Command α → List (String × String)
  | .call none r => r.presents
  | .call (some n) r => if n = 0 then [] else r.presents
  | .authorize headers method => presented headers method
  | .check consumer method => if s.service.released then [] else [(consumer, method)]
  | _ => []

/-- What is done alike with either list, and leaves sessions that differ in it alone. -/
theorem withService_relist {f : Session α → Session α × Reply α}
    (hf : s.service.released = false → f (s.relist a) = ((f s).1.relist a, (f s).2)) :
    (s.relist a).withService f = ((s.withService f).1.relist a, (s.withService f).2) := by
  unfold withService
  by_cases hrel : s.service.released = true
  · simp [hrel]
  · simp [hrel, hf (by simpa using hrel)]

theorem withFound_relist {β : Type} (found : Except Refusal β) {f f' : β → Session α × Reply α}
    (hf : ∀ x, f' x = ((f x).1.relist a, (f x).2)) :
    (s.relist a).withFound found f' =
      ((s.withFound found f).1.relist a, (s.withFound found f).2) := by
  cases found with
  | error r => rfl
  | ok x => exact hf x

theorem act_relist (c : Command α) (hagree : s.service.access.Agree a (s.presents c)) :
    (s.relist a).act c = ((s.act c).1.relist a, (s.act c).2) := by
  -- only the first three commands ask the list; the others go the same way with any two
  cases c with
  | call times r =>
    cases times with
    | none =>
      simp only [act, makeCall_relist (r := r) hagree]
      rfl
    | some n =>
      have hn : n ≠ 0 → s.service.access.Agree a r.presents := fun h0 => by
        simpa [presents, h0] using hagree
      simp only [act, makeCalls_relist n hn]
  | authorize headers method =>
    have hauthorize : (s.service.relist a).authorize headers method =
        s.service.authorize headers method := Service.relist_authorize hagree
    simp only [act, relist_service, hauthorize]
  | check consumer method =>
    simp only [act]
    refine withService_relist fun hrel => ?_
    have hcheck : a.check consumer method = s.service.access.check consumer method :=
      AccessList.check_congr (hagree (consumer, method) (by simp [presents, hrel]))
    simp only [relist_service, Service.relist, hcheck]
  | attachLog =>
    simp only [act]
    refine withService_relist fun _ => ?_
    simp only [relist_service, Service.relist_attachLog]
    rcases s.service.attachLog with ⟨service, p | f⟩ <;> rfl
  | attachStat seconds =>
    simp only [act]
    refine withService_relist fun _ => ?_
    simp only [relist_service, Service.relist_attachStat, relist_now]
    rcases s.service.attachStat s.now seconds with ⟨service, p | f⟩ <;> rfl
  | detach id =>
    simp only [act, find_relist]
    exact withFound_relist _ fun x => by rw [giveUp_relist]
  | receive id =>
    simp only [act, findLog_relist]
    refine withFound_relist _ fun p => ?_
    rw [receiveLog_relist]
    rcases s.receiveLog p with ⟨s', e | _ | _⟩ <;> rfl
  | drain id =>
    simp only [act, findLog_relist]
    refine withFound_relist _ fun p => ?_
    have hdrain : (s.relist a).drainAllLog p =
        ((s.drainAllLog p).1.relist a, (s.drainAllLog p).2) := drainLog_relist s a p _
    rw [hdrain]
    rcases s.drainAllLog p with ⟨s', es, _ | _ | _⟩ <;> rfl
  | poll id =>
    simp only [act, findStat_relist]
    exact withFound_relist _ fun f => rfl
  | snapshot id =>
    simp only [act, findStat_relist]
    refine withFound_relist _ fun f => ?_
    rw [awaitSnapshot_relist]
    rcases s.awaitSnapshot (id - 1) f with ⟨s', f', _ | x⟩ <;> rfl
  | stream id n =>
    simp only [act, find_relist]
    refine withFound_relist _ fun x => ?_
    cases x with
    | log p => simp only [drainLog_relist, giveUp_relist]
    | stat f => simp only [streamStat_relist, giveUp_relist]
  | advance ms => simp only [act, relist_now, advanceTo_relist]
  | shutDown =>
    simp only [act]
    exact withService_relist fun _ => by rw [shutDown_relist]
  | isShutDown | reauthorize | release =>
    simp only [act]
    exact withService_relist fun _ => rfl
  | awaitClosed =>
    simp only [act]
    refine withService_relist fun _ => ?_
    show (if s.service.isClosed then ((s.note .hubsStopped).relist a, Reply.flag true)
      else (s.relist a, .flag false)) = _
    split <;> rfl
  | watch =>
    simp only [act]
    refine withService_relist fun _ => ?_
    let s' : Session α := { s with watchers := s.watchers + 1 }
    show (if s'.signalled then (s'.relist a).fireWatchers 1 else s'.relist a,
      Reply.count s'.watchers) = _
    rw [fireWatchers_relist]
    split <;> rfl
  | signal =>
    let s' : Session α := { s with signalled := true }
    show (if s.watcherDone then s'.relist a else (s'.relist a).fireWatchers s.watchers,
      Reply.ok) = (Session.relist (if s.watcherDone then s' else s'.fireWatchers s.watchers) a, _)
    rw [fireWatchers_relist]
    split <;> rfl
  | watchers => rfl

theorem perform_relist (c : Command α) (hagree : s.service.access.Agree a (s.presents c)) :
    (s.relist a).perform c = ((s.perform c).1.relist a, (s.perform c).2) := by
  simp only [perform, act_relist c hagree, settle_relist]

theorem access_perform (s : Session α) (c : Command α) :
    (s.perform c).1.service.access = s.service.access := by
  have hself : s.perform c = ((s.perform c).1.relist s.service.access, (s.perform c).2) :=
    perform_relist (a := s.service.access) c fun _ _ => rfl
  rw [hself]
  rfl

end

end Session

end CallFeed

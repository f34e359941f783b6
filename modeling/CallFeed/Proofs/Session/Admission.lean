/-
  CallFeed — what becomes of a call that has a handler behind it.

  * `Decided` is the decision on a call, said of its headers as they were sent: who is not
    named by them (`Names`) is not known, and who is known needs the grant of the method;
  * `Rejection` is what a refused call leads to, which is nothing but an answer, and
    `Admission` what a call leads to that is let through: each feed that its method is not
    exempt from is told once, one after the other, and then the handler runs;
  * `call_admission`: every call, in whatever state its hubs are, is decided on like that,
    counted once by the counter of its outcome, and becomes a rejection or an admission.
-/
import CallFeed.Proofs.Session.Counting
import CallFeed.Proofs.Session.Progress
import CallFeed.Proofs.Session.Settled

namespace CallFeed

/-! ## The decision -/

/-- The headers, as they were sent, name a consumer: in whatever case, just one of them has
    the name for that, and its value is visible ASCII, spaces and tabs. -/
def Names (sent : List (String × List UInt8)) (consumer : String) : Prop :=
  ∃ x, sent.filter (·.1.toLower = consumerHeader) = [x] ∧
    (∀ b ∈ x.2, 0x20 ≤ b ∧ b ≤ 0x7e ∨ b = 0x09) ∧ asciiText x.2 = consumer

/-- What is decided on a call of a method with these headers. -/
inductive Decided (access : AccessList) (sent : List (String × List UInt8)) (method : String) :
    Except Fault Event → Prop
  | unnamed {reason} : (∀ consumer, ¬ Names sent consumer) →
      Decided access sent method (.error (.unauthenticated reason))
  | denied {consumer} : Names sent consumer → access.grants consumer method = false →
      Decided access sent method (.error (.permissionDenied consumer method))
  | allowed {consumer} : Names sent consumer → access.grants consumer method = true →
      Decided access sent method (.ok { consumer, method, peer := none })

/-- The outcome that a call is to be counted under. -/
def outcomeOf : Except Fault Event → String
  | .ok _ => "allowed"
  | .error (.permissionDenied _ _) => "permission_denied"
  | .error _ => "unauthenticated"

/-- The status that a refused call of a method is to end with. -/
def refusalOf (method : String) : Fault → Status
  | .permissionDenied _ _ => ⟨7, "Permission denied for " ++ method⟩
  | _ => ⟨16, "Missing or invalid consumer metadata"⟩

section
variable {sent : List (String × List UInt8)} {headers : List Header}

theorem Header.read_eq_ok {name : String} {value : List UInt8} {h : Header}
    (hr : Header.read name value = .ok h) : h = ⟨name.toLower, value⟩ := by
  unfold Header.read at hr
  split at hr
  · cases hr
  · split at hr
    · cases hr
    · exact (Except.ok.inj hr).symm

/-- Headers that can be read are those sent, with their names in lower case. -/
theorem Header.reads_eq_ok (hsent : sent.mapM (fun x => Header.read x.1 x.2) = .ok headers) :
    headers = sent.map fun x => ⟨x.1.toLower, x.2⟩ := by
  induction sent generalizing headers with
  | nil =>
    rw [List.mapM_nil] at hsent
    cases hsent
    rfl
  | cons x sent ih =>
    rw [List.mapM_cons] at hsent
    cases hx : Header.read x.1 x.2 with
    | error f =>
      rw [hx] at hsent
      cases hsent
    | ok h =>
      cases hrest : sent.mapM (fun x => Header.read x.1 x.2) with
      | error f =>
        rw [hx, hrest] at hsent
        cases hsent
      | ok hs =>
        rw [hx, hrest] at hsent
        cases hsent
        rw [List.map_cons, Header.read_eq_ok hx, ih hrest]

theorem valuesOf_sent (name : String)
    (hsent : sent.mapM (fun x => Header.read x.1 x.2) = .ok headers) :
    valuesOf name headers = (sent.filter (·.1.toLower = name)).map Prod.snd := by
  rw [Header.reads_eq_ok hsent, valuesOf, List.filter_map, List.map_map]
  rfl

theorem isVisible_iff (b : UInt8) : isVisible b = true ↔ 0x20 ≤ b ∧ b ≤ 0x7e ∨ b = 0x09 := by
  have hlt : b < 0x7f ↔ b ≤ 0x7e := by
    rw [UInt8.lt_iff_toNat_lt, UInt8.le_iff_toNat_le]
    exact Nat.lt_succ_iff
  simp [isVisible, hlt]

/-- The consumer is found if the headers name it. -/
theorem identify_sent_iff (hsent : sent.mapM (fun x => Header.read x.1 x.2) = .ok headers)
    {consumer : String} : identify headers = .ok consumer ↔ Names sent consumer := by
  rw [identify_eq_ok_iff, valuesOf_sent _ hsent]
  constructor
  · rintro ⟨value, hone, hvisible, hname⟩
    obtain ⟨x, hx, rfl⟩ := List.map_eq_singleton_iff.1 hone
    refine ⟨x, hx, fun b hb => ?_, hname⟩
    exact (isVisible_iff b).1 (List.all_eq_true.1 hvisible b hb)
  · rintro ⟨x, hx, hvisible, hname⟩
    refine ⟨x.2, by rw [hx]; rfl, List.all_eq_true.2 fun b hb => ?_, hname⟩
    exact (isVisible_iff b).2 (hvisible b hb)

theorem decided_authorize (hsent : sent.mapM (fun x => Header.read x.1 x.2) = .ok headers)
    (service : Service) (method : String) :
    Decided service.access sent method (service.authorize headers method) := by
  unfold Service.authorize
  split
  · rename_i f hid
    refine .unnamed fun consumer hnames => ?_
    cases hid.symm.trans ((identify_sent_iff hsent).2 hnames)
  · rename_i consumer hid
    have hnames := (identify_sent_iff hsent).1 hid
    unfold AccessList.check
    cases hgrants : service.access.grants consumer method with
    | true => exact .allowed hnames hgrants
    | false => exact .denied hnames hgrants

theorem Names.unique {consumer consumer' : String} (hn : Names sent consumer)
    (hn' : Names sent consumer') : consumer = consumer' := by
  obtain ⟨x, hx, -, rfl⟩ := hn
  obtain ⟨y, hy, -, rfl⟩ := hn'
  cases hx.symm.trans hy
  rfl

/-- There is one decision on a call, but for the words in which it is not known who calls. -/
theorem Decided.unique {access : AccessList} {method : String} {v v' : Except Fault Event}
    (hd : Decided access sent method v) (hd' : Decided access sent method v') :
    v = v' ∨ ∃ reason reason', v = .error (.unauthenticated reason) ∧
      v' = .error (.unauthenticated reason') := by
  cases hd with
  | unnamed hno =>
    cases hd' with
    | unnamed => exact Or.inr ⟨_, _, rfl, rfl⟩
    | denied hn | allowed hn => exact absurd hn (hno _)
  | denied hn hg =>
    cases hd' with
    | unnamed hno => exact absurd hn (hno _)
    | denied hn' => exact Or.inl (by rw [hn.unique hn'])
    | allowed hn' hg' =>
      rw [hn.unique hn', hg'] at hg
      cases hg
  | allowed hn hg =>
    cases hd' with
    | unnamed hno => exact absurd hn (hno _)
    | denied hn' hg' =>
      rw [hn.unique hn', hg'] at hg
      cases hg
    | allowed hn' => exact Or.inl (by rw [hn.unique hn'])

theorem Decided.outcome_mem {access : AccessList} {method : String} {v : Except Fault Event}
    (hd : Decided access sent method v) : outcomeOf v ∈ outcomes := by
  cases hd <;> simp [outcomeOf, outcomes, Fault.kind]

/-- A refusal is counted under the name of its cause. -/
theorem Decided.kind_eq {access : AccessList} {method : String} {f : Fault}
    (hd : Decided access sent method (.error f)) : f.kind = outcomeOf (.error f) := by
  cases hd <;> rfl

theorem Decided.status_eq {access : AccessList} {method : String} {f : Fault}
    (hd : Decided access sent method (.error f)) : f.status = refusalOf method f := by
  cases hd <;> rfl

end

namespace Session

variable {α : Type} {s : Session α} {g : List Telling}

section
variable {sent : List (String × List UInt8)} {headers : List Header} {method : String}
  {handler : Except Status α}

/-- The notices about a method that is exempt from a feed count no call. -/
theorem callCount_exemptNotices (outcome : String) (service : Service) (e : Event) :
    callCount outcome (service.exemptNotices e) = 0 := by
  unfold Service.exemptNotices
  split <;> simp [callCount, Notice.outcome?]

theorem callCount_consider {service : Service}
    (hd : Decided service.access sent method (service.authorize headers method))
    (outcome : String) :
    callCount outcome (service.consider (.intercept headers method handler)).notices =
      if outcomeOf (service.authorize headers method) = outcome then 1 else 0 := by
  simp only [Service.consider, Service.letIn]
  cases hv : service.authorize headers method with
  | ok e =>
    show callCount outcome (.authorized e.consumer :: service.exemptNotices _) = _
    rw [callCount, List.countP_cons, ← callCount, callCount_exemptNotices, Nat.zero_add]
    by_cases ho : "allowed" = outcome <;> simp [Notice.outcome?, outcomeOf, ho]
  | error f =>
    rw [hv] at hd
    rw [← hd.kind_eq]
    by_cases ho : f.kind = outcome <;> simp [callCount, Notice.outcome?, ho]

theorem callCount_enterCall
    (hd : Decided s.service.access sent method (s.service.authorize headers method))
    (outcome : String) :
    callCount outcome (s.enterCall (.intercept headers method handler)).notices =
      callCount outcome s.notices +
        if outcomeOf (s.service.authorize headers method) = outcome then 1 else 0 := by
  rw [← callCount_consider hd, enterCall, callCount_append]

/-- The counter of the outcome of a call rises by one when the call is made, and no other one. -/
theorem count_makeCall
    (hd : Decided s.service.access sent method (s.service.authorize headers method))
    (outcome : String) :
    (s.makeCall (.intercept headers method handler)).count (.calls outcome) =
      s.count (.calls outcome) +
        if outcomeOf (s.service.authorize headers method) = outcome then 1 else 0 := by
  rw [count_calls, count_calls, (aside_makeCall s _).notices, callCount_enterCall hd]
  by_cases ho : outcome ∈ outcomes
  · simp only [ho, if_true]
  · have hne : outcomeOf (s.service.authorize headers method) ≠ outcome := by
      rintro rfl
      exact ho hd.outcome_mem
    simp only [ho, hne, if_false]

end

/-! ## Answers -/

theorem answer_setPending (s : Session α) (t t' : Ticket) (x : Option (Event × List Feed)) :
    ((s.setPending t' x).calls[t]?).map Call.answer = (s.calls[t]?).map Call.answer := by
  by_cases ht : t' = t
  · subst ht
    cases hc : s.calls[t']? <;> simp [setPending, hc]
  · rw [calls_setPending_ne ht]

/-- The answer that a call gets at last is decided on at its entry. -/
theorem Ran.answer {s₀ : Session α} {g₀ : List Telling} {ds : List Deed} {t : Ticket}
    (hrun : Ran s₀ g₀ ds s g) (hr : Reached s₀ g₀) (ht : t < s₀.calls.length) :
    t < s.calls.length ∧ (s.calls[t]?).map Call.answer = (s₀.calls[t]?).map Call.answer := by
  refine hrun.induction (t := t) (Q := fun _ s _ => t < s.calls.length ∧
    (s.calls[t]?).map Call.answer = (s₀.calls[t]?).map Call.answer) hr ⟨ht, rfl⟩ ?_ ?_ ?_ ?_
  · rintro ds s g s' g' - - hu ⟨hlt, hanswer⟩
    have hcall := hu.call hlt
    rw [List.getElem?_eq_getElem hlt] at hcall
    refine ⟨(List.getElem?_eq_some_iff.1 hcall).1, ?_⟩
    rw [hu.call hlt, hanswer]
  · rintro ds s g k e feed feeds h r - - - ⟨hlt, hanswer⟩
    exact ⟨hlt, hanswer⟩
  · rintro ds s g k e feed feeds h - - ⟨hlt, hanswer⟩
    rw [length_setPending, answer_setPending]
    exact ⟨hlt, hanswer⟩
  · rintro ds s g k e - ⟨hlt, hanswer⟩
    rw [length_setPending, answer_setPending]
    exact ⟨hlt, hanswer⟩

/-- A call that has nothing to do is answered. -/
theorem Idle.answer? {t : Ticket} (hi : Idle s g t) :
    s.answer? t = (s.calls[t]?).map Call.answer := by
  have hpend : s.isPending t = false := Option.isSome_eq_false_iff.2 (by
    rw [Option.isNone_iff_eq_none]
    exact hi.pending)
  rw [Session.answer?, hpend]
  rfl

/-! ## Calls that are let through -/

theorem mem_feedsOf_iff (rules : DispatchRules) (method : String) (feed : Feed) :
    feed ∈ rules.feedsOf method ↔ method ∉ rules.exempt feed := by
  cases feed <;> simp [DispatchRules.feedsOf, DispatchRules.emitsTo]

theorem ends_not_mem_tellsOf (t t' : Ticket) (e : Event) (feeds : List Feed) :
    .ends t' ∉ tellsOf t e feeds := by
  simp [tellsOf]

theorem mem_deedsOf {t : Ticket} {ds : List Deed} {d : Deed} (hd : d.ticket = t) :
    d ∈ deedsOf t ds ↔ d ∈ ds := by
  simp [deedsOf, hd]

/-- What the call `t` has done, in `ds`, that is let through with the event `e` and whose
    handler ends with `result`; it is told on the feeds `feeds`. -/
structure Underway (s : Session α) (g : List Telling) (t : Ticket) (e : Event) (feeds : List Feed)
    (result : Except Status α) (ds : List Deed) : Prop where
  /-- It tells one feed after the other, and then it ends. -/
  inOrder : deedsOf t ds <+: tellsOf t e feeds ++ [.ends t]
  /-- It waits at no other hub than that of the feed that it has told last. -/
  waits : ∀ feed, t ∈ (s.service.hub feed).waiters →
    (deedsOf t ds).getLast? = some (.tells t feed e)
  /-- If it has begun to tell the stat feed, then the log feed has taken or dropped its event. -/
  logFirst : .tells t .stat e ∈ ds → t ∉ (s.service.hub .log).waiters
  /-- It has ended when it neither waits nor goes on. -/
  ended : .ends t ∈ ds ↔ t ∉ s.tickets g
  /-- Then it has told each feed once, and the result of its handler is the answer. -/
  once : .ends t ∈ ds → deedsOf t ds = tellsOf t e feeds ++ [.ends t] ∧
    s.answer? t = some (.handled result)
  /-- As long as it waits it has no answer. -/
  unanswered : g = [] → .ends t ∉ ds → s.answer? t = none

section
variable {t : Ticket} {e : Event} {feeds : List Feed} {ds : List Deed} {result : Except Status α}

/-- No feed is told before the log feed. -/
theorem eq_nil_of_log {told left : List Feed}
    (hsub : (told ++ .log :: left).Sublist [.log, .stat]) : told = [] := by
  cases told with
  | nil => rfl
  | cons feed told =>
    have hlog : Feed.log ∈ told ++ .log :: left := by simp
    rcases List.cons_sublist_cons'.1 hsub with hsub | ⟨-, hsub⟩
    · cases List.mem_singleton.1 (hsub.subset (List.mem_cons_of_mem _ hlog))
    · cases List.mem_singleton.1 (hsub.subset hlog)

/-- Where a call waits it has told that feed last, and the stat feed only after the log feed. -/
theorem Progress.waits (hw : Waits s g) (hsub : feeds.Sublist [.log, .stat])
    (hp : Progress s g t e feeds ds) {feed : Feed} (hwait : t ∈ (s.service.hub feed).waiters) :
    ds.getLast? = some (.tells t feed e) ∧ (feed = .log → .tells t .stat e ∉ ds) := by
  cases hp with
  | @going told left hsplit hgo =>
    obtain ⟨g₁, g₂, rfl⟩ := List.append_of_mem hgo
    exact absurd hwait (hw.not_mem_waiters feed).1
  | @waiting told feed' left hsplit hwait' hpend =>
    obtain ⟨⟨t', e'⟩, hin, rfl⟩ := List.mem_map.1 hwait
    obtain ⟨feeds', hpend', -⟩ := hw.queued feed t' e' hin
    cases hpend.symm.trans hpend'
    refine ⟨by rw [tellsOf_concat, List.getLast?_concat], ?_⟩
    rintro rfl
    rw [hsplit] at hsub
    simp [eq_nil_of_log hsub, tellsOf]
  | ended hi => exact absurd (mem_tickets.2 (Or.inl ⟨feed, hwait⟩)) (hi.not_mem_tickets hw)

/-- A call that waits or goes on has told some of its feeds. -/
theorem Progress.told (hp : Progress s g t e feeds ds) :
    t ∈ s.tickets g ∧ ds <+: tellsOf t e feeds ∨
      Idle s g t ∧ ds = tellsOf t e feeds ++ [.ends t] := by
  cases hp with
  | @going told left hsplit hgo =>
    refine Or.inl ⟨mem_tickets.2 (Or.inr (List.mem_map.2 ⟨_, hgo, rfl⟩)), ?_⟩
    rw [hsplit, tellsOf_append]
    exact List.prefix_append _ _
  | @waiting told feed left hsplit hwait hpend =>
    refine Or.inl ⟨mem_tickets.2 (Or.inl ⟨feed, hwait⟩), ?_⟩
    have hsplit' : feeds = told ++ [feed] ++ left := by simpa using hsplit
    rw [hsplit', tellsOf_append t e (told ++ [feed])]
    exact List.prefix_append _ _
  | ended hi => exact Or.inr ⟨hi, rfl⟩

theorem Progress.underway (hw : Waits s g) (hsub : feeds.Sublist [.log, .stat])
    (hp : Progress s g t e feeds (deedsOf t ds))
    (ha : (s.calls[t]?).map Call.answer = some (.handled result)) :
    Underway s g t e feeds result ds := by
  have hends : .ends t ∈ deedsOf t ds ↔ .ends t ∈ ds := mem_deedsOf rfl
  have hlast : ∀ feed, t ∈ (s.service.hub feed).waiters →
      (deedsOf t ds).getLast? = some (.tells t feed e) :=
    fun _ hwait => (hp.waits hw hsub hwait).1
  have hlog : .tells t .stat e ∈ ds → t ∉ (s.service.hub .log).waiters := by
    intro htold hwait
    exact (hp.waits hw hsub hwait).2 rfl ((mem_deedsOf rfl).2 htold)
  rcases hp.told with ⟨hin, hstart⟩ | ⟨hi, hds⟩
  · have hnot : .ends t ∉ ds := by
      rw [← hends]
      exact fun hmem => ends_not_mem_tellsOf t t e feeds (hstart.subset hmem)
    refine ⟨hstart.trans (List.prefix_append _ _), hlast, hlog, ?_, ?_, ?_⟩
    · exact ⟨fun hmem => absurd hmem hnot, fun hout => absurd hin hout⟩
    · exact fun hmem => absurd hmem hnot
    · rintro rfl -
      -- as no call goes on, it waits
      rcases mem_tickets.1 hin with ⟨feed, hf⟩ | hgo
      · have hpending := (hw.isPending_iff t).2 ⟨feed, hf, fun _ hf' => hw.feed_unique hf' hf⟩
        rw [Session.answer?, if_pos hpending]
      · cases hgo
  · have hmem : .ends t ∈ ds := by
      rw [← hends, hds]
      simp
    refine ⟨hds ▸ List.prefix_refl _, hlast, hlog, ?_, fun _ => ⟨hds, ?_⟩, ?_⟩
    · exact ⟨fun _ => hi.not_mem_tickets hw, fun _ => hmem⟩
    · rw [hi.answer?, ha]
    · intro _ hnot
      exact absurd hmem hnot

end

/-- The call that `r` makes is refused for `f`. -/
structure Rejection (s : Session α) (g : List Telling) (r : Request α) (f : Fault) : Prop where
  /-- Neither the decision nor anything of the call after it moves a hub. -/
  service : (s.makeCall r).service = s.service
  /-- Whatever happens afterwards, it tells no feed, waits nowhere and runs no handler. -/
  later : ∀ ds s' g', Ran (s.enterCall r) (g ++ s.toTell r) ds s' g' →
    deedsOf s.calls.length ds = [] ∧ s.calls.length ∉ s'.tickets g' ∧
      s'.answer? s.calls.length = some (.unhandled f.status)

/-- The call that `r` makes is let through with the event `e`, and its handler ends with
    `result`. -/
structure Admission (s : Session α) (g : List Telling) (r : Request α) (e : Event)
    (result : Except Status α) : Prop where
  /-- The log feed comes first, and a feed is left out if the method is exempt from it. -/
  feeds : (s.service.rules.feedsOf e.method).Sublist [.log, .stat] ∧
    ∀ feed, feed ∈ s.service.rules.feedsOf e.method ↔ e.method ∉ s.service.rules.exempt feed
  later : ∀ ds s' g', Ran (s.enterCall r) (g ++ s.toTell r) ds s' g' →
    Underway s' g' s.calls.length e (s.service.rules.feedsOf e.method) result ds

section
variable {headers : List Header} {method : String} {handler : Except Status α}

theorem calls_enterCall_self (s : Session α) (r : Request α) :
    (s.enterCall r).calls[s.calls.length]? = some (Call.mk none (s.service.consider r).answer) := by
  simp [enterCall]

theorem rejection_of_authorize (hr : Reached s g) {f : Fault}
    (ha : s.service.authorize headers method = .error f) :
    Rejection s g (.intercept headers method handler) f := by
  have hcourse : s.service.consider (.intercept headers method handler) =
      ⟨[.rejected f], none, .unhandled f.status⟩ := by
    simp only [Service.consider, Service.letIn, ha]
  have hself := calls_enterCall_self s (.intercept headers method handler)
  rw [hcourse] at hself
  refine ⟨?_, fun ds s' g' hrun => ?_⟩
  · rw [makeCall_eq, hcourse]
    rfl
  · have hr' := hr.step (.call (.intercept headers method handler))
    -- it is a new call, and goes on with nothing
    have hidle : Idle (s.enterCall (.intercept headers method handler))
        (g ++ s.toTell (.intercept headers method handler)) s.calls.length := by
      refine ⟨(List.getElem?_eq_some_iff.1 hself).1, ?_, ?_⟩
      · rw [pending?, hself]
        rfl
      · rw [toTell, hcourse, List.append_nil]
        intro hmem
        obtain ⟨x, hx, ht⟩ := List.mem_map.1 hmem
        exact absurd (hr.waits.going x hx).1 (by rw [ht]; exact Nat.lt_irrefl _)
    obtain ⟨hidle', hdeeds⟩ := hrun.idle hr' hidle
    have hanswer := (hrun.answer hr' hidle.known).2
    rw [hself] at hanswer
    refine ⟨hdeeds, hidle'.not_mem_tickets (hrun.reached hr').waits, ?_⟩
    rw [hidle'.answer?, hanswer]
    rfl

theorem admission_of_authorize (hr : Reached s g) {e : Event} (hpeer : e.peer = none)
    (ha : s.service.authorize headers method = .ok e) :
    Admission s g (.intercept headers method handler) e handler := by
  have he : e.withPeer none = e := by
    rw [Event.withPeer, ← hpeer]
  have hcourse : s.service.consider (.intercept headers method handler) =
      ⟨.authorized e.consumer :: s.service.exemptNotices e, some e, .handled handler⟩ := by
    simp only [Service.consider, Service.letIn, ha, he]
  have hself := calls_enterCall_self s (.intercept headers method handler)
  rw [hcourse] at hself
  refine ⟨⟨List.filter_sublist, mem_feedsOf_iff _ _⟩, fun ds s' g' hrun => ?_⟩
  have hr' := hr.step (.call (.intercept headers method handler))
  have hgoing : Progress (s.enterCall (.intercept headers method handler))
      (g ++ s.toTell (.intercept headers method handler)) s.calls.length e
      (s.service.rules.feedsOf e.method) [] := by
    refine .going (List.nil_append _).symm ?_
    rw [toTell, hcourse]
    exact List.mem_append_right _ List.mem_cons_self
  have hanswer := (hrun.answer hr' (List.getElem?_eq_some_iff.1 hself).1).2
  rw [hself] at hanswer
  exact (hrun.progress hr' hgoing).underway (hrun.reached hr').waits List.filter_sublist hanswer

/-- **Admission of calls.** Whatever has happened to a service and its hubs before, a call with
    a handler is decided on by the access list, its headers and its method alone. The counter of
    its outcome rises by one, the other two stay as they are, and no command but a call moves any
    of them. If it is refused, the hubs stay as they are, no feed is told, the handler does not
    run, and the answer is the status of the refusal. If it is let through, each feed that its
    method is not exempt from is told once, the stat feed not before the log feed has taken or
    dropped the event; then the handler runs once, and its result is the answer. -/
theorem call_admission (hr : Reached s g) {sent : List (String × List UInt8)}
    (hsent : sent.mapM (fun x => Header.read x.1 x.2) = .ok headers) (method : String)
    (handler : Except Status α) :
    ∃ verdict, Decided s.service.access sent method verdict ∧
      outcomeOf verdict ∈ ["allowed", "unauthenticated", "permission_denied"] ∧
      (∀ outcome, (Metric.calls outcome).name =
        "telemetry_calls_total\x7boutcome=" ++ outcome ++ "\x7d") ∧
      (∀ outcome, (s.makeCall (.intercept headers method handler)).count (.calls outcome) =
        s.count (.calls outcome) + if outcomeOf verdict = outcome then 1 else 0) ∧
      (∀ (s' : Session α) (c : Command α), c.isCall = false → ∀ outcome,
        (s'.perform c).1.count (.calls outcome) = s'.count (.calls outcome)) ∧
      (∀ f, verdict = .error f →
        Rejection s g (.intercept headers method handler) f ∧ f.status = refusalOf method f) ∧
      (∀ e, verdict = .ok e → Admission s g (.intercept headers method handler) e handler) := by
  have hdecided := decided_authorize hsent s.service method
  refine ⟨_, hdecided, hdecided.outcome_mem, Metric.name_calls, count_makeCall hdecided,
    fun s' c hc => count_calls_perform s' hc, ?_, ?_⟩
  · intro f hf
    refine ⟨rejection_of_authorize hr hf, ?_⟩
    rw [hf] at hdecided
    exact hdecided.status_eq
  · intro e he
    refine admission_of_authorize hr ?_ he
    rw [he] at hdecided
    cases hdecided
    rfl

/-- With an inbound queue for one event and a subscriber that takes none, three calls fill
    everything: the fourth waits at the log hub, counted as allowed. When the subscriber leaves,
    the call goes on to the stat hub, and its handler runs; it is not counted again. -/
theorem call_admission_waits :
    ∃ (s s₁ s₂ : Session Unit) (r : Request Unit) (e : Event) (ds₁ ds₂ : List Deed),
      Reached s [] ∧ s₁ = (s.perform (.call none r)).1 ∧ s₂ = (s₁.perform (.detach 1)).1 ∧
      Ran (s.enterCall r) (s.toTell r) ds₁ s₁ [] ∧ Ran (s.enterCall r) (s.toTell r) ds₂ s₂ [] ∧
      s.reading? (.calls "allowed") = none ∧ s₁.reading? (.calls "allowed") = some 1 ∧
      (s.makeCall r).count (.calls "allowed") = s.count (.calls "allowed") + 1 ∧
      (s.makeCall r).count (.calls "permission_denied") = s.count (.calls "permission_denied") ∧
      s₂.count (.calls "allowed") = 1 ∧
      (deedsOf 3 ds₁).getLast? = some (.tells 3 .log e) ∧ s₁.answer? 3 = none ∧
      deedsOf 3 ds₂ = [.tells 3 .log e, .tells 3 .stat e, .ends 3] ∧
      s₂.answer? 3 = some (.handled (.ok ())) := by
  have hname : "Consumer".toLower = consumerHeader := by
    rw [← String.toList_inj]
    show ("Consumer".map Char.toLower).toList = _
    rw [String.toList_map]
    decide
  have hsent : [("Consumer", [(0x78 : UInt8)])].mapM (fun x => Header.read x.1 x.2) =
      .ok [⟨consumerHeader, [0x78]⟩] := by
    rw [← hname]
    rfl
  have hallowed : Decided (AccessList.ofRows [("x", ["/m"])]) [("Consumer", [(0x78 : UInt8)])] "/m"
      (.ok ⟨"x", "/m", none⟩) := by
    refine .allowed ⟨("Consumer", [0x78]), by simp [hname], fun b hb => ?_, rfl⟩ (by decide)
    cases List.mem_singleton.1 hb
    decide
  have ho : (open? (AccessList.ofRows [("x", ["/m"])]) ⟨1, 1, none⟩ {} : Option (Session Unit)) =
      some _ := rfl
  have hreading : ∀ s : Session Unit,
      open? (AccessList.ofRows [("x", ["/m"])]) ⟨1, 1, none⟩ {} = some s →
      ((s.perform .attachLog).1.perform (.call (some 3) (.report "a" "/m"))).1.reading?
        (.calls "allowed") = none ∧
      (((s.perform .attachLog).1.perform (.call (some 3) (.report "a" "/m"))).1.perform
        (.call none (.intercept [⟨consumerHeader, [0x78]⟩] "/m" (.ok ())))).1.reading?
          (.calls "allowed") = some 1 := by
    rintro s ⟨⟩
    decide +kernel
  obtain ⟨hopen, -⟩ := reached_open? ho
  have hfull := reached_perform (.call (some 3) (.report "a" "/m"))
    (reached_perform .attachLog hopen)
  obtain ⟨v, hd, -, -, hcount, hsame, -, hthrough⟩ := call_admission hfull hsent "/m" (.ok ())
  have hv : v = .ok ⟨"x", "/m", none⟩ := by
    rcases hd.unique hallowed with hv | ⟨reason, reason', -, hbad⟩
    · exact hv
    · cases hbad
  subst hv
  have hlater := (hthrough _ rfl).later
  obtain ⟨ds₁, hrun₁⟩ :=
    Ran.of_call hfull (.intercept [⟨consumerHeader, [0x78]⟩] "/m" (.ok ()))
  obtain ⟨ds₂, hrun₂⟩ := hrun₁.perform (hfull.step (.call _)) (.detach 1)
  have hwaits := hlater _ _ _ hrun₁
  have hends := hlater _ _ _ hrun₂
  have hlast := hwaits.waits .log (by decide)
  have hnot : .ends 3 ∉ ds₁ := fun hmem => absurd (hwaits.ended.1 hmem) (by decide)
  obtain ⟨hdeeds, hanswer⟩ := hends.once (hends.ended.2 (by decide))
  obtain ⟨hbefore, hafter⟩ := hreading _ ho
  have hrises := (hcount "allowed").trans (congrArg _ (if_pos rfl))
  have hstays := (hcount "permission_denied").trans (congrArg _ (if_neg (by decide)))
  have honce := (hsame _ (.detach 1) rfl "allowed").trans (congrArg (·.getD 0) hafter)
  exact ⟨_, _, _, _, _, _, _, hfull, rfl, rfl, hrun₁, hrun₂, hbefore, hafter, hrises, hstays,
    honce, hlast, hwaits.unanswered rfl hnot, hdeeds, hanswer⟩

end

end Session

end CallFeed

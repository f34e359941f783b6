/-
  CallFeed — requests for subscriptions, and what they leave behind.

  * `Wish` is what a client asks for, `Service.Refuses` the reasons for which it is turned away
    before anything is entered;
  * `Hub.Entered`: a hub with one subscriber more, at the end of its set and with the next number,
    which its metric tells at once;
  * `Outcome` are the three ends of a request. `attach_outcome`: a request is refused and changes
    nothing, or it enters one subscriber at the hub of its feed and at no other; it has no
    subscription to show for that only if its window is endless.
-/
import CallFeed.Proofs.Hub.Register
import CallFeed.Proofs.Session.Shutdown

namespace CallFeed

/-! ## Requests -/

/-- A subscription that a client asks for. -/
inductive Wish where
  | log
  | stat (seconds : Nat)

namespace Wish

def feed : Wish → Feed
  | log => .log
  | stat _ => .stat

/-- The length of the windows that are asked for. -/
def seconds? : Wish → Option Nat
  | log => none
  | stat seconds => some seconds

def command {α : Type} : Wish → Command α
  | log => .attachLog
  | stat seconds => .attachStat seconds

/-- What a client is given whose queue is at the place `p`. -/
def subscription (now : Nat) (p : Place) : Wish → Subscription
  | log => .log p
  | stat seconds => .stat (.start p now seconds)

/-- The end of the first window lies beyond every clock. -/
def IsEndless : Wish → Prop
  | log => False
  | stat seconds => endlessWindow ≤ seconds

end Wish

/-- A request is turned away for this reason: a window without length before anything else, then
    the end of the service, then a queue larger than any. -/
inductive Service.Refuses (s : Service) : Wish → Failure → Prop
  | short : Refuses s (.stat 0) (.fault (.invalidWindow 0))
  | late {w} : w ≠ .stat 0 → s.isShutDown = true → Refuses s w (.fault .shuttingDown)
  | large {w} : w ≠ .stat 0 → s.isShutDown = false →
      largestQueue < (s.hub w.feed).settings.subscriber → Refuses s w .breakdown

/-- What is known of a request that nothing stands against. -/
theorem Service.of_not_refuses {s : Service} {w : Wish} (hnot : ∀ f, ¬ s.Refuses w f) :
    w ≠ .stat 0 ∧ s.isShutDown = false ∧
      (s.hub w.feed).settings.subscriber ≤ largestQueue := by
  have hlen : w ≠ .stat 0 := by
    rintro rfl
    exact hnot _ .short
  have hdown : s.isShutDown = false := by
    simpa using fun hd => hnot _ (.late hlen hd)
  exact ⟨hlen, hdown, Nat.not_lt.1 fun hlarge => hnot _ (.large hlen hdown hlarge)⟩

namespace Service
variable {s : Service} {n : Nat}

/-- Before the end, a request for the log feed comes to its hub. -/
theorem attachLog_of_running (hdown : s.isShutDown = false) :
    s.attachLog =
      match s.log.attach with
      | .ok (h, p) => (s.setHub .log h, .ok p)
      | .error f => (s, .error f) := by
  have hrunning : ¬ s.isShutDown = true := by simp [hdown]
  rw [attachLog, if_neg hrunning]
  rfl

/-- Before the end, a request for windows that have a length comes to its hub. -/
theorem attachStat_of_running (hlen : Wish.stat n ≠ .stat 0) (hdown : s.isShutDown = false)
    (now : Nat) :
    s.attachStat now n =
      match s.stat.attach with
      | .error f => (s, .error f)
      | .ok (h, p) =>
        if endlessWindow ≤ n then (s.setHub .stat (h.detach p), .error .breakdown)
        else (s.setHub .stat h, .ok (.start p now n)) := by
  have hrunning : ¬ s.isShutDown = true := by simp [hdown]
  have hwindow : windowOf n = .ok n := if_neg (by simpa [shortestWindow] using hlen)
  simp only [attachStat, hwindow, if_neg hrunning]
  rfl

end Service

/-! ## Entering a hub -/

namespace Hub
variable {h h' : Hub}

/-- `h'` is `h` with one subscriber more, whose queue is `held` or not. -/
structure Entered (h h' : Hub) (held : Bool) : Prop where
  members : h'.members = h.members ++ [h.queues.length]
  fresh : h.queues.length ∉ h.members
  queues : h'.queues = h.queues ++ [⟨[], held⟩]
  number : h'.nextNumber = h.nextNumber + 1
  gauge : h'.reading? (.active h'.feed) = some h'.members.length
  rest : h' = { h with queues := h'.queues, members := h'.members, journal := h'.journal }

/-- A hub that has not stopped enters whoever asks for a queue that can be made. -/
theorem attach_entered (hro : Roster h) (hst : h.stage ≠ .stopped)
    (hfit : h.settings.subscriber ≤ largestQueue) :
    ∃ h', h.attach = .ok (h', h.queues.length) ∧ Entered h h' true := by
  refine ⟨_, by rw [attach, if_neg (Nat.not_lt.2 hfit), if_neg (by simpa [isStopped] using hst)],
    rfl, fun hmem => Nat.lt_irrefl _ (hro.below _ hmem), rfl, ?_, ?_, rfl⟩
  · simp [nextNumber, note, Place.number]
  · rw [reading?_active]
    simp [note, Occurrence.size?]

/-- Who gives up its queue at once is still in the set. -/
theorem Entered.detach (he : Entered h h' true) : Entered h (h'.detach h.queues.length) false where
  members := he.members
  fresh := he.fresh
  queues := by
    show h'.queues.set h.queues.length ⟨[], false⟩ = _
    rw [he.queues, List.set_append_right _ _ (Nat.le_refl _), Nat.sub_self, List.set_cons_zero]
  number := by
    show Place.number (h'.queues.set h.queues.length ⟨[], false⟩).length = _
    rw [List.length_set]
    exact he.number
  gauge := by
    have hg := he.gauge
    rw [reading?_active] at hg ⊢
    show reportedSize? (h'.journal ++ [.detached h.queues.length]) = some h'.members.length
    rw [reportedSize?_concat, hg]
    rfl
  rest := by
    rw [he.rest]
    rfl

end Hub

/-! ## The end of a request -/

namespace Session

variable {α : Type} {s : Session α} {g : List Telling}

/-- How a request for a subscription ends. -/
inductive Outcome (s : Session α) (w : Wish) : Session α × Reply α → Prop
  /-- It is turned away, and everything is as it was. -/
  | refused {f} : s.service.Refuses w f → Outcome s w (s, .failed f)
  /-- The client is given a queue, and the feed has one subscriber more. -/
  | subscribed {h} : (∀ f, ¬ s.service.Refuses w f) → ¬ w.IsEndless →
      (s.service.hub w.feed).Entered h true →
      Outcome s w
        (((s.setHub w.feed h).keep
          (w.subscription s.now (s.service.hub w.feed).queues.length)).1,
          .attached (s.subscriptions.length + 1) w.seconds?)
  /-- The request breaks down when the feed already has one subscriber more, whose queue nobody
      holds. -/
  | abandoned {h} : (∀ f, ¬ s.service.Refuses w f) → w.IsEndless →
      (s.service.hub w.feed).Entered h false → Outcome s w (s.setHub w.feed h, .failed .breakdown)

/-- A request that is refused does nothing. -/
theorem act_of_refuses {w : Wish} {f : Failure} (hrel : s.service.released = false)
    (hf : s.service.Refuses w f) : s.act w.command = (s, .failed f) := by
  cases hf with
  | short => simp [Wish.command, act, withService, hrel, Service.attachStat, windowOf,
      shortestWindow]
  | late hlen hdown =>
    cases w with
    | log => simp [Wish.command, act, withService, hrel, Service.attachLog_shutDown hdown]
    | stat n =>
      have hn : n ≠ 0 := by simpa using hlen
      simp [Wish.command, act, withService, hrel, Service.attachStat_shutDown hdown, hn]
  | large hlen hdown hlarge =>
    cases w with
    | log =>
      have hat : s.service.log.attach = .error .breakdown := if_pos hlarge
      simp [Wish.command, act, withService, hrel, Service.attachLog_of_running hdown, hat]
    | stat n =>
      have hat : s.service.stat.attach = .error .breakdown := if_pos hlarge
      simp [Wish.command, act, withService, hrel, Service.attachStat_of_running hlen hdown, hat]

/-- Nothing stands against a request that is not refused: the hub of its feed makes a queue. -/
theorem Reached.attach_entered (hr : Reached s g) (hrel : s.service.released = false) {w : Wish}
    (hnot : ∀ f, ¬ s.service.Refuses w f) :
    ∃ h, (s.service.hub w.feed).attach = .ok (h, (s.service.hub w.feed).queues.length) ∧
      (s.service.hub w.feed).Entered h true := by
  obtain ⟨-, hdown, hfit⟩ := Service.of_not_refuses hnot
  have hopen := hr.alive hdown hrel w.feed
  exact Hub.attach_entered (hr.sound.arises w.feed).roster (by simp [hopen.running]) hfit

/-- A request that comes to a hub gets the queue that the hub makes. -/
theorem act_of_attach {w : Wish} {h : Hub} {p : Place} (hrel : s.service.released = false)
    (hnot : ∀ f, ¬ s.service.Refuses w f) (hend : ¬ w.IsEndless)
    (hat : (s.service.hub w.feed).attach = .ok (h, p)) :
    s.act w.command = (((s.setHub w.feed h).keep (w.subscription s.now p)).1,
      .attached (s.subscriptions.length + 1) w.seconds?) := by
  obtain ⟨hlen, hdown, -⟩ := Service.of_not_refuses hnot
  cases w with
  | log =>
    replace hat : s.service.log.attach = .ok (h, p) := hat
    simp [Wish.command, act, withService, hrel, Service.attachLog_of_running hdown, hat, keep,
      setHub, Wish.feed, Wish.subscription, Wish.seconds?]
  | stat n =>
    replace hat : s.service.stat.attach = .ok (h, p) := hat
    replace hend : ¬ endlessWindow ≤ n := hend
    simp [Wish.command, act, withService, hrel, Service.attachStat_of_running hlen hdown, hat, hend,
      keep, setHub, Wish.feed, Wish.subscription, Wish.seconds?]

/-- A window without an end breaks the request down when the hub has made the queue. -/
theorem act_of_endless {w : Wish} {h : Hub} {p : Place} (hrel : s.service.released = false)
    (hnot : ∀ f, ¬ s.service.Refuses w f) (hend : w.IsEndless)
    (hat : (s.service.hub w.feed).attach = .ok (h, p)) :
    s.act w.command = (s.setHub w.feed (h.detach p), .failed .breakdown) := by
  obtain ⟨hlen, hdown, -⟩ := Service.of_not_refuses hnot
  cases w with
  | log => exact hend.elim
  | stat n =>
    replace hat : s.service.stat.attach = .ok (h, p) := hat
    replace hend : endlessWindow ≤ n := hend
    simp [Wish.command, act, withService, hrel, Service.attachStat_of_running hlen hdown, hat, hend,
      setHub, Wish.feed]

/-- A request for the log feed breaks down only for a queue that cannot be made. -/
theorem attachLog_breakdown_iff (hr : Reached s g) (hrel : s.service.released = false) :
    (s.act .attachLog).2 = .failed .breakdown ↔
      s.service.isShutDown = false ∧ largestQueue < s.service.log.settings.subscriber := by
  have hlen : Wish.log ≠ .stat 0 := by simp
  constructor
  · intro hfail
    by_cases hrefused : ∃ f, s.service.Refuses .log f
    · obtain ⟨f, hf⟩ := hrefused
      have hact : s.act .attachLog = (s, .failed f) := act_of_refuses hrel hf
      rw [hact] at hfail
      cases hf with
      | late => cases hfail
      | large _ hdown hlarge => exact ⟨hdown, hlarge⟩
    · have hnot : ∀ f, ¬ s.service.Refuses .log f := fun f hf => hrefused ⟨f, hf⟩
      obtain ⟨h, hat, -⟩ := hr.attach_entered hrel hnot
      have hact : s.act .attachLog = _ := act_of_attach hrel hnot id hat
      rw [hact] at hfail
      cases hfail
  · rintro ⟨hdown, hlarge⟩
    have hact : s.act .attachLog = _ := act_of_refuses hrel (.large hlen hdown hlarge)
    rw [hact]

/-- **A request for a subscription is refused without a trace, or enters one subscriber.**
    Whatever goes on in the service, a request that is turned away changes nothing at all; any
    other puts one subscriber into the set of the hub that was asked, and the other hub stays as
    it is. Only a window without an end leaves a subscriber without a subscription: it has its
    number and is in the set and in the metric, but nobody holds its queue. -/
theorem attach_outcome (hr : Reached s g) (hrel : s.service.released = false) (w : Wish) :
    Outcome s w (s.act w.command) := by
  by_cases hrefused : ∃ f, s.service.Refuses w f
  · obtain ⟨f, hf⟩ := hrefused
    rw [act_of_refuses hrel hf]
    exact .refused hf
  · have hnot : ∀ f, ¬ s.service.Refuses w f := fun f hf => hrefused ⟨f, hf⟩
    obtain ⟨h, hat, he⟩ := hr.attach_entered hrel hnot
    by_cases hend : w.IsEndless
    · rw [act_of_endless hrel hnot hend hat]
      exact .abandoned hnot hend he.detach
    · rw [act_of_attach hrel hnot hend hat]
      exact .subscribed hnot hend he

/-- While calls wait for a subscriber that does not read, windows of no length and without an end
    are asked for. -/
theorem attach_outcome_endless : ∃ s : Session Unit, s.service.released = false ∧
    s.service.log.waiting.length = 1 ∧
    Outcome s (.stat 0) (s.act (.attachStat 0)) ∧
    Outcome s (.stat endlessWindow) (s.act (.attachStat endlessWindow)) ∧
    (s.act (.attachStat endlessWindow)).2 = .failed .breakdown ∧
    (s.act (.attachStat endlessWindow)).1.service.stat.queues = [⟨[], false⟩] ∧
    (s.act (.attachStat endlessWindow)).1.service.stat.reading? (.active .stat) = some 1 := by
  have ho : (open? (AccessList.ofRows []) ⟨1, 1, some 5⟩ {} : Option (Session Unit)) =
      some _ := rfl
  have hcalled := reached_perform (.call (some 4) (.report "a" "/m"))
    (reached_perform .attachLog (reached_open? ho).1)
  exact ⟨_, rfl, rfl, attach_outcome hcalled rfl (.stat 0),
    attach_outcome hcalled rfl (.stat endlessWindow), rfl, rfl, rfl⟩

/-- A request that fails may leave a trace. -/
theorem attach_failure_not_traceless : ¬ ∀ (s : Session Unit) (g : List Telling) (w : Wish)
    (f : Failure), Reached s g → s.service.released = false →
      (s.act w.command).2 = .failed f →
        ∀ feed, ((s.act w.command).1.service.hub feed).members = (s.service.hub feed).members := by
  intro hall
  have ho : (open? (AccessList.ofRows []) ⟨1, 1, some 5⟩ {} : Option (Session Unit)) =
      some _ := rfl
  have hsame := hall _ _ (.stat endlessWindow) .breakdown (reached_open? ho).1 rfl rfl .stat
  cases hsame

end Session

end CallFeed

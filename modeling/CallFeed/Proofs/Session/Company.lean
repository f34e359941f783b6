/-
  CallFeed — a subscriber that keeps up is not noticed by anybody else.

  Next to one run of a service there is another in which the same is done, and in which there is
  one subscriber more, which reads its queue, or gives it up, without waiting for time to pass.

  * `Command.renumber` and `Reply.renumber` are what is asked and answered under the numbers
    that the subscriptions have when there is a guest;
  * `Alike.perform`: sessions that are alike stay so when the same command is done to both, and
    answer the same; `Alike.perform_right` is the same for a command of the guest;
  * `Accompanied` are two such runs with their answers, and `guest_unnoticed` is what holds
    of them if nobody ever waits for the guest.
-/
import CallFeed.Proofs.Session.Guest
import CallFeed.Proofs.Session.Pace

namespace CallFeed

/-! ## Numbers of subscriptions -/

/-- The number of a subscription when there is a guest. -/
def Guest.renumber (x : Guest) : Nat → Nat
  | 0 => 0
  | i + 1 => shift x.index i + 1

/-- The same command to the session with the guest. -/
def Command.renumber {α : Type} (x : Guest) : Command α → Command α
  | .detach id => .detach (x.renumber id)
  | .receive id => .receive (x.renumber id)
  | .drain id => .drain (x.renumber id)
  | .poll id => .poll (x.renumber id)
  | .snapshot id => .snapshot (x.renumber id)
  | .stream id n => .stream (x.renumber id) n
  | c => c

/-- The same answer of the session with the guest. -/
def Reply.renumber {α : Type} (x : Guest) : Reply α → Reply α
  | .attached id seconds => .attached (x.renumber id) seconds
  | r => r

/-- The number of the subscription that is read or given up. -/
def Command.subscription? {α : Type} : Command α → Option Nat
  | .detach id | .receive id | .drain id | .poll id | .snapshot id | .stream id _ => some id
  | _ => none

namespace Session

variable {α : Type} {x : Guest} {s s₁ s₂ : Session α}

/-! ## Journals grow -/

theorem grows_makeCall (r : Request α) (s : Session α) : Grows s (s.makeCall r) := by
  rw [makeCall_eq]
  have hcall : Grows s (s.enterCall r) := fun _ => List.prefix_refl _
  split
  · exact hcall.trans ((grows_tell _ _ _ _).trans (grows_settle _))
  · exact hcall

theorem grows_makeCalls (r : Request α) (n : Nat) (s : Session α) :
    Grows s (s.makeCalls r n).1 := by
  induction n generalizing s with
  | zero => exact .refl s
  | succ n ih => exact (grows_makeCall r s).trans (ih _)

/-! ## Doing the same to both -/

/-- What was done to both sessions has left them alike, and was answered alike, if nobody has
    waited for the guest. -/
def Follows (x : Guest) (r₁ r₂ : Session α × Reply α) : Prop :=
  Quiet x r₂.1 → Alike x r₁.1 r₂.1 ∧ r₂.2 = r₁.2.renumber x

namespace Alike

theorem find (ha : Alike x s₁ s₂) (id : Nat) :
    s₂.find (x.renumber id) = (s₁.find id).map (·.moved x) := by
  cases id with
  | zero => rfl
  | succ i =>
    show s₂.find (shift x.index i + 1) = _
    simp only [Session.find, ha.subscription]
    rcases s₁.subscriptions[i]? with _ | _ | y <;> rfl

theorem findLog (ha : Alike x s₁ s₂) (id : Nat) :
    s₂.findLog (x.renumber id) = (s₁.findLog id).map (shift (x.at? .log)) := by
  unfold Session.findLog
  rw [ha.find]
  rcases s₁.find id with r | p | f <;> rfl

theorem findStat (ha : Alike x s₁ s₂) (id : Nat) :
    s₂.findStat (x.renumber id) = (s₁.findStat id).map (·.moved (x.at? .stat)) := by
  unfold Session.findStat
  rw [ha.find]
  rcases s₁.find id with r | p | f <;> rfl

theorem withFound (ha : Alike x s₁ s₂) {β : Type} {found₁ found₂ : Except Refusal β} {m : β → β}
    {f₁ f₂ : β → Session α × Reply α} (hfound : found₂ = found₁.map m)
    (hf : ∀ y, found₁ = .ok y → Follows x (f₁ y) (f₂ (m y))) :
    Follows x (s₁.withFound found₁ f₁) (s₂.withFound found₂ f₂) := by
  subst hfound
  cases found₁ with
  | ok y => exact hf y rfl
  | error r => exact fun _ => ⟨ha, rfl⟩

theorem withService (ha : Alike x s₁ s₂) {f : Session α → Session α × Reply α}
    (hf : Follows x (f s₁) (f s₂)) : Follows x (s₁.withService f) (s₂.withService f) := by
  unfold Session.withService
  rw [ha.released]
  split
  · exact fun _ => ⟨ha, rfl⟩
  · exact hf

/-! ### Calls -/

theorem authorize_eq (ha : Alike x s₁ s₂) (headers : List Header) (method : String) :
    s₂.service.authorize headers method = s₁.service.authorize headers method := by
  unfold Service.authorize
  rw [ha.access]

theorem consider_eq (ha : Alike x s₁ s₂) (r : Request α) :
    s₂.service.consider r = s₁.service.consider r := by
  have hexempt : ∀ e, s₂.service.exemptNotices e = s₁.service.exemptNotices e := fun e => by
    rw [Service.exemptNotices, ha.rules, ← Service.exemptNotices]
  cases r <;> simp only [Service.consider, Service.letIn, ha.authorize_eq, hexempt]

theorem enterCall (ha : Alike x s₁ s₂) (r : Request α) :
    Alike x (s₁.enterCall r) (s₂.enterCall r) := by
  refine { ha with calls := ?_ }
  rw [Session.enterCall, Session.enterCall, ha.calls, ha.consider_eq]

theorem makeCall (ha : Alike x s₁ s₂) (r : Request α) (hq : Quiet x (s₂.makeCall r)) :
    Alike x (s₁.makeCall r) (s₂.makeCall r) := by
  rw [makeCall_eq] at hq ⊢
  rw [makeCall_eq]
  rw [ha.consider_eq, ha.calls, ha.rules] at hq ⊢
  split
  · rename_i e he
    rw [he] at hq
    exact ((ha.enterCall r).tell _ e _).settle hq
  · exact ha.enterCall r

theorem isPending_eq (ha : Alike x s₁ s₂) (t : Ticket) : s₂.isPending t = s₁.isPending t := by
  rw [isPending, ha.calls, ← isPending]

theorem answer?_eq (ha : Alike x s₁ s₂) (t : Ticket) : s₂.answer? t = s₁.answer? t := by
  rw [answer?, ha.isPending_eq, ha.calls, ← answer?]

theorem makeCalls (ha : Alike x s₁ s₂) (r : Request α) (n : Nat)
    (hq : Quiet x (s₂.makeCalls r n).1) :
    Alike x (s₁.makeCalls r n).1 (s₂.makeCalls r n).1 ∧
      (s₂.makeCalls r n).2 = (s₁.makeCalls r n).2 := by
  induction n generalizing s₁ s₂ with
  | zero => exact ⟨ha, rfl⟩
  | succ n ih =>
    have ha' := ha.makeCall r (hq.before (grows_makeCalls r n _))
    obtain ⟨hend, hwaiting⟩ := ih ha' hq
    refine ⟨hend, ?_⟩
    unfold Session.makeCalls
    simp only [hwaiting, ha.calls, ha'.isPending_eq]

/-! ### Subscribing -/

theorem keep (ha : Alike x s₁ s₂) (y : Subscription) :
    Alike x (s₁.keep y).1 (s₂.keep (y.moved x)).1 ∧
      (s₂.keep (y.moved x)).2 = x.renumber (s₁.keep y).2 := by
  refine ⟨{ ha with count := ?_, known := ?_, subscription := fun i => ?_, own := ?_ }, ?_⟩
  · simp [Session.keep, ha.count, shift_succ ha.known]
  · intro i hi
    exact Nat.le_trans (ha.known i hi) (by simp [Session.keep])
  · rcases Nat.lt_trichotomy i s₁.subscriptions.length with hlt | rfl | hgt
    · have hlt₂ : shift x.index i < s₂.subscriptions.length :=
        ha.count ▸ shift_lt_shift.2 hlt
      simp only [Session.keep, List.getElem?_append_left hlt, List.getElem?_append_left hlt₂]
      exact ha.subscription i
    · simp [Session.keep, ← ha.count]
    · have hgt₂ : s₂.subscriptions.length < shift x.index i := ha.count ▸ shift_lt_shift.2 hgt
      have hnone : ∀ {l : List (Option Subscription)} {j : Nat} (z : Option Subscription),
          l.length < j → (l ++ [z])[j]? = none := fun z hj =>
        List.getElem?_eq_none (by rwa [List.length_append, List.length_singleton])
      simp only [Session.keep, hnone _ hgt, hnone _ hgt₂]
      rfl
  · intro i z hi hz
    have hlt : i < s₂.subscriptions.length := by
      rw [ha.count, hi, shift, if_neg (Nat.not_lt.2 (ha.known i hi))]
      exact Nat.lt_succ_of_le (ha.known i hi)
    simp only [Session.keep, List.getElem?_append_left hlt] at hz
    exact ha.own i z hi hz
  · simp [Session.keep, Guest.renumber, ha.count]

theorem attachLog (ha : Alike x s₁ s₂) :
    Follows x (s₁.act .attachLog) (s₂.act .attachLog) := by
  refine ha.withService fun _ => ?_
  by_cases hdown : s₁.service.isShutDown = true
  · have hdown₂ := ha.isShutDown.trans hdown
    simp only [Service.attachLog, hdown, hdown₂, if_true]
    exact ⟨ha, rfl⟩
  · have hdown₂ : ¬ s₂.service.isShutDown = true := ha.isShutDown ▸ hdown
    cases hat : s₁.service.log.attach with
    | error f =>
      have hat₂ : s₂.service.log.attach = .error f := (ha.hub .log).attach_error_iff.2 hat
      simp only [Service.attachLog, if_neg hdown, if_neg hdown₂, hat, hat₂]
      exact ⟨ha, rfl⟩
    | ok r =>
      obtain ⟨h₁, p⟩ := r
      obtain ⟨h₂, hat₂, hb⟩ := (ha.hub .log).attach_ok hat
      have hat₂ : s₂.service.log.attach = .ok (h₂, shift (x.at? .log) p) := hat₂
      simp only [Service.attachLog, if_neg hdown, if_neg hdown₂, hat, hat₂]
      obtain ⟨ha', hid⟩ := (ha.setHub .log hb).keep (.log p)
      exact ⟨ha', congrArg (Reply.attached · none) hid⟩

theorem attachStat (ha : Alike x s₁ s₂) (seconds : Nat) :
    Follows x (s₁.act (.attachStat seconds)) (s₂.act (.attachStat seconds)) := by
  refine ha.withService fun _ => ?_
  cases hwindow : windowOf seconds with
  | error f =>
    simp only [Service.attachStat, hwindow]
    exact ⟨ha, rfl⟩
  | ok n =>
    by_cases hdown : s₁.service.isShutDown = true
    · have hdown₂ := ha.isShutDown.trans hdown
      simp only [Service.attachStat, hwindow, hdown, hdown₂, if_true]
      exact ⟨ha, rfl⟩
    · have hdown₂ : ¬ s₂.service.isShutDown = true := ha.isShutDown ▸ hdown
      cases hat : s₁.service.stat.attach with
      | error f =>
        have hat₂ : s₂.service.stat.attach = .error f := (ha.hub .stat).attach_error_iff.2 hat
        simp only [Service.attachStat, hwindow, if_neg hdown, if_neg hdown₂, hat, hat₂]
        exact ⟨ha, rfl⟩
      | ok r =>
        obtain ⟨h₁, p⟩ := r
        obtain ⟨h₂, hat₂, hb⟩ := (ha.hub .stat).attach_ok hat
        have hat₂ : s₂.service.stat.attach = .ok (h₂, shift (x.at? .stat) p) := hat₂
        simp only [Service.attachStat, hwindow, if_neg hdown, if_neg hdown₂, hat, hat₂, ha.now]
        by_cases hend : endlessWindow ≤ n
        · simp only [if_pos hend]
          exact ⟨{ ha.setHub .stat (hb.detach p) with now := rfl }, rfl⟩
        · simp only [if_neg hend]
          obtain ⟨ha', hid⟩ := (ha.setHub .stat hb).keep (.stat (.start p s₁.now n))
          exact ⟨{ ha' with now := rfl }, congrArg (Reply.attached · (some seconds)) hid⟩

/-! ### Shutting down -/

theorem shutDown (ha : Alike x s₁ s₂) :
    Alike x s₁.shutDown.1 s₂.shutDown.1 ∧ s₂.shutDown.2 = s₁.shutDown.2 := by
  by_cases hdown : s₁.service.isShutDown = true
  · have hdown₂ := ha.isShutDown.trans hdown
    simp only [Session.shutDown, Service.shutDown, hdown, hdown₂, if_true]
    exact ⟨{ ha with }, trivial⟩
  · have hdown₂ : ¬ s₂.service.isShutDown = true := ha.isShutDown ▸ hdown
    simp only [Session.shutDown, Service.shutDown, if_neg hdown, if_neg hdown₂]
    refine ⟨{ ha with isShutDown := rfl, hub := fun feed => ?_ }, trivial⟩
    cases feed
    · exact (ha.hub .log).requestClose
    · exact (ha.hub .stat).requestClose

theorem fireWatchers (ha : Alike x s₁ s₂) (n : Nat) :
    Alike x (s₁.fireWatchers n) (s₂.fireWatchers n) := by
  induction n generalizing s₁ s₂ with
  | zero => exact ha
  | succ n ih =>
    unfold Session.fireWatchers
    rw [ha.released]
    split
    · exact ha
    · exact ih ha.shutDown.1

theorem watcherDone_eq (ha : Alike x s₁ s₂) : s₂.watcherDone = s₁.watcherDone := by
  rw [watcherDone, ha.signalled, ha.isShutDown, ha.released, ← watcherDone]

theorem isClosed_eq (ha : Alike x s₁ s₂) : s₂.service.isClosed = s₁.service.isClosed := by
  have hlog : s₂.service.log.isStopped = s₁.service.log.isStopped := (ha.hub .log).isStopped_eq
  have hstat : s₂.service.stat.isStopped = s₁.service.stat.isStopped := (ha.hub .stat).isStopped_eq
  rw [Service.isClosed, hlog, hstat, ← Service.isClosed]

theorem release (ha : Alike x s₁ s₂) :
    Alike x { s₁ with service := s₁.service.release }
      { s₂ with service := s₂.service.release } := by
  refine { ha with released := rfl, hub := fun feed => ?_ }
  cases feed
  · exact (ha.hub .log).requestClose.dropSender
  · exact (ha.hub .stat).requestClose.dropSender

/-! ### Commands -/

theorem act (ha : Alike x s₁ s₂) (c : Command α) :
    Follows x (s₁.act c) (s₂.act (c.renumber x)) := by
  cases c with
  | call times r =>
    cases times with
    | none =>
      intro hq
      have ha' := ha.makeCall r hq
      refine ⟨ha', ?_⟩
      simp only [Command.renumber, Session.act, ha.calls, ha'.answer?_eq]
      rfl
    | some n =>
      intro hq
      obtain ⟨ha', hwaiting⟩ := ha.makeCalls r n hq
      refine ⟨ha', ?_⟩
      simp only [Command.renumber, Session.act, hwaiting]
      rfl
  | authorize headers method =>
    refine fun _ => ⟨ha, ?_⟩
    simp only [Command.renumber, Session.act, ha.authorize_eq]
    split <;> rfl
  | check consumer method =>
    refine ha.withService fun _ => ⟨ha, ?_⟩
    simp only [ha.access]
    split <;> rfl
  | attachLog => exact ha.attachLog
  | attachStat seconds => exact ha.attachStat seconds
  | detach id =>
    refine ha.withFound (ha.find id) fun y hy _ => ?_
    obtain ⟨i, rfl, -⟩ := find_eq_ok hy
    exact ⟨ha.giveUp i y, rfl⟩
  | receive id =>
    refine ha.withFound (ha.findLog id) fun p _ hq => ?_
    have hnext := ha.receiveLog p
    generalize s₁.receiveLog p = r₁, s₂.receiveLog (shift (x.at? .log) p) = r₂ at *
    obtain ⟨t₁, r⟩ := r₁
    obtain ⟨t₂, r'⟩ := r₂
    obtain ⟨ha', rfl⟩ := hnext
    cases r' with
    | event | empty => exact ⟨ha', rfl⟩
    | closed => exact ⟨{ ha' with }, rfl⟩
  | drain id =>
    refine ha.withFound (ha.findLog id) fun p _ hq => ?_
    have hupcoming : s₂.service.log.upcoming (shift (x.at? .log) p) = s₁.service.log.upcoming p :=
      (ha.hub .log).upcoming_eq p
    have hnext := ha.drainLog p (s₁.service.log.upcoming p + 1)
    simp only [drainAllLog, hupcoming] at hq ⊢
    generalize Session.drainLog p (s₁.service.log.upcoming p + 1) s₁ = r₁,
      Session.drainLog (shift (x.at? .log) p) (s₁.service.log.upcoming p + 1) s₂ = r₂ at *
    obtain ⟨t₁, taken, stop⟩ := r₁
    obtain ⟨t₂, taken', stop'⟩ := r₂
    cases stop' with
    | taken | empty =>
      obtain ⟨ha', he⟩ := hnext hq
      obtain ⟨rfl, rfl⟩ := Prod.mk.inj he
      exact ⟨ha', rfl⟩
    | closed =>
      obtain ⟨ha', he⟩ := hnext fun o ho => hq o ho
      obtain ⟨rfl, rfl⟩ := Prod.mk.inj he
      exact ⟨{ ha' with }, rfl⟩
  | poll id =>
    refine ha.withFound (ha.findStat id) fun f hf _ => ?_
    obtain ⟨i, rfl, -⟩ := findStat_eq_ok hf
    obtain ⟨ha', he⟩ := ha.pollStat i f
    exact ⟨ha', congrArg (fun r => Reply.polled r.2) he⟩
  | snapshot id =>
    refine ha.withFound (ha.findStat id) fun f hf hq => ?_
    obtain ⟨i, rfl, -⟩ := findStat_eq_ok hf
    have hnext := ha.awaitSnapshot i f
    simp only [Guest.renumber, Nat.add_sub_cancel] at hq ⊢
    generalize s₁.awaitSnapshot i f = r₁,
      s₂.awaitSnapshot (shift x.index i) (f.moved (x.at? .stat)) = r₂ at *
    obtain ⟨t₁, f₁, y⟩ := r₁
    obtain ⟨t₂, f₂, y'⟩ := r₂
    cases y' with
    | none | some z =>
      obtain ⟨ha', he⟩ := hnext hq
      obtain ⟨rfl, rfl⟩ := Prod.mk.inj he
      exact ⟨ha', rfl⟩
  | stream id n =>
    refine ha.withFound (ha.find id) fun y hy hq => ?_
    obtain ⟨i, rfl, -⟩ := find_eq_ok hy
    cases y with
    | log p =>
      obtain ⟨ha', he⟩ := ha.drainLog p n (hq.before (grows_giveUp _ _ _))
      exact ⟨ha'.giveUp i (.log p),
        congrArg (fun r : List Event × StreamEnd => Reply.drained r.1 r.2) he⟩
    | stat f =>
      obtain ⟨ha', he⟩ := ha.streamStat i n f (hq.before (grows_giveUp _ _ _))
      exact ⟨ha'.giveUp i (.stat f),
        congrArg (fun r : List Snapshot × StreamEnd => Reply.snapshots r.1 r.2) he⟩
  | advance ms =>
    intro hq
    have hend := ha.advanceTo (s₁.now + ms)
    simp only [Command.renumber, Session.act, ha.now] at hq ⊢
    exact ⟨hend hq, rfl⟩
  | shutDown =>
    refine ha.withService fun _ => ?_
    obtain ⟨ha', hfirst⟩ := ha.shutDown
    exact ⟨ha', congrArg Reply.flag hfirst⟩
  | isShutDown => exact ha.withService fun _ => ⟨ha, congrArg Reply.flag ha.isShutDown⟩
  | awaitClosed =>
    refine ha.withService fun _ => ?_
    simp only [ha.isClosed_eq]
    split
    · exact ⟨{ ha with }, rfl⟩
    · exact ⟨ha, rfl⟩
  | watch =>
    refine ha.withService fun _ => ?_
    have hnext : Alike x { s₁ with watchers := s₁.watchers + 1 }
        { s₂ with watchers := s₂.watchers + 1 } :=
      { ha with watchers := congrArg (· + 1) ha.watchers }
    simp only [ha.signalled, ha.watchers] at hnext ⊢
    split
    · exact ⟨hnext.fireWatchers 1, rfl⟩
    · exact ⟨hnext, rfl⟩
  | signal =>
    intro _
    have hnext : Alike x { s₁ with signalled := true } { s₂ with signalled := true } :=
      { ha with signalled := rfl }
    have hcount : Session.fireWatchers s₂.watchers { s₂ with signalled := true } =
        Session.fireWatchers s₁.watchers { s₂ with signalled := true } :=
      congrArg (Session.fireWatchers · _) ha.watchers
    simp only [Command.renumber, Session.act, ha.watcherDone_eq, hcount]
    split
    · exact ⟨hnext, rfl⟩
    · exact ⟨hnext.fireWatchers _, rfl⟩
  | watchers =>
    refine fun _ => ⟨ha, ?_⟩
    simp only [Command.renumber, Session.act, ha.watcherDone_eq, ha.watchers]
    rfl
  | reauthorize => exact ha.withService fun _ => ⟨ha, rfl⟩
  | release => exact ha.withService fun _ => ⟨ha.release, rfl⟩

theorem perform (ha : Alike x s₁ s₂) (c : Command α) :
    Follows x (s₁.perform c) (s₂.perform (c.renumber x)) := by
  intro hq
  obtain ⟨ha', hr⟩ := ha.act c (hq.before (grows_settle _))
  exact ⟨ha'.settle hq, hr⟩

/-! ### What the guest does -/

theorem own_of_find (ha : Alike x s₁ s₂) {i : Nat} {y : Subscription} (hi : x.index = some i)
    (hy : s₂.find (i + 1) = .ok y) : y.feed = x.feed ∧ y.place = x.place := by
  obtain ⟨j, hj, hsub⟩ := find_eq_ok hy
  obtain rfl := Nat.succ.inj hj
  exact ha.own i y hi hsub

theorem own_of_findLog (ha : Alike x s₁ s₂) {i : Nat} {p : Place} (hi : x.index = some i)
    (hp : s₂.findLog (i + 1) = .ok p) : x.feed = .log ∧ p = x.place := by
  obtain ⟨j, hj, hsub⟩ := findLog_eq_ok hp
  obtain rfl := Nat.succ.inj hj
  obtain ⟨hfeed, hplace⟩ := ha.own i _ hi hsub
  exact ⟨hfeed.symm, hplace⟩

theorem own_of_findStat (ha : Alike x s₁ s₂) {i : Nat} {f : StatFeed} (hi : x.index = some i)
    (hf : s₂.findStat (i + 1) = .ok f) : x.feed = .stat ∧ f.place = x.place := by
  obtain ⟨j, hj, hsub⟩ := findStat_eq_ok hf
  obtain rfl := Nat.succ.inj hj
  obtain ⟨hfeed, hplace⟩ := ha.own i _ hi hsub
  exact ⟨hfeed.symm, hplace⟩

theorem withFound_right (ha : Alike x s₁ s₂) {β : Type} {found : Except Refusal β}
    {f : β → Session α × Reply α}
    (hf : ∀ y, found = .ok y → (f y).1.now = s₂.now → Quiet x (f y).1 → Alike x s₁ (f y).1)
    (hnow : (s₂.withFound found f).1.now = s₂.now) (hq : Quiet x (s₂.withFound found f).1) :
    Alike x s₁ (s₂.withFound found f).1 := by
  cases found with
  | ok y => exact hf y rfl hnow hq
  | error r => exact ha

/-- A command of the guest, which takes no time. -/
theorem act_right (ha : Alike x s₁ s₂) (hs : Settled s₁) {c : Command α} {i : Nat}
    (hi : x.index = some i) (hc : c.subscription? = some (i + 1))
    (hnow : (s₂.act c).1.now = s₂.now) (hq : Quiet x (s₂.act c).1) :
    Alike x s₁ (s₂.act c).1 := by
  cases c with
  | detach id =>
    cases hc
    refine ha.withFound_right (fun y hy _ _ => ?_) hnow hq
    obtain ⟨hfeed, hplace⟩ := ha.own_of_find hi hy
    exact ha.giveUp_right hi hfeed hplace
  | receive id =>
    cases hc
    refine ha.withFound_right (fun p hp _ _ => ?_) hnow hq
    obtain ⟨hfeed, rfl⟩ := ha.own_of_findLog hi hp
    have ha' := ha.receiveLog_right hfeed
    generalize s₂.receiveLog x.place = r₂ at *
    obtain ⟨t₂, r⟩ := r₂
    cases r with
    | event | empty => exact ha'
    | closed => exact { ha' with }
  | drain id =>
    cases hc
    refine ha.withFound_right (fun p hp _ hq => ?_) hnow hq
    obtain ⟨hfeed, rfl⟩ := ha.own_of_findLog hi hp
    have hnext := ha.drainLog_right hs hfeed (s₂.service.log.upcoming x.place + 1)
    simp only [drainAllLog] at hq ⊢
    generalize Session.drainLog x.place (s₂.service.log.upcoming x.place + 1) s₂ = r₂ at *
    obtain ⟨t₂, taken, stop⟩ := r₂
    cases stop with
    | taken | empty => exact hnext hq
    | closed => exact { hnext fun o ho => hq o ho with }
  | poll id =>
    cases hc
    refine ha.withFound_right (fun f hf _ _ => ?_) hnow hq
    obtain ⟨hfeed, hplace⟩ := ha.own_of_findStat hi hf
    exact ha.pollStat_right hi hfeed hplace
  | snapshot id =>
    cases hc
    refine ha.withFound_right (fun f hf hnow hq => ?_) hnow hq
    obtain ⟨hfeed, hplace⟩ := ha.own_of_findStat hi hf
    have hnext := ha.awaitSnapshot_right hs hi hfeed hplace
    simp only [Nat.add_sub_cancel] at hnow hq ⊢
    generalize s₂.awaitSnapshot i f = r₂ at *
    obtain ⟨t₂, f₂, y⟩ := r₂
    cases y with
    | none | some z => exact (hnext hnow hq).1
  | stream id n =>
    cases hc
    refine ha.withFound_right (fun y hy hnow hq => ?_) hnow hq
    obtain ⟨hfeed, hplace⟩ := ha.own_of_find hi hy
    cases y with
    | log p =>
      obtain rfl : p = x.place := hplace
      have hread := ha.drainLog_right hs hfeed.symm n (hq.before (grows_giveUp _ _ _))
      exact hread.giveUp_right hi hfeed rfl
    | stat f =>
      simp only [Nat.add_sub_cancel] at hnow hq ⊢
      have hread := ha.streamStat_right hs hi hfeed.symm hplace n
        ((now_giveUp _ _ _).symm.trans hnow) (hq.before (grows_giveUp _ _ _))
      exact hread.giveUp_right hi hfeed hplace
  | _ => cases hc

theorem perform_right (ha : Alike x s₁ s₂) (hs : Settled s₁) {c : Command α} {i : Nat}
    (hi : x.index = some i) (hc : c.subscription? = some (i + 1))
    (hnow : (s₂.perform c).1.now = s₂.now) (hq : Quiet x (s₂.perform c).1) :
    Alike x s₁ (s₂.perform c).1 :=
  (ha.act_right hs hi hc ((aside_settle _).now.symm.trans hnow)
    (hq.before (grows_settle _))).settle_right hs hq

end Alike

/-! ## The guest comes -/

/-- The guest that a command brings in. A window that never ends brings in a guest that is given
    no subscription. -/
def guest? (s : Session α) (c : Command α) : Option Guest :=
  if s.service.released then none
  else
    match c with
    | .attachLog =>
      match s.service.attachLog with
      | (_, .ok p) => some ⟨.log, p, some s.subscriptions.length⟩
      | (_, .error _) => none
    | .attachStat seconds =>
      match s.service.attachStat s.now seconds with
      | (_, .ok f) => some ⟨.stat, f.place, some s.subscriptions.length⟩
      | (service, .error _) =>
        if s.service.stat.queues.length < service.stat.queues.length then
          some ⟨.stat, s.service.stat.queues.length, none⟩
        else none
    | _ => none

/-- A command that brings in a guest enters it at the hub of its feed, and gives it a subscription
    or leaves it without one, its queue given up. -/
theorem act_of_guest? {c : Command α} (hx : s.guest? c = some x) :
    ∃ h, (s.service.hub x.feed).attach = .ok (h, x.place) ∧
      ((∃ y seconds, y.feed = x.feed ∧ y.place = x.place ∧
          x.index = some s.subscriptions.length ∧
          s.act c = (((s.setHub x.feed h).keep y).1,
            .attached (s.subscriptions.length + 1) seconds)) ∨
        ∃ f, x.index = none ∧ s.act c = (s.setHub x.feed (h.detach x.place), .failed f)) := by
  unfold guest? at hx
  split at hx
  · cases hx
  · rename_i hreleased
    cases c with
    | attachLog =>
      simp only [act, withService, if_neg hreleased]
      rcases hat : s.service.attachLog with ⟨service, f | p⟩ <;> simp only [hat] at hx
      · cases hx
      · cases hx
        obtain ⟨h, hlog, rfl⟩ := Service.attachLog_eq_ok hat
        exact ⟨h, hlog, Or.inl ⟨.log p, none, rfl, rfl, rfl, rfl⟩⟩
    | attachStat seconds =>
      simp only [act, withService, if_neg hreleased]
      rcases hat : s.service.attachStat s.now seconds with ⟨service, f | f⟩ <;>
        simp only [hat] at hx
      · split at hx
        · rename_i hmore
          cases hx
          obtain rfl | ⟨h, p, hstat, rfl⟩ := Service.attachStat_eq_error hat
          · exact absurd hmore (Nat.lt_irrefl _)
          · obtain ⟨-, rfl, -⟩ := Hub.attach_eq_ok hstat
            exact ⟨h, hstat, Or.inr ⟨f, rfl, rfl⟩⟩
        · cases hx
      · cases hx
        obtain ⟨h, p, hstat, rfl, rfl⟩ := Service.attachStat_eq_ok hat
        exact ⟨h, hstat,
          Or.inl ⟨.stat (.start p s.now seconds), some seconds, rfl, rfl, rfl, rfl⟩⟩
    | _ => cases hx

theorem Alike.entered {g : List Telling} (hr : Reached s g) (feed : Feed) {h : Hub} {p : Place}
    (hat : (s.service.hub feed).attach = .ok (h, p)) :
    Alike ⟨feed, p, none⟩ s (s.setHub feed h) := by
  have hsound := hr.sound
  have hhub : ∀ feed', Hub.Beside ((⟨feed, p, none⟩ : Guest).at? feed') (s.service.hub feed')
      ((s.setHub feed h).service.hub feed') := by
    intro feed'
    by_cases hf : feed' = feed
    · subst hf
      rw [service_setHub_hub_self, Guest.at?_of_feed rfl]
      exact (hsound.arises feed').beside hat
    · rw [service_setHub_hub_ne s hf, Guest.at?, if_neg hf]
      exact .refl _
  -- nobody who was there before is at the place of the guest
  have hsame : ∀ (i : Nat) (y : Subscription), s.subscriptions[i]? = some (some y) →
      y.moved ⟨feed, p, none⟩ = y := by
    intro i y hy
    have hlt := Hub.lt_of_held (hsound.owned.held i y hy)
    have hkept : shift ((⟨feed, p, none⟩ : Guest).at? y.feed) y.place = y.place := by
      by_cases hf : y.feed = feed
      · obtain ⟨-, rfl, -⟩ := Hub.attach_eq_ok hat
        rw [Guest.at?_of_feed hf.symm]
        exact shift_of_lt (hf ▸ hlt)
      · rw [Guest.at?, if_neg hf]
        rfl
    cases y with
    | log p' => exact congrArg Subscription.log hkept
    | stat f => exact congrArg (fun p' => Subscription.stat { f with place := p' }) hkept
  have hsub : ∀ i : Nat, s.subscriptions[i]? =
      s.subscriptions[i]?.map (Option.map (·.moved ⟨feed, p, none⟩)) := by
    intro i
    rcases hi : s.subscriptions[i]? with _ | _ | y
    · rfl
    · rfl
    · simp [hsame i y hi]
  cases feed <;> exact
    { now := rfl, calls := rfl, signalled := rfl, watchers := rfl, access := rfl, rules := rfl
      isShutDown := rfl, released := rfl, hub := hhub, count := rfl, known := by simp
      subscription := hsub, own := by simp }

/-- The guest is given a subscription. -/
theorem Alike.keep_right {feed : Feed} {p : Place} (ha : Alike ⟨feed, p, none⟩ s₁ s₂)
    {y : Subscription} (hfeed : y.feed = feed) (hplace : y.place = p) :
    Alike ⟨feed, p, some s₁.subscriptions.length⟩ s₁ (s₂.keep y).1 := by
  have hlen : s₂.subscriptions.length = s₁.subscriptions.length := ha.count
  refine { ha with count := ?_, known := ?_, subscription := fun i => ?_, own := ?_ }
  · simp [Session.keep, hlen, shift]
  · rintro i ⟨⟩
    exact Nat.le_refl _
  · by_cases hlt : i < s₁.subscriptions.length
    · rw [shift_of_lt hlt, Session.keep, List.getElem?_append_left (hlen.symm ▸ hlt)]
      exact ha.subscription i
    · have hge := Nat.not_lt.1 hlt
      rw [shift, if_neg hlt, List.getElem?_eq_none hge]
      exact List.getElem?_eq_none (by simpa [Session.keep, hlen] using hge)
  · rintro i z ⟨⟩ hz
    simp only [Session.keep, ← hlen, List.getElem?_concat_length, Option.some.injEq] at hz
    subst hz
    exact ⟨hfeed, hplace⟩

theorem alike_of_guest? {g : List Telling} (hr : Reached s g) {c : Command α}
    (hx : s.guest? c = some x) : Alike x s (s.act c).1 := by
  obtain ⟨feed, p, index⟩ := x
  obtain ⟨h, hat, ⟨y, seconds, hfeed, hplace, hlast, hact⟩ | ⟨f, hnone, hact⟩⟩ := act_of_guest? hx
  · obtain rfl : index = some s.subscriptions.length := hlast
    rw [hact]
    exact (Alike.entered hr feed hat).keep_right hfeed hplace
  · obtain rfl : index = none := hnone
    have ha := Alike.entered hr feed hat
    have hb : Hub.Beside _ (s.service.hub feed) h :=
      (service_setHub_hub_self s feed h) ▸ ha.hub feed
    have hdetached := hb.detach_right (Guest.at?_of_feed rfl)
    rw [hact]
    exact (setHub_setHub s feed h _) ▸ ha.setHub_right feed hdetached

/-! ## Runs next to each other -/

/-- Journals grow along a run. -/
theorem Onward.grows {s' : Session α} {g g' : List Telling} (hr : Reached s g)
    (ho : Onward s g s' g') : Grows s s' := by
  induction ho with
  | refl => exact .refl s
  | @step s₀ g₀ who s' g' ho hs _ ih =>
    refine ih.trans fun feed => ?_
    refine (hs.leads (ho.reached hr).sound.owned feed).induction
      (Q := fun h => (s₀.service.hub feed).journal <+: h.journal) (List.prefix_refl _) ?_
    intro h m h' us _ hp hm
    obtain ⟨k, hj, -⟩ := hm.journal_append
    exact hp.trans (hj ▸ List.prefix_append _ k)

/-- A run of a session, and next to it one in which the same is done and in which there is a guest,
    which reads its queue or gives it up without the clock moving on. The lists are what is
    answered to all but the guest, in both. -/
inductive Accompanied (x : Guest) :
    Session α → Session α → List (Reply α) → List (Reply α) → Prop
  | attach {s c} : Reached s [] → Settled s → s.guest? c = some x →
      Accompanied x s (s.perform c).1 [] []
  | both {s₁ s₂ rs₁ rs₂} (c) : Accompanied x s₁ s₂ rs₁ rs₂ →
      Accompanied x (s₁.perform c).1 (s₂.perform (c.renumber x)).1
        (rs₁ ++ [(s₁.perform c).2]) (rs₂ ++ [(s₂.perform (c.renumber x)).2])
  | own {s₁ s₂ rs₁ rs₂ i c} : Accompanied x s₁ s₂ rs₁ rs₂ → x.index = some i →
      c.subscription? = some (i + 1) → (s₂.perform c).1.now = s₂.now →
      Accompanied x s₁ (s₂.perform c).1 rs₁ rs₂

namespace Accompanied
variable {rs₁ rs₂ : List (Reply α)}

theorem reached (hrun : Accompanied x s₁ s₂ rs₁ rs₂) :
    Reached s₁ [] ∧ Settled s₁ ∧ Reached s₂ [] ∧ Settled s₂ := by
  induction hrun with
  | attach hr hs => exact ⟨hr, hs, reached_perform _ hr, settled_perform _ hr⟩
  | both c _ ih =>
    obtain ⟨hr₁, -, hr₂, -⟩ := ih
    exact ⟨reached_perform c hr₁, settled_perform c hr₁, reached_perform _ hr₂,
      settled_perform _ hr₂⟩
  | own _ _ _ _ ih =>
    obtain ⟨hr₁, hs₁, hr₂, -⟩ := ih
    exact ⟨hr₁, hs₁, reached_perform _ hr₂, settled_perform _ hr₂⟩

/-- As long as nobody waits for the guest the sessions are alike, and answer alike. -/
theorem alike (hrun : Accompanied x s₁ s₂ rs₁ rs₂) (hq : Quiet x s₂) :
    Alike x s₁ s₂ ∧ rs₂ = rs₁.map (·.renumber x) := by
  induction hrun with
  | attach hr hs hx =>
    exact ⟨(alike_of_guest? hr hx).settle_right hs hq, rfl⟩
  | both c hrun ih =>
    obtain ⟨-, -, hr₂, -⟩ := hrun.reached
    obtain ⟨ha, hrs⟩ := ih (hq.before ((onward_perform _ hr₂).grows hr₂))
    obtain ⟨ha', hreply⟩ := ha.perform c hq
    exact ⟨ha', by rw [hrs, hreply, List.map_append]; rfl⟩
  | own hrun hi hc hnow ih =>
    obtain ⟨-, hs₁, hr₂, -⟩ := hrun.reached
    obtain ⟨ha, hrs⟩ := ih (hq.before ((onward_perform _ hr₂).grows hr₂))
    exact ⟨ha.perform_right hs₁ hi hc hnow hq, hrs⟩

/-- While the clock moves on, the sessions are alike at every time on its way. -/
theorem alike_at {a ms : Nat} (hrun : Accompanied x s₁ s₂ rs₁ rs₂)
    (hq : Quiet x (s₂.perform (.advance ms)).1) (hle : a ≤ ms) :
    Alike x (s₁.perform (.advance a)).1 (s₂.perform (.advance a)).1 := by
  obtain ⟨-, -, hr₂, hs₂⟩ := hrun.reached
  obtain ⟨b, rfl⟩ := Nat.exists_eq_add_of_le hle
  have hr := reached_perform (.advance a) hr₂
  rw [← perform_advance_add hr₂ hs₂] at hq
  exact ((hrun.both (.advance a)).alike (hq.before ((onward_perform _ hr).grows hr))).1

end Accompanied

/-- The same calls have been made, the same of them are pending, and the others have ended alike. -/
def SameCalls (s₁ s₂ : Session α) : Prop :=
  ∀ t, s₂.isPending t = s₁.isPending t ∧ s₂.answer? t = s₁.answer? t

theorem Alike.sameCalls (ha : Alike x s₁ s₂) : SameCalls s₁ s₂ := fun t =>
  ⟨ha.isPending_eq t, ha.answer?_eq t⟩

/-- **A subscriber that keeps up is not noticed by anybody else.** Beside a run of the service goes
    another in which the same is done, and in which somebody more subscribes to one of the
    feeds at any point, and reads its queue or gives it up without the clock moving on. If no
    delivery to it ever waits, then at every moment the same is answered in both, the numbers
    of subscriptions apart: to calls, to those who read the log feed, and to those who wait
    for snapshots, at the same times. The same calls are pending, and the others have ended
    alike, also at every time on the way while the clock moves on. The same subscribers are
    left in the sets, and the hubs tell the same of all of them: what was given to them, when
    deliveries to them were waited for and given up, and that they were taken out. A stream of
    snapshots is read one after the other (`perform_stream_succ`), hence at the same times too. -/
theorem guest_unnoticed {rs₁ rs₂ : List (Reply α)} (hrun : Accompanied x s₁ s₂ rs₁ rs₂)
    (hq : Quiet x s₂) :
    rs₂ = rs₁.map (·.renumber x) ∧ s₂.now = s₁.now ∧ SameCalls s₁ s₂ ∧
    (∀ ms, Quiet x (s₂.perform (.advance ms)).1 → ∀ a ≤ ms,
      SameCalls (s₁.perform (.advance a)).1 (s₂.perform (.advance a)).1) ∧
    ∀ feed,
      (∀ p, shift (x.at? feed) p ∈ (s₂.service.hub feed).members ↔
        p ∈ (s₁.service.hub feed).members) ∧
      toldOfOthers (x.at? feed) (s₂.service.hub feed).journal =
        toldOfAll (x.at? feed) (s₁.service.hub feed).journal := by
  obtain ⟨ha, hrs⟩ := hrun.alike hq
  refine ⟨hrs, ha.now, ha.sameCalls, fun ms hlater a hle => (hrun.alike_at hlater hle).sameCalls,
    fun feed => ⟨fun p => ?_, ?_⟩⟩
  · exact shift_mem_iff (ha.hub feed).members
  · exact (ha.hub feed).journal

/-- A subscriber of the log feed that does not read is taken out after five milliseconds, whether
    or not there is one before it that reads. -/
theorem guest_unnoticed_reader : ∃ s s₁ s₂ : Session Unit, ∃ rs₁ rs₂,
    open? (AccessList.ofRows []) ⟨4, 1, some 5⟩ {} = some s ∧
    Accompanied ⟨.log, 0, some 0⟩ s₁ s₂ rs₁ rs₂ ∧ Quiet ⟨.log, 0, some 0⟩ s₂ ∧
    .failed 0 .timeout 5 ∈ (s₁.service.hub .log).journal ∧
    1 ∉ (s₂.service.hub .log).members ∧ rs₂ = rs₁.map (·.renumber ⟨.log, 0, some 0⟩) := by
  have ho : (open? (AccessList.ofRows []) ⟨4, 1, some 5⟩ {} : Option (Session Unit)) =
      some _ := rfl
  obtain ⟨hr, hs⟩ := reached_open? ho
  have hguest : Accompanied ⟨.log, 0, some 0⟩ _ _ [] [] := .attach (c := .attachLog) hr hs rfl
  have htold := (hguest.both .attachLog).both (.call none (.report "a" "/m"))
  have hread := htold.own (c := .receive 1) rfl rfl rfl
  have hrun := (hread.both (.call none (.report "a" "/m"))).both (.advance 5)
  obtain ⟨hrs, -, -, -, hhub⟩ := guest_unnoticed hrun (by decide +kernel)
  obtain ⟨hleft, -⟩ := hhub .log
  have hgone := mt (hleft 0).1 (by decide +kernel)
  have hplace : shift ((⟨.log, 0, some 0⟩ : Guest).at? .log) 0 = 1 := rfl
  rw [hplace] at hgone
  exact ⟨_, _, _, _, _, ho, hrun, by decide +kernel, by decide +kernel, hgone, hrs⟩

end Session

end CallFeed

/-
  CallFeed — two sessions, one of which has one subscriber more.

  The subscriber that the second session has more is its guest. Whoever subscribes after it has
  a place, at the hub of the guest's feed, and a number that are one higher than in the first
  session.

  * `Alike`: but for the guest the sessions are equal, and what their hubs tell of the others is
    (`Hub.Beside`); `Quiet`: nobody has ever waited for the guest;
  * while it stays quiet, sessions that are alike stay so when the same is done to both
    (`Alike.settle`, `Alike.advanceTo`, `Alike.awaitSnapshot`, ..), and when the guest does
    something that takes no time (`Alike.awaitSnapshot_right`, ..).
-/
import CallFeed.Proofs.Hub.Beside
import CallFeed.Proofs.Session.Driven

namespace CallFeed

/-! ## Guests -/

/-- A subscriber that only the second of two sessions has. -/
structure Guest where
  feed : Feed
  /-- Its place at the hub of the feed. -/
  place : Place
  /-- The index of its subscription, if it was given one. -/
  index : Option Nat

/-- Where the guest is at the hub of a feed. -/
def Guest.at? (x : Guest) (feed : Feed) : Option Place :=
  if feed = x.feed then some x.place else none

theorem Guest.at?_of_feed {x : Guest} {feed : Feed} (hx : x.feed = feed) :
    x.at? feed = some x.place := if_pos hx.symm

/-- A stat subscription under the place that it has if there is one more at `q`. -/
def StatFeed.moved (q : Option Place) (f : StatFeed) : StatFeed :=
  { f with place := shift q f.place }

/-- A subscription as it is in the session with the guest. -/
def Subscription.moved (x : Guest) : Subscription → Subscription
  | .log p => .log (shift (x.at? .log) p)
  | .stat f => .stat (f.moved (x.at? .stat))

/-- A look at a stat subscription is the same at both hubs. -/
theorem Hub.Beside.poll {q : Option Place} {h₁ h₂ : Hub} (hb : Beside q h₁ h₂) (f : StatFeed)
    (now : Nat) :
    ((f.moved q).poll now h₂).1 = (f.poll now h₁).1.moved q ∧
      Beside q (f.poll now h₁).2.1 ((f.moved q).poll now h₂).2.1 ∧
      ((f.moved q).poll now h₂).2.2 = (f.poll now h₁).2.2 := by
  obtain ⟨hb', hevents⟩ := hb.receiveAll f.place
  unfold StatFeed.poll StatFeed.moved
  simp only [hevents, hb'.feedsPlace_eq]
  split
  · exact ⟨rfl, hb', rfl⟩
  · exact ⟨rfl, hb', rfl⟩

namespace Session

variable {α : Type} {x : Guest} {s s₁ s₂ : Session α}

/-! ## Sessions that are alike -/

/-- The second session is as the first one, with a guest. -/
structure Alike (x : Guest) (s₁ s₂ : Session α) : Prop where
  now : s₂.now = s₁.now
  calls : s₂.calls = s₁.calls
  signalled : s₂.signalled = s₁.signalled
  watchers : s₂.watchers = s₁.watchers
  access : s₂.service.access = s₁.service.access
  rules : s₂.service.rules = s₁.service.rules
  isShutDown : s₂.service.isShutDown = s₁.service.isShutDown
  released : s₂.service.released = s₁.service.released
  hub : ∀ feed, Hub.Beside (x.at? feed) (s₁.service.hub feed) (s₂.service.hub feed)
  count : s₂.subscriptions.length = shift x.index s₁.subscriptions.length
  known : ∀ i, x.index = some i → i ≤ s₁.subscriptions.length
  subscription : ∀ i, s₂.subscriptions[shift x.index i]? =
    s₁.subscriptions[i]?.map (Option.map (·.moved x))
  own : ∀ i y, x.index = some i → s₂.subscriptions[i]? = some (some y) →
    y.feed = x.feed ∧ y.place = x.place

/-- Nobody has ever waited for the guest. -/
def Quiet (x : Guest) (s : Session α) : Prop :=
  ∀ o ∈ (s.service.hub x.feed).journal, o.awaited? ≠ some x.place

instance (x : Guest) (s : Session α) : Decidable (Quiet x s) :=
  inferInstanceAs (Decidable (∀ o ∈ (s.service.hub x.feed).journal, o.awaited? ≠ some x.place))

theorem Quiet.neverWaits (hq : Quiet x s) (feed : Feed) :
    Hub.NeverWaits (x.at? feed) (s.service.hub feed) := by
  intro p hp
  unfold Guest.at? at hp
  split at hp
  · rename_i hfeed
    cases hp
    exact hfeed ▸ hq
  · cases hp

/-- The journals of `s'` go on from those of `s`. -/
def Grows (s s' : Session α) : Prop :=
  ∀ feed, (s.service.hub feed).journal <+: (s'.service.hub feed).journal

theorem Grows.refl (s : Session α) : Grows s s := fun _ => List.prefix_refl _

theorem Grows.trans {s s' s'' : Session α} (h1 : Grows s s') (h2 : Grows s' s'') : Grows s s'' :=
  fun feed => (h1 feed).trans (h2 feed)

theorem Quiet.before {s s' : Session α} (hq : Quiet x s') (hg : Grows s s') : Quiet x s :=
  fun o ho => hq o ((hg x.feed).subset ho)

/-! ## Journals grow -/

theorem grows_setHub (feed : Feed) {h : Hub}
    (hj : (s.service.hub feed).journal <+: h.journal) : Grows s (s.setHub feed h) := by
  intro feed'
  by_cases hf : feed' = feed
  · subst hf
    rwa [service_setHub_hub_self]
  · simp only [service_setHub_hub_ne s hf, List.prefix_refl]

theorem grows_dispatch (feed : Feed) (s : Session α) : Grows s (s.dispatch feed).1 :=
  grows_setHub feed (Hub.run_journal _ _ _)

theorem grows_tell (t : Ticket) (e : Event) (feeds : List Feed) (s : Session α) :
    Grows s (s.tell t e feeds) := by
  induction feeds generalizing s with
  | nil => exact .refl _
  | cons feed feeds ih =>
    have hemit : Grows s (s.setHub feed ((s.service.hub feed).emit t e).1) := by
      obtain ⟨k, hj, -⟩ := (Hub.emit_moved (s.service.hub feed) t e).journal_append
      exact grows_setHub feed (hj ▸ List.prefix_append _ k)
    unfold tell
    split
    · rename_i h he
      rw [he] at hemit
      exact hemit
    · rename_i h r _ he
      rw [he] at hemit
      exact hemit.trans (ih _)

theorem grows_resumeAll (ts : List Ticket) (s : Session α) : Grows s (s.resumeAll ts) := by
  induction ts generalizing s with
  | nil => exact .refl _
  | cons t ts ih =>
    refine Grows.trans ?_ (ih (s.resume t))
    unfold resume
    split
    · exact grows_tell _ _ _ s
    · exact .refl s

theorem grows_firstRound (s : Session α) : Grows s s.firstRound :=
  (grows_dispatch .log s).trans ((grows_dispatch .stat _).trans (grows_resumeAll _ _))

theorem grows_settle (s : Session α) : Grows s s.settle :=
  (grows_firstRound s).trans ((grows_dispatch .stat _).trans (grows_resumeAll _ _))

theorem grows_clock (s : Session α) (time : Nat) : Grows s { s with now := time } :=
  fun _ => List.prefix_refl _

theorem grows_advanceBy (time n : Nat) (s : Session α) : Grows s (s.advanceBy time n) := by
  induction n generalizing s with
  | zero => exact .refl _
  | succ n ih =>
    unfold advanceBy
    split
    · split
      · exact (grows_clock s _).trans ((grows_settle _).trans (ih _))
      · exact .refl _
    · exact .refl _

theorem grows_receiveLog (p : Place) (s : Session α) : Grows s (s.receiveLog p).1 := by
  have hj : s.service.log.journal <+: (s.service.log.receive p).1.journal := by
    unfold Hub.receive
    split
    · exact List.prefix_append _ _
    · exact List.prefix_refl _
  exact grows_setHub .log hj

theorem grows_drainLog (p : Place) (n : Nat) (s : Session α) : Grows s (drainLog p n s).1 :=
  drainLog_keeps (fun s' hg => hg.trans (grows_receiveLog p s'))
    (fun s' hg => hg.trans (grows_settle s')) n (.refl s)

theorem grows_pollStat (i : Nat) (f : StatFeed) (s : Session α) : Grows s (s.pollStat i f).1 := by
  have hj : s.service.stat.journal <+: (f.poll s.now s.service.stat).2.1.journal := by
    rw [StatFeed.poll_hub]
    exact List.prefix_append _ _
  exact grows_setHub .stat hj

theorem grows_awaitSnapshotBy (i n : Nat) (s : Session α) (f : StatFeed) :
    Grows s (awaitSnapshotBy i n s f).1 :=
  awaitSnapshotBy_keeps (fun s' f' hg => hg.trans (grows_pollStat i f' s'))
    (fun s' hg => hg.trans (grows_settle s')) (fun s' time hg => hg.trans (grows_clock s' time)) n f
    (.refl s)

theorem grows_streamStat (i n : Nat) (s : Session α) (f : StatFeed) :
    Grows s (streamStat i n s f).1 :=
  streamStat_keeps (fun s' f' hg => hg.trans (grows_awaitSnapshotBy i _ s' f'))
    (fun s' hg => hg.trans (grows_settle s')) n f (.refl s)

theorem grows_giveUp (s : Session α) (id : Nat) (y : Subscription) : Grows s (s.giveUp id y) := by
  have hj : ∀ (h : Hub) p, h.journal <+: (h.detach p).journal := fun h p => List.prefix_append _ _
  cases y with
  | log p => exact grows_setHub .log (hj _ p)
  | stat f => exact grows_setHub .stat (hj _ f.place)

/-! ## Settling -/

namespace Alike

theorem setHub (ha : Alike x s₁ s₂) (feed : Feed) {h₁ h₂ : Hub}
    (hb : Hub.Beside (x.at? feed) h₁ h₂) : Alike x (s₁.setHub feed h₁) (s₂.setHub feed h₂) := by
  have hhub : ∀ feed', Hub.Beside (x.at? feed') ((s₁.setHub feed h₁).service.hub feed')
      ((s₂.setHub feed h₂).service.hub feed') := by
    intro feed'
    by_cases hf : feed' = feed
    · subst hf
      rwa [service_setHub_hub_self, service_setHub_hub_self]
    · rw [service_setHub_hub_ne s₁ hf, service_setHub_hub_ne s₂ hf]
      exact ha.hub feed'
  cases feed <;> exact { ha with hub := hhub }

/-- Something is done to a hub of the second session only. -/
theorem setHub_right (ha : Alike x s₁ s₂) (feed : Feed) {h : Hub}
    (hb : Hub.Beside (x.at? feed) (s₁.service.hub feed) h) : Alike x s₁ (s₂.setHub feed h) := by
  have hboth := ha.setHub feed hb
  rwa [setHub_hub] at hboth

theorem setPending (ha : Alike x s₁ s₂) (t : Ticket) (y : Option (Event × List Feed)) :
    Alike x (s₁.setPending t y) (s₂.setPending t y) := by
  refine { ha with calls := ?_ }
  rw [Session.setPending, Session.setPending, ha.calls]

theorem tell (ha : Alike x s₁ s₂) (t : Ticket) (e : Event) (feeds : List Feed) :
    Alike x (s₁.tell t e feeds) (s₂.tell t e feeds) := by
  induction feeds generalizing s₁ s₂ with
  | nil => exact ha.setPending t none
  | cons feed feeds ih =>
    obtain ⟨hb, hstart⟩ := (ha.hub feed).emit t e
    unfold Session.tell
    generalize (s₁.service.hub feed).emit t e = r₁, (s₂.service.hub feed).emit t e = r₂ at *
    obtain ⟨h₁, start⟩ := r₁
    obtain ⟨h₂, start₂⟩ := r₂
    obtain rfl : start₂ = start := hstart
    cases start₂ with
    | waiting => exact (ha.setHub feed hb).setPending t _
    | accepted | dropped => exact ih (ha.setHub feed hb)

theorem resume (ha : Alike x s₁ s₂) (t : Ticket) : Alike x (s₁.resume t) (s₂.resume t) := by
  unfold Session.resume
  rw [ha.calls]
  split
  · exact ha.tell t _ _
  · exact ha

theorem resumeAll (ha : Alike x s₁ s₂) (ts : List Ticket) :
    Alike x (s₁.resumeAll ts) (s₂.resumeAll ts) := by
  induction ts generalizing s₁ s₂ with
  | nil => exact ha
  | cons t ts ih => exact ih (ha.resume t)

theorem dispatch (ha : Alike x s₁ s₂) {feed : Feed} (hq : Quiet x (s₂.dispatch feed).1) :
    Alike x (s₁.dispatch feed).1 (s₂.dispatch feed).1 ∧
      (s₂.dispatch feed).2 = (s₁.dispatch feed).2 := by
  have hfree := hq.neverWaits feed
  unfold Session.dispatch at hfree ⊢
  rw [ha.now] at hfree ⊢
  simp only [service_setHub_hub_self] at hfree
  obtain ⟨hb, hts⟩ := (ha.hub feed).settle hfree
  exact ⟨ha.setHub feed hb, hts⟩

theorem firstRound (ha : Alike x s₁ s₂) (hq : Quiet x s₂.firstRound) :
    Alike x s₁.firstRound s₂.firstRound := by
  have hboth := hq.before (grows_resumeAll _ _)
  obtain ⟨hlog, htold⟩ := ha.dispatch (hboth.before (grows_dispatch .stat _))
  obtain ⟨hstat, hended⟩ := hlog.dispatch hboth
  unfold Session.firstRound
  rw [htold, hended]
  exact hstat.resumeAll _

theorem settle (ha : Alike x s₁ s₂) (hq : Quiet x s₂.settle) : Alike x s₁.settle s₂.settle := by
  have hlate : Quiet x (s₂.firstRound.dispatch .stat).1 := hq.before (grows_resumeAll _ _)
  have hfirst := ha.firstRound (hlate.before (grows_dispatch .stat _))
  obtain ⟨hstat, hts⟩ := hfirst.dispatch hlate
  show Alike x ((s₁.firstRound.dispatch .stat).1.resumeAll _)
    ((s₂.firstRound.dispatch .stat).1.resumeAll (s₂.firstRound.dispatch .stat).2)
  rw [hts]
  exact hstat.resumeAll _

/-! ## The clock -/

theorem clock (ha : Alike x s₁ s₂) (time : Nat) :
    Alike x { s₁ with now := time } { s₂ with now := time } :=
  { ha with now := rfl }

theorem deadline?_eq (ha : Alike x s₁ s₂) : s₂.deadline? = s₁.deadline? := by
  have hlog : s₂.service.log.deadline? = s₁.service.log.deadline? := (ha.hub .log).deadline?_eq
  have hstat : s₂.service.stat.deadline? = s₁.service.stat.deadline? := (ha.hub .stat).deadline?_eq
  rw [Session.deadline?, hlog, hstat, ← Session.deadline?]

theorem advanceBy (ha : Alike x s₁ s₂) (time n : Nat) (hq : Quiet x (s₂.advanceBy time n)) :
    Alike x (s₁.advanceBy time n) (s₂.advanceBy time n) := by
  induction n generalizing s₁ s₂ with
  | zero => exact ha.clock time
  | succ n ih =>
    unfold Session.advanceBy at hq ⊢
    rw [ha.deadline?_eq, ha.now] at hq ⊢
    split
    · rename_i d hd
      rw [hd] at hq
      simp only at hq
      split
      · rename_i hle
        rw [if_pos hle] at hq
        exact ih ((ha.clock _).settle (hq.before (grows_advanceBy _ _ _))) hq
      · exact ha.clock time
    · exact ha.clock time

theorem advanceTo (ha : Alike x s₁ s₂) (time : Nat) (hq : Quiet x (s₂.advanceTo time)) :
    Alike x (s₁.advanceTo time) (s₂.advanceTo time) := by
  unfold Session.advanceTo at hq ⊢
  rw [ha.now] at hq ⊢
  exact (ha.advanceBy time _ (hq.before (grows_settle _))).settle hq

/-! ## Subscriptions -/

/-- The same is done to a subscription of both sessions. -/
theorem setSubscription (ha : Alike x s₁ s₂) (i : Nat) (y : Option Subscription) :
    Alike x { s₁ with subscriptions := s₁.subscriptions.set i y }
      { s₂ with subscriptions := s₂.subscriptions.set (shift x.index i) (y.map (·.moved x)) } := by
  refine { ha with count := ?_, known := ?_, subscription := fun j => ?_, own := ?_ }
  · simpa using ha.count
  · simpa using ha.known
  · simp only [List.getElem?_set, shift_inj, ha.subscription, ha.count, shift_lt_shift]
    split
    · split <;> rfl
    · rfl
  · intro j z hj hz
    rw [hj, List.getElem?_set_ne (shift_ne j i)] at hz
    exact ha.own j z hj hz

/-- Something is done to the subscription of the guest. -/
theorem setSubscription_right (ha : Alike x s₁ s₂) {i : Nat} (hi : x.index = some i)
    {y : Option Subscription} (hy : ∀ z, y = some z → z.feed = x.feed ∧ z.place = x.place) :
    Alike x s₁ { s₂ with subscriptions := s₂.subscriptions.set i y } := by
  refine { ha with count := ?_, subscription := fun j => ?_, own := ?_ }
  · simpa using ha.count
  · rw [hi, List.getElem?_set_ne (shift_ne i j).symm, ← hi]
    exact ha.subscription j
  · intro j z hj hz
    obtain rfl := Option.some.inj (hi.symm.trans hj)
    rw [List.getElem?_set_self'] at hz
    cases hs : s₂.subscriptions[i]? with
    | none => simp [hs] at hz
    | some _ => exact hy z (by simpa [hs] using hz)

theorem giveUp (ha : Alike x s₁ s₂) (i : Nat) (y : Subscription) :
    Alike x (s₁.giveUp (i + 1) y) (s₂.giveUp (shift x.index i + 1) (y.moved x)) := by
  have hset := ha.setSubscription i none
  cases y with
  | log p => exact hset.setHub .log ((ha.hub .log).detach p)
  | stat f => exact hset.setHub .stat ((ha.hub .stat).detach f.place)

theorem receiveLog (ha : Alike x s₁ s₂) (p : Place) :
    Alike x (s₁.receiveLog p).1 (s₂.receiveLog (shift (x.at? .log) p)).1 ∧
      (s₂.receiveLog (shift (x.at? .log) p)).2 = (s₁.receiveLog p).2 := by
  obtain ⟨hb, hr⟩ := (ha.hub .log).receive p
  exact ⟨ha.setHub .log hb, hr⟩

theorem drainLog (ha : Alike x s₁ s₂) (p : Place) (n : Nat)
    (hq : Quiet x (Session.drainLog (shift (x.at? .log) p) n s₂).1) :
    Alike x (Session.drainLog p n s₁).1 (Session.drainLog (shift (x.at? .log) p) n s₂).1 ∧
      (Session.drainLog (shift (x.at? .log) p) n s₂).2 = (Session.drainLog p n s₁).2 := by
  induction n generalizing s₁ s₂ with
  | zero => exact ⟨ha, rfl⟩
  | succ n ih =>
    obtain ⟨ha', hr⟩ := ha.receiveLog p
    unfold Session.drainLog at hq ⊢
    generalize s₁.receiveLog p = r₁, s₂.receiveLog (shift (x.at? .log) p) = r₂ at *
    obtain ⟨t₁, r⟩ := r₁
    obtain ⟨t₂, r'⟩ := r₂
    obtain rfl : r' = r := hr
    cases r' with
    | event e =>
      obtain ⟨hend, htaken⟩ := ih (ha'.settle (hq.before (grows_drainLog _ _ _))) hq
      simp only [htaken]
      exact ⟨hend, trivial⟩
    | empty | closed => exact ⟨ha', rfl⟩

theorem pollStat (ha : Alike x s₁ s₂) (i : Nat) (f : StatFeed) :
    Alike x (s₁.pollStat i f).1 (s₂.pollStat (shift x.index i) (f.moved (x.at? .stat))).1 ∧
      (s₂.pollStat (shift x.index i) (f.moved (x.at? .stat))).2 =
        ((s₁.pollStat i f).2.1.moved (x.at? .stat), (s₁.pollStat i f).2.2) := by
  have hpoll := (ha.hub .stat).poll f s₁.now
  simp only [Service.hub] at hpoll
  unfold Session.pollStat
  rw [ha.now]
  generalize f.poll s₁.now s₁.service.stat = r₁,
    (f.moved (x.at? .stat)).poll s₁.now s₂.service.stat = r₂ at *
  obtain ⟨f₁, h₁, r⟩ := r₁
  obtain ⟨f₂, h₂, r'⟩ := r₂
  obtain ⟨hf, hb, hr⟩ := hpoll
  obtain rfl : f₂ = f₁.moved (x.at? .stat) := hf
  obtain rfl : r' = r := hr
  have hset := (ha.setSubscription i (some (.stat f₁))).setHub .stat hb
  exact ⟨{ hset with }, rfl⟩

/-- The clock moves on alike while a snapshot is waited for. -/
theorem nextTime_eq (ha : Alike x s₁ s₂) (f : StatFeed) :
    s₂.nextTime (f.moved (x.at? .stat)) = s₁.nextTime f := by
  unfold Session.nextTime
  rw [ha.deadline?_eq, ha.now]
  rfl

theorem awaitSnapshotBy (ha : Alike x s₁ s₂) (i n : Nat) (f : StatFeed)
    (hq : Quiet x (Session.awaitSnapshotBy (shift x.index i) n s₂ (f.moved (x.at? .stat))).1) :
    Alike x (Session.awaitSnapshotBy i n s₁ f).1
        (Session.awaitSnapshotBy (shift x.index i) n s₂ (f.moved (x.at? .stat))).1 ∧
      (Session.awaitSnapshotBy (shift x.index i) n s₂ (f.moved (x.at? .stat))).2 =
        ((Session.awaitSnapshotBy i n s₁ f).2.1.moved (x.at? .stat),
          (Session.awaitSnapshotBy i n s₁ f).2.2) := by
  induction n generalizing s₁ s₂ f with
  | zero => exact ⟨ha, rfl⟩
  | succ n ih =>
    obtain ⟨ha', hr⟩ := ha.pollStat i f
    unfold Session.awaitSnapshotBy at hq ⊢
    generalize s₁.pollStat i f = r₁,
      s₂.pollStat (shift x.index i) (f.moved (x.at? .stat)) = r₂ at *
    obtain ⟨t₁, f₁, r⟩ := r₁
    obtain ⟨t₂, f₂, r'⟩ := r₂
    obtain ⟨rfl, rfl⟩ := Prod.mk.inj hr
    cases r' with
    | snapshot | closed => exact ⟨ha', rfl⟩
    | pending =>
      simp only at hq ⊢
      have hset : Quiet x t₂.settle := by
        split at hq
        · exact hq.before (grows_awaitSnapshotBy _ _ _ _)
        · exact hq.before ((grows_clock _ _).trans (grows_awaitSnapshotBy _ _ _ _))
      have hsettled := ha'.settle hset
      have hnews : t₂.settle.service.stat.hasNews (f₁.moved (x.at? .stat)).place =
          t₁.settle.service.stat.hasNews f₁.place := (hsettled.hub .stat).hasNews_eq f₁.place
      rw [hnews, hsettled.nextTime_eq] at hq ⊢
      split
      · rename_i hcome
        rw [if_pos hcome] at hq
        exact ih hsettled f₁ hq
      · rename_i hcome
        rw [if_neg hcome] at hq
        exact ih (hsettled.clock _) f₁ hq

theorem awaitSnapshot (ha : Alike x s₁ s₂) (i : Nat) (f : StatFeed)
    (hq : Quiet x (s₂.awaitSnapshot (shift x.index i) (f.moved (x.at? .stat))).1) :
    Alike x (s₁.awaitSnapshot i f).1
        (s₂.awaitSnapshot (shift x.index i) (f.moved (x.at? .stat))).1 ∧
      (s₂.awaitSnapshot (shift x.index i) (f.moved (x.at? .stat))).2 =
        ((s₁.awaitSnapshot i f).2.1.moved (x.at? .stat), (s₁.awaitSnapshot i f).2.2) := by
  have hupcoming : s₂.service.stat.upcoming (f.moved (x.at? .stat)).place =
      s₁.service.stat.upcoming f.place := (ha.hub .stat).upcoming_eq f.place
  have hwaiting : s₂.service.log.waiting = s₁.service.log.waiting := (ha.hub .log).waiting
  unfold Session.awaitSnapshot at hq ⊢
  rw [hupcoming, hwaiting, ha.now] at hq ⊢
  exact ha.awaitSnapshotBy i _ f hq

theorem streamStat (ha : Alike x s₁ s₂) (i n : Nat) (f : StatFeed)
    (hq : Quiet x (Session.streamStat (shift x.index i) n s₂ (f.moved (x.at? .stat))).1) :
    Alike x (Session.streamStat i n s₁ f).1
        (Session.streamStat (shift x.index i) n s₂ (f.moved (x.at? .stat))).1 ∧
      (Session.streamStat (shift x.index i) n s₂ (f.moved (x.at? .stat))).2 =
        (Session.streamStat i n s₁ f).2 := by
  induction n generalizing s₁ s₂ f with
  | zero => exact ⟨ha, rfl⟩
  | succ n ih =>
    have hnext := ha.awaitSnapshot i f
    unfold Session.streamStat at hq ⊢
    generalize s₁.awaitSnapshot i f = r₁,
      s₂.awaitSnapshot (shift x.index i) (f.moved (x.at? .stat)) = r₂ at *
    obtain ⟨t₁, f₁, y⟩ := r₁
    obtain ⟨t₂, f₂, y'⟩ := r₂
    cases y' with
    | none =>
      obtain ⟨ha', hr⟩ := hnext hq
      obtain ⟨rfl, rfl⟩ := Prod.mk.inj hr
      exact ⟨ha', rfl⟩
    | some z =>
      have hset : Quiet x t₂.settle := hq.before (grows_streamStat _ _ _ _)
      obtain ⟨ha', hr⟩ := hnext (hset.before (grows_settle _))
      obtain ⟨rfl, rfl⟩ := Prod.mk.inj hr
      obtain ⟨hend, htaken⟩ := ih (ha'.settle hset) f₁ hq
      simp only [htaken]
      exact ⟨hend, trivial⟩

end Alike

/-! ## What the guest does -/

/-- Waiting for a snapshot moves the clock forwards only. -/
theorem now_le_awaitSnapshotBy (i n : Nat) (s : Session α) (f : StatFeed) :
    s.now ≤ (awaitSnapshotBy i n s f).1.now := by
  induction n generalizing s f with
  | zero => exact Nat.le_refl _
  | succ n ih =>
    have hnow : (s.pollStat i f).1.now = s.now := rfl
    have hdue : (s.pollStat i f).2.2 = .pending → s.now < (s.pollStat i f).2.1.ticker.due :=
      StatFeed.lt_due_of_poll
    unfold awaitSnapshotBy
    split <;> rename_i s' f' hp <;> rw [hp] at hnow hdue
    · exact Nat.le_of_eq hnow.symm
    · exact Nat.le_of_eq hnow.symm
    · have hset : s'.settle.now = s.now := (aside_settle s').now.trans hnow
      simp only
      split
      · exact hset ▸ ih s'.settle f'
      · have hnext := ih { s'.settle with now := s'.settle.nextTime f' } f'
        exact hset ▸ Nat.le_trans (now_le_nextTime (hset ▸ hdue rfl)) hnext

theorem now_le_streamStat (i n : Nat) (s : Session α) (f : StatFeed) :
    s.now ≤ (streamStat i n s f).1.now := by
  induction n generalizing s f with
  | zero => exact Nat.le_refl _
  | succ n ih =>
    have hnext : s.now ≤ (s.awaitSnapshot i f).1.now := now_le_awaitSnapshotBy i _ s f
    unfold streamStat
    split <;> rename_i s' f' _ hp <;> rw [hp] at hnext
    · exact Nat.le_trans hnext ((aside_settle s').now ▸ ih s'.settle f')
    · exact hnext

namespace Alike

theorem settle_right (ha : Alike x s₁ s₂) (hs : Settled s₁) (hq : Quiet x s₂.settle) :
    Alike x s₁ s₂.settle := by
  have hboth := ha.settle hq
  rwa [settle_of_settled hs] at hboth

theorem giveUp_right (ha : Alike x s₁ s₂) {i : Nat} {y : Subscription} (hi : x.index = some i)
    (hfeed : y.feed = x.feed) (hplace : y.place = x.place) :
    Alike x s₁ (s₂.giveUp (i + 1) y) := by
  have hset := ha.setSubscription_right hi (y := none) (by simp)
  have hat : x.at? y.feed = some y.place := by rw [Guest.at?_of_feed hfeed.symm, hplace]
  cases y with
  | log p => exact hset.setHub_right .log ((ha.hub .log).detach_right hat)
  | stat f => exact hset.setHub_right .stat ((ha.hub .stat).detach_right hat)

theorem receiveLog_right (ha : Alike x s₁ s₂) (hx : x.feed = .log) :
    Alike x s₁ (s₂.receiveLog x.place).1 :=
  ha.setHub_right .log ((ha.hub .log).receive_right (Guest.at?_of_feed hx))

theorem drainLog_right (ha : Alike x s₁ s₂) (hs : Settled s₁) (hx : x.feed = .log) (n : Nat)
    (hq : Quiet x (Session.drainLog x.place n s₂).1) :
    Alike x s₁ (Session.drainLog x.place n s₂).1 := by
  induction n generalizing s₂ with
  | zero => exact ha
  | succ n ih =>
    have ha' := ha.receiveLog_right hx
    unfold Session.drainLog at hq ⊢
    generalize s₂.receiveLog x.place = r₂ at *
    obtain ⟨t₂, r⟩ := r₂
    cases r with
    | event e => exact ih (ha'.settle_right hs (hq.before (grows_drainLog _ _ _))) hq
    | empty | closed => exact ha'

theorem pollStat_right (ha : Alike x s₁ s₂) {i : Nat} {f : StatFeed} (hi : x.index = some i)
    (hx : x.feed = .stat) (hf : f.place = x.place) : Alike x s₁ (s₂.pollStat i f).1 := by
  have hplace := StatFeed.poll_place f s₂.now s₂.service.stat
  have hb : Hub.Beside (x.at? .stat) s₁.service.stat (f.poll s₂.now s₂.service.stat).2.1 := by
    rw [StatFeed.poll_hub]
    exact (ha.hub .stat).receiveAll_right ((Guest.at?_of_feed hx).trans (congrArg some hf.symm))
  have hset := (ha.setSubscription_right hi
    (y := some (.stat (f.poll s₂.now s₂.service.stat).1)) (by
      rintro z ⟨⟩
      exact ⟨hx.symm, hplace.trans hf⟩)).setHub_right .stat hb
  exact { hset with }

/-- A wait for a snapshot of the guest that is over at once. -/
theorem awaitSnapshotBy_right (ha : Alike x s₁ s₂) (hs : Settled s₁) {i : Nat} {f : StatFeed}
    (hi : x.index = some i) (hx : x.feed = .stat) (hf : f.place = x.place) (n : Nat)
    (hnow : (Session.awaitSnapshotBy i n s₂ f).1.now = s₂.now)
    (hq : Quiet x (Session.awaitSnapshotBy i n s₂ f).1) :
    Alike x s₁ (Session.awaitSnapshotBy i n s₂ f).1 ∧
      (Session.awaitSnapshotBy i n s₂ f).2.1.place = x.place := by
  induction n generalizing s₂ f with
  | zero => exact ⟨ha, hf⟩
  | succ n ih =>
    have ha' := ha.pollStat_right hi hx hf
    have hplace : (s₂.pollStat i f).2.1.place = f.place := StatFeed.poll_place _ _ _
    have hdue : (s₂.pollStat i f).2.2 = .pending → s₂.now < (s₂.pollStat i f).2.1.ticker.due :=
      StatFeed.lt_due_of_poll
    have hsame : (s₂.pollStat i f).1.now = s₂.now := rfl
    unfold Session.awaitSnapshotBy at hnow hq ⊢
    generalize s₂.pollStat i f = r₂ at *
    obtain ⟨t₂, f₂, r⟩ := r₂
    cases r with
    | snapshot | closed => exact ⟨ha', hplace.trans hf⟩
    | pending =>
      simp only at hnow hq hsame ⊢
      have hsettled : t₂.settle.now = s₂.now := (aside_settle t₂).now.trans hsame
      have hset : Quiet x t₂.settle := by
        split at hq
        · exact hq.before (grows_awaitSnapshotBy _ _ _ _)
        · exact hq.before ((grows_clock _ _).trans (grows_awaitSnapshotBy _ _ _ _))
      have ha'' := ha'.settle_right hs hset
      split
      · rename_i hcome
        rw [if_pos hcome] at hnow hq
        exact ih ha'' (hplace.trans hf) (hnow.trans hsettled.symm) hq
      · -- the clock moves forwards only, hence not at all
        rename_i hcome
        rw [if_neg hcome] at hnow hq
        have hle := now_le_awaitSnapshotBy i n { t₂.settle with now := t₂.settle.nextTime f₂ } f₂
        rw [hnow] at hle
        have hge : t₂.settle.now ≤ t₂.settle.nextTime f₂ :=
          now_le_nextTime (hsettled.symm ▸ hdue rfl)
        have htime : t₂.settle.nextTime f₂ = s₂.now := Nat.le_antisymm hle (hsettled ▸ hge)
        have hclock : Alike x s₁ { t₂.settle with now := t₂.settle.nextTime f₂ } :=
          { ha'' with now := htime.trans (hsettled.symm.trans ha''.now) }
        exact ih hclock (hplace.trans hf) (hnow.trans htime.symm) hq

theorem awaitSnapshot_right (ha : Alike x s₁ s₂) (hs : Settled s₁) {i : Nat} {f : StatFeed}
    (hi : x.index = some i) (hx : x.feed = .stat) (hf : f.place = x.place)
    (hnow : (s₂.awaitSnapshot i f).1.now = s₂.now) (hq : Quiet x (s₂.awaitSnapshot i f).1) :
    Alike x s₁ (s₂.awaitSnapshot i f).1 ∧ (s₂.awaitSnapshot i f).2.1.place = x.place :=
  ha.awaitSnapshotBy_right hs hi hx hf _ hnow hq

theorem streamStat_right (ha : Alike x s₁ s₂) (hs : Settled s₁) {i : Nat} {f : StatFeed}
    (hi : x.index = some i) (hx : x.feed = .stat) (hf : f.place = x.place) (n : Nat)
    (hnow : (Session.streamStat i n s₂ f).1.now = s₂.now)
    (hq : Quiet x (Session.streamStat i n s₂ f).1) :
    Alike x s₁ (Session.streamStat i n s₂ f).1 := by
  induction n generalizing s₂ f with
  | zero => exact ha
  | succ n ih =>
    have hnext := ha.awaitSnapshot_right hs hi hx hf
    have hle : s₂.now ≤ (s₂.awaitSnapshot i f).1.now := now_le_awaitSnapshotBy i _ s₂ f
    unfold Session.streamStat at hnow hq ⊢
    generalize s₂.awaitSnapshot i f = r₂ at *
    obtain ⟨t₂, f₂, y⟩ := r₂
    cases y with
    | none => exact (hnext hnow hq).1
    | some z =>
      simp only at hnow hq hnext hle ⊢
      have hset : Quiet x t₂.settle := hq.before (grows_streamStat _ _ _ _)
      have hlast := now_le_streamStat i n t₂.settle f₂
      have hsettled := (aside_settle t₂).now
      have hsame : t₂.now = s₂.now := by omega
      obtain ⟨ha', hplace⟩ := hnext hsame (hset.before (grows_settle _))
      exact ih (ha'.settle_right hs hset) hplace (by omega) hq

end Alike

end Session

end CallFeed

/-
  CallFeed — what works in a session while the clock stands still.

  The dispatchers, the calls that go on, and those clients that read whenever they find
  something make work for each other: an event that is taken lets a call go on, which tells
  another feed; an event that is delivered is read, which makes space for the next.

  * `OnlyWaits` are the states in which none of them can do anything;
  * `load` is how much they can have to do. What a call may still make for a hub is counted
    with the call (`callWork`), what an event may make for a reader with the hub, whose work
    counts twice for this reason;
  * `Works.load_lt`: every step leaves less, so that `settling_ends`.
-/
import CallFeed.Proofs.Hub.Holding
import CallFeed.Proofs.Session.Settled
import CallFeed.Proofs.Session.Watching
import Mathlib.Algebra.Order.BigOperators.Group.List
import Mathlib.Algebra.Order.Group.Nat
import Mathlib.Algebra.GroupWithZero.Nat

namespace CallFeed

namespace Hub

/-! ## Work of a hub -/

/-- How many events the queues of the subscribers hold. -/
def queued (h : Hub) : Nat := (h.queues.map fun q => q.events.length).sum

/-- How much work telling the hub of an event makes at most, the telling included. -/
def telling (h : Hub) : Nat := 2 * h.members.length + 4

/-- An event of which a hub is told is in its inbound queue or before it, or nowhere. -/
theorem Moved.emit_work_lt {h h' : Hub} {t : Ticket} {e : Event} {ts : List Ticket}
    (hm : Moved h (.emit t e) h' ts) : h'.members = h.members ∧ h'.queued = h.queued ∧
      h'.work < h.work + h.telling := by
  have hmore : (h.inbound.length + h.waiting.length + 1) * (2 * h.members.length + 3) =
      (h.inbound.length + h.waiting.length) * (2 * h.members.length + 3) +
        (2 * h.members.length + 3) := Nat.succ_mul _ _
  cases hm with
  | accept =>
    refine ⟨rfl, rfl, ?_⟩
    simp only [work, telling, note, List.length_append, List.length_singleton]
    rw [Nat.add_right_comm h.inbound.length, hmore]
    omega
  | queue =>
    refine ⟨rfl, rfl, ?_⟩
    simp only [work, telling, note, List.length_append, List.length_singleton]
    rw [← Nat.add_assoc, hmore]
    omega
  | drop =>
    refine ⟨rfl, rfl, ?_⟩
    simp only [work, telling, note]
    omega

theorem Dispatched.members_le {now : Nat} {h h' : Hub} {ts : List Ticket}
    (hd : Dispatched now h h' ts) : h'.members.length ≤ h.members.length := by
  cases hd with
  | evict _ _ _ hm =>
    subst hm
    exact List.length_filter_le _ _
  | stop => exact Nat.zero_le _
  | _ => exact Nat.le_refl _

theorem queued_setQueue {h : Hub} {p : Place} (hp : p < h.queues.length) (q : Queue) :
    (h.setQueue p q).queued + (h.queue p).events.length = h.queued + q.events.length := by
  have hq : h.queue p = h.queues[p] := by simp [queue, List.getElem?_eq_getElem hp]
  have hsplit : h.queues = h.queues.take p ++ h.queues[p] :: h.queues.drop (p + 1) := by
    rw [List.getElem_cons_drop, List.take_append_drop]
  have hsum : h.queued = ((h.queues.take p).map fun q => q.events.length).sum +
      (h.queues[p].events.length +
        ((h.queues.drop (p + 1)).map fun q => q.events.length).sum) := by
    conv_lhs => rw [queued, hsplit]
    rw [List.map_append, List.map_cons, List.sum_append_nat, List.sum_cons]
  simp only [queued, setQueue, List.set_eq_take_append_cons_drop, if_pos hp] at hsum ⊢
  simp only [List.map_append, List.map_cons, List.sum_append_nat, List.sum_cons, hq]
  omega

theorem Dispatched.queued_le {now : Nat} {h h' : Hub} {ts : List Ticket}
    (hd : Dispatched now h h' ts) : h'.queued ≤ h.queued + 1 := by
  cases hd with
  | @deliver b p rest _ _ hh =>
    have := queued_setQueue (lt_of_held hh)
      { h.queue p with events := (h.queue p).events ++ [b.event] }
    simp only [List.length_append, List.length_singleton] at this
    show (h.setQueue p _).queued ≤ _
    omega
  | _ => exact Nat.le_succ _

/-- A subscriber that takes an event leaves one less. -/
theorem receive_queued {h : Hub} {p : Place} (hh : (h.queue p).held = true)
    (hne : (h.queue p).events ≠ []) : (h.receive p).1.queued + 1 = h.queued := by
  obtain ⟨e, rest, he⟩ := List.exists_cons_of_ne_nil hne
  have hset := queued_setQueue (lt_of_held hh) ⟨rest, (h.queue p).held⟩
  have hr : (h.receive p).1 = (h.setQueue p ⟨rest, (h.queue p).held⟩).note (.received p e) := by
    simp [receive, he]
  rw [he, List.length_cons] at hset
  rw [hr]
  exact Nat.add_right_cancel ((Nat.add_right_comm _ _ _).trans hset)

/-- A subscriber that takes all events leaves none of them. -/
theorem receiveAll_queued {h : Hub} {p : Place} (hh : (h.queue p).held = true) :
    (h.receiveAll p).1.queued + (h.queue p).events.length = h.queued :=
  queued_setQueue (lt_of_held hh) { h.queue p with events := [] }

end Hub

namespace Session

variable {α : Type} {s s' : Session α} {g g' : List Telling} {readers : Nat → Prop}

/-- Everybody can only wait: the dispatchers for an event, for space or for the time, the
    calls for their feeds, and the readers for events or for the end of their windows. -/
structure OnlyWaits (readers : Nat → Prop) (s : Session α) (g : List Telling) : Prop where
  settled : Settled s
  calls : g = []
  log : ∀ i p, readers i → s.subscriptions[i]? = some (some (.log p)) →
    (s.service.log.queue p).events = []
  stat : ∀ i f, readers i → s.subscriptions[i]? = some (some (.stat f)) →
    (s.service.stat.queue f.place).events = [] ∧ s.now < f.ticker.due

/-- Where nobody can do anything, everybody can only wait. -/
theorem onlyWaits_iff : OnlyWaits readers s g ↔ ∀ s' g', ¬ Works readers s g s' g' := by
  constructor
  · rintro ⟨hs, rfl, hlog, hstat⟩ s' g' hw
    generalize hg : ([] : List Telling) = k at hw
    cases hw with
    | dispatch feed hstep => cases (hs feed).symm.trans hstep
    | tell | wait | finish => simp at hg
    | receive hi hsub hne => exact hne (hlog _ _ hi hsub)
    | look hi hsub hne =>
      obtain ⟨hempty, hdue⟩ := hstat _ _ hi hsub
      exact hne.elim (absurd hempty) (Nat.not_le.2 hdue)
  · intro hw
    refine ⟨fun feed => ?_, ?_, fun i p hi hsub => ?_, fun i f hi hsub => ?_⟩
    · by_contra hne
      obtain ⟨⟨h, ts⟩, hstep⟩ := Option.ne_none_iff_exists'.1 hne
      exact hw _ _ (.dispatch feed hstep)
    · cases g with
      | nil => rfl
      | cons x k =>
        exfalso
        obtain ⟨t, e, _ | ⟨feed, feeds⟩⟩ := x
        · exact hw _ _ (.finish (g := []))
        · rcases hemit : (s.service.hub feed).emit t e with ⟨h, r⟩
          by_cases hr : r = .waiting
          · exact hw _ _ (.wait (g := []) (hr ▸ hemit))
          · exact hw _ _ (.tell (g := []) hemit hr)
    · by_contra hne
      exact hw _ _ (.receive hi hsub hne)
    · refine ⟨?_, ?_⟩
      · by_contra hne
        exact hw _ _ (.look hi hsub (Or.inl hne))
      · by_contra hdue
        exact hw _ _ (.look hi hsub (Or.inr (Nat.not_lt.1 hdue)))

/-! ## How much there is to do -/

/-- How much a call can have to do that has told a feed. -/
def leftWork (s : Session α) : Feed → Nat
  | .log => s.service.stat.telling + 1
  | .stat => 1

/-- How much a call can have to do that goes on with these feeds. -/
def callWork (s : Session α) : List Feed → Nat
  | [] => 1
  | feed :: _ => (s.service.hub feed).telling + s.leftWork feed

/-- The work of a hub and of the calls that wait at it. -/
def hubWork (s : Session α) (feed : Feed) : Nat :=
  (s.service.hub feed).work + (s.service.hub feed).waiting.length * s.leftWork feed

/-- The work of the dispatchers and of the calls. -/
def effort (s : Session α) (g : List Telling) : Nat :=
  s.hubWork .log + s.hubWork .stat + (g.map fun x => s.callWork x.feeds).sum

/-- Whether a client would find its window to be over. -/
def isOver (now : Nat) : Option Subscription → Bool
  | some (.stat f) => f.ticker.due ≤ now
  | _ => false

/-- How many steps can be taken while the clock stands still. -/
def load (s : Session α) (g : List Telling) : Nat :=
  2 * s.effort g + (s.service.log.queued + s.service.stat.queued) +
    s.subscriptions.countP (isOver s.now)

theorem callWork_cons (s : Session α) (feed : Feed) (feeds : List Feed) :
    s.callWork (feed :: feeds) = (s.service.hub feed).telling + s.leftWork feed := rfl

/-- A call has less to do when it has told a feed. -/
theorem callWork_le {feed : Feed} {feeds : List Feed}
    (hsub : (feed :: feeds).Sublist [.log, .stat]) : s.callWork feeds ≤ s.leftWork feed := by
  cases feed with
  | stat =>
    rw [eq_nil_of_stat hsub]
    exact Nat.le_refl _
  | log =>
    have hsub' := List.cons_sublist_cons.1 hsub
    rcases List.sublist_singleton.1 hsub' with rfl | rfl
    · exact Nat.succ_le_succ (Nat.zero_le _)
    · exact Nat.le_refl _

/-- The hubs of `s'` have no more members than those of `s`. -/
def Thinner (s s' : Session α) : Prop :=
  ∀ feed, (s'.service.hub feed).members.length ≤ (s.service.hub feed).members.length

namespace Thinner

theorem telling_le (ht : Thinner s s') (feed : Feed) :
    (s'.service.hub feed).telling ≤ (s.service.hub feed).telling :=
  Nat.add_le_add_right (Nat.mul_le_mul_left 2 (ht feed)) 4

theorem leftWork_le (ht : Thinner s s') (feed : Feed) : s'.leftWork feed ≤ s.leftWork feed := by
  cases feed with
  | log => exact Nat.succ_le_succ (ht.telling_le .stat)
  | stat => exact Nat.le_refl _

theorem callWork_le (ht : Thinner s s') (feeds : List Feed) :
    s'.callWork feeds ≤ s.callWork feeds := by
  cases feeds with
  | nil => exact Nat.le_refl _
  | cons feed feeds => exact Nat.add_le_add (ht.telling_le feed) (ht.leftWork_le feed)

theorem setHub {feed : Feed} {h : Hub}
    (hm : h.members.length ≤ (s.service.hub feed).members.length) :
    Thinner s (s.setHub feed h) := by
  intro feed'
  by_cases hf : feed' = feed
  · subst hf
    rwa [service_setHub_hub_self]
  · rw [service_setHub_hub_ne s hf]

end Thinner

/-- What becomes of the work if one hub becomes `h`, which has no more members, and the calls
    that go on become `g'`. -/
theorem effort_setHub_lt {feed : Feed} {h : Hub}
    (hm : h.members.length ≤ (s.service.hub feed).members.length)
    (hlt : h.work + h.waiting.length * s.leftWork feed +
        (g'.map fun x => s.callWork x.feeds).sum <
      s.hubWork feed + (g.map fun x => s.callWork x.feeds).sum) :
    (s.setHub feed h).effort g' < s.effort g := by
  have ht : Thinner s (s.setHub feed h) := .setHub hm
  have hcalls : (g'.map fun x => (s.setHub feed h).callWork x.feeds).sum ≤
      (g'.map fun x => s.callWork x.feeds).sum :=
    List.sum_le_sum fun x _ => ht.callWork_le x.feeds
  have hself : (s.setHub feed h).hubWork feed ≤ h.work + h.waiting.length * s.leftWork feed := by
    rw [hubWork, service_setHub_hub_self]
    exact Nat.add_le_add_left (Nat.mul_le_mul_left _ (ht.leftWork_le feed)) _
  have hother : ∀ feed' ≠ feed, (s.setHub feed h).hubWork feed' ≤ s.hubWork feed' := by
    intro feed' hne
    rw [hubWork, hubWork, service_setHub_hub_ne s hne]
    exact Nat.add_le_add_left (Nat.mul_le_mul_left _ (ht.leftWork_le feed')) _
  unfold effort
  cases feed with
  | log =>
    have := hother .stat (by decide)
    omega
  | stat =>
    have := hother .log (by decide)
    omega

/-- A dispatcher makes less work for the calls that it lets go than it had with them. -/
theorem effort_dispatch_lt (hw : Waits s g) {feed : Feed} {h : Hub} {ts : List Ticket}
    (hs : (s.service.hub feed).step? s.now = some (h, ts)) :
    (s.setHub feed h).effort (g ++ ts.filterMap s.letGo?) < s.effort g := by
  have hd := Hub.step?_eq_some_iff.1 hs
  obtain ⟨w, hwait, rfl⟩ := hd.waiting
  have hgo : (((w.map Prod.fst).filterMap s.letGo?).map fun x => s.callWork x.feeds).sum ≤
      w.length * s.leftWork feed := by
    have hmem : ∀ x ∈ w, x ∈ (s.service.hub feed).waiting := fun x hx =>
      hwait ▸ List.mem_append_left _ hx
    clear hwait hs hd
    induction w with
    | nil => exact Nat.zero_le _
    | cons x w ih =>
      obtain ⟨t, e⟩ := x
      obtain ⟨feeds, hp, hsub⟩ := hw.queued feed t e (hmem _ List.mem_cons_self)
      have hrest := ih fun y hy => hmem y (List.mem_cons_of_mem _ hy)
      have hfirst := callWork_le (s := s) hsub
      rw [List.map_cons, List.filterMap_cons_some (letGo?_eq_some hp), List.map_cons,
        List.sum_cons, List.length_cons, Nat.succ_mul]
      simp only
      omega
  refine effort_setHub_lt hd.members_le ?_
  have hwork : h.work < (s.service.hub feed).work := Hub.work_lt_of_step? hs
  have hlen : (s.service.hub feed).waiting.length * s.leftWork feed =
      w.length * s.leftWork feed + h.waiting.length * s.leftWork feed := by
    rw [hwait, List.length_append, Nat.add_mul]
  rw [hubWork, hlen, List.map_append, List.sum_append_nat]
  omega

/-- A call that tells a feed has had more to do than it makes. -/
theorem effort_tell_lt {g k : List Telling} {t : Ticket} {e : Event} {feed : Feed}
    {feeds : List Feed} {h : Hub} {r : EmitStart}
    (hw : Waits s (g ++ ⟨t, e, feed :: feeds⟩ :: k))
    (he : (s.service.hub feed).emit t e = (h, r)) (hr : r ≠ .waiting) :
    (s.setHub feed h).effort (g ++ ⟨t, e, feeds⟩ :: k) <
      s.effort (g ++ ⟨t, e, feed :: feeds⟩ :: k) := by
  have hmoved := Hub.emit_moved (s.service.hub feed) t e
  rw [he] at hmoved
  obtain ⟨hm, -, hwork⟩ : h.members = _ ∧ _ ∧ h.work < _ := hmoved.emit_work_lt
  obtain ⟨-, hsub⟩ := hw.going ⟨t, e, feed :: feeds⟩ (by simp)
  have hleft := callWork_le (s := s) hsub
  refine effort_setHub_lt (Nat.le_of_eq (congrArg List.length hm)) ?_
  rw [hubWork, Hub.emit_not_waiting he hr]
  simp only [List.map_append, List.map_cons, List.sum_append_nat, List.sum_cons, callWork_cons]
  omega

/-- A call that has to wait leaves its work at the hub. -/
theorem effort_wait_lt {g k : List Telling} {t : Ticket} {e : Event} {feed : Feed}
    {feeds : List Feed} {h : Hub} (he : (s.service.hub feed).emit t e = (h, .waiting)) :
    ((s.setHub feed h).setPending t (some (e, feed :: feeds))).effort (g ++ k) <
      s.effort (g ++ ⟨t, e, feed :: feeds⟩ :: k) := by
  have hmoved := Hub.emit_moved (s.service.hub feed) t e
  rw [he] at hmoved
  obtain ⟨hm, -, hwork⟩ : h.members = _ ∧ _ ∧ h.work < _ := hmoved.emit_work_lt
  show (s.setHub feed h).effort (g ++ k) < _
  refine effort_setHub_lt (Nat.le_of_eq (congrArg List.length hm)) ?_
  rw [hubWork, Hub.emit_waiting he, List.length_append, Nat.add_mul]
  simp only [List.length_singleton, List.map_append, List.map_cons, List.sum_append_nat,
    List.sum_cons, callWork_cons]
  omega

/-- Reading leaves the work of the hubs as it is. -/
theorem effort_congr {g : List Telling}
    (hhub : ∀ feed, (s'.service.hub feed).work = (s.service.hub feed).work ∧
      (s'.service.hub feed).waiting = (s.service.hub feed).waiting ∧
      (s'.service.hub feed).members = (s.service.hub feed).members) :
    s'.effort g = s.effort g := by
  have htelling : ∀ feed, (s'.service.hub feed).telling = (s.service.hub feed).telling :=
    fun feed => by rw [Hub.telling, Hub.telling, (hhub feed).2.2]
  have hleft : ∀ feed, s'.leftWork feed = s.leftWork feed := by
    intro feed
    cases feed with
    | log => exact congrArg (· + 1) (htelling .stat)
    | stat => rfl
  have hcall : ∀ feeds, s'.callWork feeds = s.callWork feeds := by
    intro feeds
    cases feeds with
    | nil => rfl
    | cons feed feeds => rw [callWork_cons, callWork_cons, htelling, hleft]
  simp only [effort, hubWork, (hhub _).1, (hhub _).2.1, hleft, hcall]

/-! ## Every step leaves less to do -/

/-- Events are queued at the hub of a feed only by its own steps. -/
theorem queued_setHub_le {feed : Feed} {h : Hub} {n : Nat}
    (hq : h.queued ≤ (s.service.hub feed).queued + n) :
    (s.setHub feed h).service.log.queued + (s.setHub feed h).service.stat.queued ≤
      s.service.log.queued + s.service.stat.queued + n := by
  cases feed with
  | log => exact (Nat.add_le_add_right hq _).trans_eq (Nat.add_right_comm _ _ _)
  | stat => exact (Nat.add_le_add_left hq _).trans_eq (Nat.add_assoc _ _ _).symm

theorem load_setHub_lt {feed : Feed} {h : Hub}
    (hq : h.queued ≤ (s.service.hub feed).queued + 1)
    (he : (s.setHub feed h).effort g' < s.effort g) : (s.setHub feed h).load g' < s.load g := by
  have hqueued := queued_setHub_le hq
  show 2 * (s.setHub feed h).effort g' + _ + s.subscriptions.countP (isOver s.now) < _
  unfold load
  omega

/-- A client that has found its window to be over does not find it so again. -/
theorem lt_due_poll {f : StatFeed} (hp : 1000 ≤ f.ticker.period) (now : Nat) (h : Hub) :
    now < (f.poll now h).1.ticker.due := by
  have hgrace : Ticker.grace = 5 := rfl
  rcases hpoll : f.poll now h with ⟨f', h', r⟩
  obtain ⟨-, -, ⟨hdue, -, hticker⟩ | ⟨hlt, hticker, -⟩⟩ := StatFeed.poll_cases hpoll
  · simp only [hticker, Ticker.tick]
    split <;> omega
  · exact lt_of_lt_of_eq hlt (congrArg Ticker.due hticker.symm)

/-- A client that finds something takes it away. -/
theorem load_look_lt (ho : Owned s) {i : Nat} {f : StatFeed}
    (hi : s.subscriptions[i]? = some (some (.stat f))) (hp : 1000 ≤ f.ticker.period)
    (hnews : (s.service.stat.queue f.place).events ≠ [] ∨ f.ticker.due ≤ s.now) :
    (s.pollStat i f).1.load g < s.load g := by
  have hheld : (s.service.stat.queue f.place).held = true := ho.held i _ hi
  have hhub : (s.pollStat i f).1.service.stat = (s.service.stat.receiveAll f.place).1 :=
    StatFeed.poll_hub f s.now s.service.stat
  have hlog : (s.pollStat i f).1.service.log = s.service.log := rfl
  have heffort : (s.pollStat i f).1.effort g = s.effort g := by
    refine effort_congr fun feed => ?_
    cases feed with
    | log => exact ⟨rfl, rfl, rfl⟩
    | stat =>
      show (s.pollStat i f).1.service.stat.work = _ ∧ (s.pollStat i f).1.service.stat.waiting = _ ∧
        (s.pollStat i f).1.service.stat.members = _
      rw [hhub]
      exact ⟨rfl, rfl, rfl⟩
  have hqueued : (s.pollStat i f).1.service.stat.queued +
      (s.service.stat.queue f.place).events.length = s.service.stat.queued := by
    rw [hhub]
    exact Hub.receiveAll_queued hheld
  -- no more windows are over than before, and one less if this one was
  obtain ⟨hlt, hget⟩ := List.getElem?_eq_some_iff.1 hi
  have hover : (s.pollStat i f).1.subscriptions.countP (isOver s.now) =
      s.subscriptions.countP (isOver s.now) - if f.ticker.due ≤ s.now then 1 else 0 := by
    have hnot : isOver s.now (some (.stat (f.poll s.now s.service.stat).1)) = false :=
      decide_eq_false (Nat.not_le.2 (lt_due_poll hp _ _))
    show (s.subscriptions.set i (some (.stat (f.poll s.now s.service.stat).1))).countP _ = _
    rw [List.countP_set hlt, hget, hnot]
    simp [isOver]
  have hpos : f.ticker.due ≤ s.now → 0 < s.subscriptions.countP (isOver s.now) := fun hdue =>
    List.countP_pos_iff.2 ⟨_, List.mem_of_getElem? hi, decide_eq_true hdue⟩
  show 2 * (s.pollStat i f).1.effort g + _ +
    (s.pollStat i f).1.subscriptions.countP (isOver s.now) < _
  rw [heffort, hover, hlog]
  unfold load
  rcases hnews with hne | hdue
  · have := List.length_pos_iff.2 hne
    omega
  · have := hpos hdue
    rw [if_pos hdue]
    omega

theorem load_receive_lt (ho : Owned s) {i : Nat} {p : Place}
    (hi : s.subscriptions[i]? = some (some (.log p)))
    (hne : (s.service.log.queue p).events ≠ []) : (s.receiveLog p).1.load g < s.load g := by
  have hqueued := Hub.receive_queued (ho.held i _ hi) hne
  have heffort : (s.receiveLog p).1.effort g = s.effort g := by
    refine effort_congr fun feed => ?_
    cases feed with
    | log =>
      show (s.service.log.receive p).1.work = _ ∧ (s.service.log.receive p).1.waiting = _ ∧
        (s.service.log.receive p).1.members = _
      unfold Hub.receive
      split <;> exact ⟨rfl, rfl, rfl⟩
    | stat => exact ⟨rfl, rfl, rfl⟩
  show 2 * (s.receiveLog p).1.effort g + ((s.service.log.receive p).1.queued + _) +
    s.subscriptions.countP (isOver s.now) < _
  rw [heffort]
  show _ + (_ + s.service.stat.queued) + _ < _
  simp only [Subscription.feed, Subscription.place, Service.hub] at hqueued
  unfold load
  omega

/-- Every step leaves less to do. -/
theorem Works.load_lt (hr : Reached s g) (hw : Works readers s g s' g') :
    s'.load g' < s.load g := by
  cases hw with
  | dispatch feed hs =>
    exact load_setHub_lt (Hub.step?_eq_some_iff.1 hs).queued_le (effort_dispatch_lt hr.waits hs)
  | @tell g k t e feed feeds h r he hne =>
    have hmoved := Hub.emit_moved (s.service.hub feed) t e
    rw [he] at hmoved
    obtain ⟨-, hq, -⟩ : _ ∧ h.queued = _ ∧ _ := hmoved.emit_work_lt
    exact load_setHub_lt (Nat.le_succ_of_le (Nat.le_of_eq hq)) (effort_tell_lt hr.waits he hne)
  | @wait g k t e feed feeds h he =>
    have hmoved := Hub.emit_moved (s.service.hub feed) t e
    rw [he] at hmoved
    obtain ⟨-, hq, -⟩ : _ ∧ h.queued = _ ∧ _ := hmoved.emit_work_lt
    show (s.setHub feed h).load (g ++ k) < _
    exact load_setHub_lt (Nat.le_succ_of_le (Nat.le_of_eq hq)) (effort_wait_lt he)
  | @finish g k t e =>
    show s.load (g ++ k) < _
    simp only [load, effort, List.map_append, List.map_cons, List.sum_append_nat, List.sum_cons,
      callWork]
    omega
  | receive _ hi hne => exact load_receive_lt hr.sound.owned hi hne
  | look _ hi hnews => exact load_look_lt hr.sound.owned hi (hr.period hi) hnews

/-- What is left after some steps, with the steps. -/
theorem WorksFor.load_le {n : Nat} (hr : Reached s g) (hw : WorksFor readers s g n s' g') :
    s'.load g' + n ≤ s.load g := by
  induction hw with
  | none => exact Nat.le_refl _
  | more hw hstep ih =>
    have := hstep.load_lt (hw.reached hr)
    omega

/-- From a reached state one comes to where everybody can only wait. -/
theorem exists_onlyWaits (readers : Nat → Prop) (hr : Reached s g) :
    ∃ n s' g', WorksFor readers s g n s' g' ∧ OnlyWaits readers s' g' := by
  induction hn : s.load g using Nat.strong_induction_on generalizing s g with
  | _ n ih =>
    by_cases hw : OnlyWaits readers s g
    · exact ⟨0, s, g, .none, hw⟩
    · rw [onlyWaits_iff] at hw
      obtain ⟨s₁, hw⟩ := not_forall.1 hw
      obtain ⟨g₁, hstep⟩ := not_forall_not.1 hw
      obtain ⟨who, hs, -⟩ := hstep.stepped
      obtain ⟨m, s', g', hrest, hend⟩ := ih _ (hn ▸ hstep.load_lt hr) (hr.step hs) rfl
      exact ⟨_, s', g', (WorksFor.one hstep).trans hrest, hend⟩

/-- The order in which a session settles is one that leads there. -/
theorem onlyWaits_settle (hr : Reached s []) : OnlyWaits (fun _ => False) s.settle [] :=
  ⟨settled_settle hr, rfl, fun _ _ h => h.elim, fun _ _ h => h.elim⟩

/-- **Settling always ends.** Whatever has happened to a session, and in whatever order its
    dispatchers, its calls and the clients that read all they find go on from there while the
    clock stands still: they take no more steps than the session has to do at first, and from
    wherever they have come a finite number of steps leads to a state in which all of them
    can only wait. They have come to such a state when there is no step that they can take. -/
theorem settling_ends (readers : Nat → Prop) (hr : Reached s g) {n : Nat}
    (hw : WorksFor readers s g n s' g') :
    n ≤ s.load g ∧ s'.now = s.now ∧
      (∃ m s'' g'', WorksFor readers s' g' m s'' g'' ∧ OnlyWaits readers s'' g'') ∧
      (OnlyWaits readers s' g' ↔ ∀ s'' g'', ¬ Works readers s' g' s'' g'') :=
  ⟨(Nat.le_add_left _ _).trans (hw.load_le hr), hw.now, exists_onlyWaits readers (hw.reached hr),
    onlyWaits_iff⟩

/-- Four calls, told to a subscriber of each feed, with queues for one event: the last two wait,
    a shutdown is requested, and both subscribers read. -/
theorem settling_ends_readers :
    ∃ s₀ s : Session Unit, open? (AccessList.ofRows []) ⟨1, 1, some 5⟩ {} = some s₀ ∧
      s = ((((s₀.perform .attachLog).1.perform (.attachStat 1)).1.perform
        (.call (some 4) (.report "a" "/m"))).1.perform .shutDown).1 ∧
      s.isPending 3 = true ∧
      ∃ n s' g', WorksFor (fun _ => True) s [] n s' g' ∧ OnlyWaits (fun _ => True) s' g' := by
  have ho : (open? (AccessList.ofRows []) ⟨1, 1, some 5⟩ {} : Option (Session Unit)) =
      some _ := rfl
  obtain ⟨hr, -⟩ := reached_open? ho
  have hattached := reached_perform (.attachStat 1) (reached_perform .attachLog hr)
  have hcalled := reached_perform (.call (some 4) (.report "a" "/m")) hattached
  have hr' := reached_perform .shutDown hcalled
  obtain ⟨-, -, hend, -⟩ := settling_ends (fun _ => True) hr' .none
  exact ⟨_, _, ho, rfl, rfl, hend⟩

end Session

end CallFeed

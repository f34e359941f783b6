/-
  CallFeed — snapshots are on time.

  `Session.awaitSnapshot` is one way in which a client calls for a snapshot, looks and waits.
  It always returns: a look that yields nothing counts an event, or the next one does, or the
  clock moves; and there are no more events than can come to the subscription.

  * `Hub.coming` and `coming` are how many events can still come to a subscriber while no call
    is made (`Works.coming_le`);
  * `Followed.awaitSnapshot`: the call returns, and all that it does is what the client of a
    followed subscription may do;
  * `snapshots_on_time` tells when snapshots are produced and when calls return, whatever
    happens in the session and whenever calls are made.
-/
import CallFeed.Proofs.Session.Following

namespace CallFeed

namespace Hub

/-- How many events can come to a subscriber: those in its queue, the one that is on its way
    to it, and those of which the hub was told. -/
def coming (h : Hub) (p : Place) : Nat :=
  (h.queue p).events.length + h.ahead.count p + h.inbound.length + h.waiting.length

variable {h h' : Hub} {ts : List Ticket}

/-- A subscriber is ahead once. -/
theorem Roster.count_ahead_le (hr : Roster h) (p : Place) : h.ahead.count p ≤ 1 := by
  unfold Hub.ahead
  split
  · rename_i b hb
    exact List.nodup_iff_count_le_one.1 (hr.ahead b hb).1 p
  · exact Nat.zero_le _

theorem Roster.coming_le (hr : Roster h) (p : Place) : h.coming p ≤ h.upcoming p := by
  have := hr.count_ahead_le p
  unfold coming upcoming
  omega

/-- A dispatcher only passes events on. -/
theorem Dispatched.coming_le {now : Nat} (hr : Roster h) (hd : Dispatched now h h' ts)
    (p : Place) : h'.coming p ≤ h.coming p := by
  have hahead : ∀ {b}, h.sending = some b → h.ahead = b.ahead := by
    intro b hb
    rw [ahead, hb]
  have hmembers : h.members.count p ≤ 1 := List.nodup_iff_count_le_one.1
    (hr.sorted.imp Nat.ne_of_lt) p
  cases hd with
  | finish hb ha | evict hb ha =>
    simp only [coming, ahead, queue, note, List.count_nil]
    omega
  | @gone b q rest hb ha | @overdue b q rest since hb ha =>
    have hle : rest.count p ≤ h.ahead.count p := by
      rw [hahead hb, ha]
      exact List.count_le_count_cons
    show (h.queue p).events.length + rest.count p + h.inbound.length + h.waiting.length ≤ _
    unfold coming
    omega
  | @deliver b q rest hb ha hh =>
    show ((h.setQueue q _).queue p).events.length + rest.count p + h.inbound.length +
      h.waiting.length ≤ _
    rw [coming, hahead hb, ha, List.count_cons]
    by_cases hq : q = p
    · subst hq
      rw [queue_setQueue_self (lt_of_held hh)]
      simp only [List.length_append, List.length_singleton, beq_self_eq_true, if_true]
      omega
    · rw [queue_setQueue_ne fun he => hq he.symm]
      omega
  | @await b q rest hb ha =>
    show (h.queue p).events.length + b.ahead.count p + h.inbound.length + h.waiting.length ≤ _
    rw [coming, hahead hb]
  | close hb =>
    show (h.queue p).events.length + h.ahead.count p + h.inbound.length + 0 ≤ _
    unfold coming
    omega
  | stop hb =>
    exact Nat.le_refl _
  | @take e rest hb _ _ hin hw | @drain e rest n hb _ hin =>
    show (h.queue p).events.length + h.members.count p + rest.length + h.waiting.length ≤ _
    rw [coming, hin, List.length_cons]
    omega
  | @refill e rest t e' more hb _ _ hin hw =>
    show (h.queue p).events.length + h.members.count p + (rest ++ [e']).length + more.length ≤ _
    simp only [coming, hin, hw, List.length_append, List.length_cons, List.length_nil]
    omega

theorem coming_emit_le (h : Hub) (t : Ticket) (e : Event) (p : Place) :
    (h.emit t e).1.coming p ≤ h.coming p + 1 := by
  have hm := h.emit_moved t e
  generalize (h.emit t e).1 = h', (if (h.emit t e).2 = .waiting then [] else [t]) = ts at hm
  cases hm with
  | accept | queue =>
    simp only [coming, ahead, queue, note, List.length_append, List.length_singleton]
    omega
  | drop => exact Nat.le_succ _

/-- Who looks takes what is in its queue. -/
theorem coming_receiveAll {p : Place} (hp : p < h.queues.length) :
    (h.receiveAll p).1.coming p + (h.queue p).events.length = h.coming p := by
  have hq : (h.receiveAll p).1.queue p = { h.queue p with events := [] } :=
    queue_setQueue_self hp _
  rw [coming, hq]
  show 0 + h.ahead.count p + h.inbound.length + h.waiting.length + _ = _
  unfold coming
  omega

end Hub

namespace Session

variable {α : Type} {s s' : Session α} {g g' : List Telling} {i a w n : Nat} {f : StatFeed}
  {closed : Option Nat} {D : Diary} {p : Place}

/-! ## Events that can come -/

/-- How many calls go on that have a feed to tell. -/
def unsaid (g : List Telling) : Nat := g.countP fun x => !x.feeds.isEmpty

/-- How many events can come to a subscriber of the stat feed if no call is made. -/
def coming (s : Session α) (g : List Telling) (p : Place) : Nat :=
  s.service.stat.coming p + s.service.log.waiting.length + unsaid g

theorem unsaid_append (g k : List Telling) : unsaid (g ++ k) = unsaid g + unsaid k :=
  List.countP_append

theorem unsaid_cons (t : Ticket) (e : Event) (feeds : List Feed) (g : List Telling) :
    unsaid (⟨t, e, feeds⟩ :: g) = unsaid g + if feeds = [] then 0 else 1 := by
  cases feeds <;> simp [unsaid]

/-- Of the calls that the stat feed lets go none has a feed to tell. -/
theorem Waits.unsaid_letGo? (hw : Waits s g) (feed : Feed) {k : List (Ticket × Event)}
    (hk : ∀ x ∈ k, x ∈ (s.service.hub feed).waiting) :
    unsaid ((k.map Prod.fst).filterMap s.letGo?) ≤ if feed = .stat then 0 else k.length := by
  induction k with
  | nil => simp [unsaid]
  | cons x k ih =>
    obtain ⟨t, e⟩ := x
    obtain ⟨feeds, hp, hsub⟩ := hw.queued feed t e (hk _ List.mem_cons_self)
    have hrest := ih fun y hy => hk y (List.mem_cons_of_mem _ hy)
    rw [List.map_cons, List.filterMap_cons_some (letGo?_eq_some hp), unsaid_cons]
    cases feed with
    | stat =>
      rw [eq_nil_of_stat hsub, if_pos rfl]
      exact hrest
    | log =>
      simp only [reduceCtorEq, if_false, List.length_cons] at hrest ⊢
      split <;> omega

/-- Dispatchers and calls only pass events on. -/
theorem Works.coming_le (hr : Reached s g) (hw : Works (fun _ => False) s g s' g') :
    s'.coming g' p ≤ s.coming g p := by
  have hwaits := hr.waits
  cases hw with
  | @dispatch _ h ts feed hs =>
    have hd := Hub.step?_eq_some_iff.1 hs
    obtain ⟨k, hk, rfl⟩ := hd.waiting
    have hgo := hwaits.unsaid_letGo? feed fun x hx => hk ▸ List.mem_append_left h.waiting hx
    rw [coming, coming, unsaid_append]
    cases feed with
    | log =>
      have hlen := congrArg List.length hk
      simp only [reduceCtorEq, if_false, List.length_append] at hgo hlen
      show s.service.stat.coming p + h.waiting.length + _ ≤ _
      have hlog : s.service.log.waiting.length = k.length + h.waiting.length := hlen
      omega
    | stat =>
      have hcoming := hd.coming_le (hr.sound.arises .stat).roster p
      simp only [if_true] at hgo
      show h.coming p + s.service.log.waiting.length + _ ≤ _
      have hstat : h.coming p ≤ s.service.stat.coming p := hcoming
      omega
  | @tell g k t e feed feeds h r he hne =>
    obtain ⟨-, hsub⟩ := hwaits.going ⟨t, e, feed :: feeds⟩ (by simp)
    rw [coming, coming, unsaid_append, unsaid_append, unsaid_cons, unsaid_cons]
    cases feed with
    | log =>
      show s.service.stat.coming p + h.waiting.length + _ ≤ _
      rw [Hub.emit_not_waiting he hne]
      simp only [reduceCtorEq, if_false]
      show s.service.stat.coming p + s.service.log.waiting.length + _ ≤ _
      split <;> omega
    | stat =>
      have hcoming := Hub.coming_emit_le s.service.stat t e p
      have hh : h = (s.service.stat.emit t e).1 := (congrArg Prod.fst he).symm
      rw [← hh] at hcoming
      rw [eq_nil_of_stat hsub]
      show h.coming p + s.service.log.waiting.length + _ ≤ _
      simp only [reduceCtorEq, if_false, if_true]
      omega
  | @wait g k t e feed feeds h he =>
    rw [coming, coming, unsaid_append, unsaid_append, unsaid_cons]
    simp only [reduceCtorEq, if_false]
    cases feed with
    | log =>
      have hlen := congrArg List.length (Hub.emit_waiting he)
      rw [List.length_append, List.length_singleton] at hlen
      have hlog : h.waiting.length = s.service.log.waiting.length + 1 := hlen
      show s.service.stat.coming p + h.waiting.length + _ ≤ _
      omega
    | stat =>
      have hcoming := Hub.coming_emit_le s.service.stat t e p
      have hh : h = (s.service.stat.emit t e).1 := (congrArg Prod.fst he).symm
      rw [← hh] at hcoming
      show h.coming p + s.service.log.waiting.length + _ ≤ _
      omega
  | @finish g k t e =>
    rw [coming, coming, unsaid_append, unsaid_append, unsaid_cons]
    exact Nat.le_refl _
  | receive h | look h => exact h.elim

theorem WorksFor.coming_le (hr : Reached s g) (hw : WorksFor (fun _ => False) s g n s' g') :
    s'.coming g' p ≤ s.coming g p := by
  induction hw with
  | none => exact Nat.le_refl _
  | more hw hstep ih => exact Nat.le_trans (hstep.coming_le (hw.reached hr)) ih

/-! ## Waiting -/

theorem coming_settle_le (hr : Reached s []) : s.settle.coming [] p ≤ s.coming [] p := by
  obtain ⟨n, hw⟩ := works_settle (fun _ => False) hr
  exact hw.coming_le hr

/-- The clock moves on, but not beyond the end of the window. -/
theorem nextTime_bounds (hs : Settled s) (hdue : s.now < f.ticker.due) :
    s.now < s.nextTime f ∧ s.nextTime f ≤ f.ticker.due := by
  unfold nextTime
  split
  · rename_i d hd
    have := hs.lt_deadline? hd
    omega
  · exact ⟨hdue, Nat.le_refl _⟩

/-- A client that waits can let everything settle. -/
theorem Followed.settle (hf : Followed i a w s [] f closed D) :
    ∃ closed', Followed i a w s.settle [] f closed' D := by
  obtain ⟨n, hw⟩ := works_settle (fun _ => False) hf.reached
  exact hf.worked hw

/-- A client that finds nothing can wait for the next time at which there may be something. -/
theorem Followed.wait (hf : Followed i a w s g f closed D) (hs : Settled s)
    (hdue : s.now < f.ticker.due) (hnews : s.service.stat.hasNews f.place = false) :
    ∃ closed', Followed i a w { s with now := s.nextTime f } g f closed' D := by
  obtain ⟨hlt, hle⟩ := nextTime_bounds hs hdue
  exact ⟨_, hf.aside (.clock (Nat.le_of_lt hlt)) (by simp) (Or.inr (Or.inr ⟨hnews, hle⟩))⟩

/-- A look that yields nothing takes the events that were there, and finds the feed open. -/
theorem coming_pollStat {f' : StatFeed} (hf : Followed i a w s [] f closed D)
    (hp : s.pollStat i f = (s', f', .pending)) :
    f'.place = f.place ∧ f'.ticker = f.ticker ∧ s.now < f.ticker.due ∧
      s'.coming [] f'.place + (s.service.stat.hasNews f.place).toNat ≤ s.coming [] f.place := by
  unfold pollStat at hp
  rcases hpoll : f.poll s.now s.service.stat with ⟨f'', h, r⟩
  rw [hpoll] at hp
  cases hp
  obtain ⟨hplace, -, hcases⟩ := StatFeed.poll_cases hpoll
  rcases hcases with ⟨-, ⟨x, hx⟩, -⟩ | ⟨hlt, hticker, hr⟩
  · cases hx
  refine ⟨hplace, hticker, hlt, ?_⟩
  have hhub : h = (s.service.stat.receiveAll f.place).1 := by
    rw [← StatFeed.poll_hub f s.now s.service.stat, hpoll]
  have htake := Hub.coming_receiveAll hf.known
  show h.coming f'.place + s.service.log.waiting.length + unsaid [] + _ ≤ _
  rw [hplace, coming, ← htake, hhub]
  have hfeeds : s.service.stat.feedsPlace f.place = true := by
    by_contra hno
    rw [if_neg hno] at hr
    cases hr
  have hsome : s.service.stat.hasNews f.place = true →
      1 ≤ (s.service.stat.queue f.place).events.length := by
    intro hnews
    rw [Hub.hasNews, hfeeds, Bool.not_true, Bool.or_false, Bool.not_eq_true',
      List.isEmpty_eq_false_iff] at hnews
    exact List.length_pos_iff.2 hnews
  cases hnews : s.service.stat.hasNews f.place with
  | true =>
    have := hsome hnews
    simp only [Bool.toNat_true]
    omega
  | false =>
    simp only [Bool.toNat_false]
    omega

theorem returned_since (D : Diary) (c : Option Nat) (r : Return) (x : Option Snapshot) :
    { D with since := c }.returned r x = D.returned r x := by
  cases x <;> rfl

/-- A client that looks at events counts one of them; after another look there are events, or
    the clock moves. -/
theorem Followed.awaitSnapshotBy {c : Nat} (hf : Followed i a w s [] f closed D)
    (hc : D.since = some c)
    (hn : (f.ticker.due - s.now) + s.coming [] f.place + 3 ≤
      n + (s.service.stat.hasNews f.place).toNat) :
    ∃ closed', Followed i a w (awaitSnapshotBy i n s f).1 [] (awaitSnapshotBy i n s f).2.1
      closed' (D.returned ⟨c, f.ticker.due, (awaitSnapshotBy i n s f).1.now⟩
        (awaitSnapshotBy i n s f).2.2) := by
  induction n generalizing s f closed with
  | zero =>
    have := (s.service.stat.hasNews f.place).toNat_le
    omega
  | succ n ih =>
    have hlook := hf.look hc
    have hnow : (s.pollStat i f).1.now = s.now := rfl
    unfold Session.awaitSnapshotBy
    rcases hp : s.pollStat i f with ⟨s', f', r⟩
    rw [hp] at hlook hnow
    simp only at hlook hnow
    rw [← hnow] at hlook
    cases r with
    | snapshot x | closed => exact ⟨_, hlook⟩
    | pending =>
      obtain ⟨hplace, hticker, hdue, hcoming⟩ := coming_pollStat hf hp
      obtain ⟨closed', hsettled⟩ := hlook.settle
      have hnow' : s'.settle.now = s.now := (aside_settle s').now.trans hnow
      have hle := coming_settle_le (p := f'.place) hlook.reached
      simp only
      rw [← hticker] at hdue hn ⊢
      split
      · rename_i hnews
        refine ih hsettled ?_
        rw [hnow', hnews, Bool.toNat_true]
        omega
      · rename_i hnews
        rw [Bool.not_eq_true] at hnews
        have hset := settled_settle hlook.reached
        have hdue' : s'.settle.now < f'.ticker.due := hnow'.symm ▸ hdue
        obtain ⟨closed'', hwait⟩ := hsettled.wait hset hdue' hnews
        have hnext := (nextTime_bounds hset hdue').1
        refine ih hwait ?_
        show (f'.ticker.due - s'.settle.nextTime f') + s'.settle.coming [] f'.place + 3 ≤
          n + (s'.settle.service.stat.hasNews f'.place).toNat
        rw [hnews, Bool.toNat_false]
        omega

/-- A call always returns. -/
theorem Followed.awaitSnapshot (hf : Followed i a w s [] f closed D) (hidle : D.since = none) :
    ∃ closed', Followed i a w (s.awaitSnapshot i f).1 [] (s.awaitSnapshot i f).2.1 closed'
      (D.returned ⟨s.now, f.ticker.due, (s.awaitSnapshot i f).1.now⟩
        (s.awaitSnapshot i f).2.2) := by
  have hcoming : s.service.stat.coming f.place ≤ s.service.stat.upcoming f.place :=
    (hf.reached.sound.arises .stat).roster.coming_le f.place
  obtain ⟨closed', hf'⟩ := (hf.ask hidle).awaitSnapshotBy rfl
    (n := (f.ticker.due - s.now) + s.service.stat.upcoming f.place +
      s.service.log.waiting.length + 3) (by
    simp only [coming, unsaid, List.countP_nil]
    omega)
  rw [returned_since] at hf'
  exact ⟨closed', hf'⟩

/-! ## Snapshots -/

/-- **Snapshots are on time.** Let a stat subscription be entered at the time `a` with windows of
    `w` seconds; its period is the window, but at most `longestPeriod`. Whatever has happened
    since, the first snapshot was due at the end of the first window, and every other a period
    after the one before at least. None was produced before it was due, so that there are no more
    than periods since the entry; and one came no sooner than a period after the one before,
    less `Ticker.grace`. While the client called for each before it was due, they came a period
    apart exactly.

    A call that has returned did so when it was made or when the snapshot was due, whichever came
    last, with the snapshot; unless it was to wait and the feed was closed before that time, when
    it was told the end, at once. A call that waits has not passed these times, and a call
    by `Session.awaitSnapshot` returns. -/
theorem snapshots_on_time (hf : Followed i a w s g f closed D) :
    f.ticker.period = min (w * 1000) longestPeriod ∧
    (∀ r, D.snapshots[0]? = some r → r.due = a + w * 1000) ∧
    (∀ k r r', D.snapshots[k]? = some r → D.snapshots[k + 1]? = some r' →
      r.due + f.ticker.period ≤ r'.due ∧
        r.time + f.ticker.period ≤ r'.time + Ticker.grace) ∧
    (∀ k r, D.snapshots[k]? = some r →
      r.due ≤ r.time ∧ a + w * 1000 + k * f.ticker.period ≤ r.due) ∧
    D.snapshots.length ≤ (s.now - a) / f.ticker.period ∧
    (∀ k r, D.snapshots[k]? = some r →
      (∀ j ≤ k, ∀ x, D.snapshots[j]? = some x → x.asked ≤ x.due) →
      r.time = a + w * 1000 + k * f.ticker.period) ∧
    (∀ r ∈ D.snapshots, r.IsSnapshot closed) ∧
    (∀ r ∈ D.ends, r.IsEnd closed) ∧
    (∀ c ∈ D.since, c ≤ s.now ∧ s.now ≤ max c f.ticker.due ∧ ∀ o ∈ closed, s.now ≤ max c o) ∧
    (g = [] → D.since = none → ∃ closed',
      Return.IsTimely closed' ⟨s.now, f.ticker.due, (s.awaitSnapshot i f).1.now⟩
        (s.awaitSnapshot i f).2.2 ∧
      Followed i a w (s.awaitSnapshot i f).1 [] (s.awaitSnapshot i f).2.1 closed'
        (D.returned ⟨s.now, f.ticker.due, (s.awaitSnapshot i f).1.now⟩
          (s.awaitSnapshot i f).2.2)) := by
  have ht := hf.onTime
  have hticks := ht.ticks
  have hperiod : f.ticker.period = (Ticker.start a w).period := hticks.period
  have hpos := hf.reached.period hf.subscription
  rw [hperiod] at hpos ⊢
  refine ⟨rfl, fun r hr => hticks.first hr, fun k r r' hr hr' => hticks.succ hr hr',
    fun k r hr => ⟨(hticks.due_eq hr).2, hticks.le_due hr⟩, ?_, fun k r hr hwait => ?_,
    fun r hr => (ht.snapshots r hr).2, ht.ends, ht.waits, ?_⟩
  · refine hticks.length_le ?_ (by omega) fun r hr => (ht.snapshots r hr).1
    exact Nat.add_le_add_left (Nat.min_le_left _ _) a
  · refine hticks.time_eq hr fun j hj x hx => ?_
    rw [(ht.snapshots x (List.mem_of_getElem? hx)).2.1]
    exact Nat.max_eq_right (hwait j hj x hx)
  · rintro rfl hidle
    obtain ⟨closed', hf'⟩ := hf.awaitSnapshot hidle
    exact ⟨closed', hf'.onTime.isTimely, hf'⟩

/-- A window of one second: the first snapshot is waited for, the next one is called for six
    milliseconds late, and the one behind it comes a second after that call. -/
theorem snapshots_on_time_late : ∃ (s : Session Unit) (f : StatFeed) (closed : Option Nat)
    (r r' : Return), Followed 0 0 1 s [] f closed ⟨none, [r, r'], []⟩ ∧
      r.time = 1000 ∧ r'.due = 2000 ∧ r'.time = 2006 ∧ (s.awaitSnapshot 0 f).1.now = 3006 ∧
      r.due + 1000 ≤ r'.due ∧ r.time + 1000 ≤ r'.time + Ticker.grace := by
  have ho : (open? (AccessList.ofRows []) ⟨1, 1, some 5⟩ {} : Option (Session Unit)) =
      some _ := rfl
  obtain ⟨hr, -⟩ := reached_open? ho
  have hattached : Followed 0 0 1 _ [] _ none .empty := .attach hr rfl
  obtain ⟨closed, hfirst⟩ := hattached.awaitSnapshot rfl
  have hlate := hfirst.aside (.clock (show _ ≤ 2006 by decide)) (by simp) (Or.inr (Or.inl rfl))
  obtain ⟨closed', hsecond⟩ := hlate.awaitSnapshot rfl
  obtain ⟨-, -, hpace, -⟩ := snapshots_on_time hsecond
  exact ⟨_, _, _, _, _, hsecond, rfl, rfl, rfl, rfl, hpace 0 _ _ rfl rfl⟩

/-- With windows of thirty years and a second, the second snapshot is due thirty years after the
    first. -/
theorem snapshots_on_time_long : ¬ ∀ (i a w : Nat) (s : Session Unit) (g : List Telling)
    (f : StatFeed) (closed : Option Nat) (D : Diary), Followed i a w s g f closed D →
      ∀ k r r', D.snapshots[k]? = some r → D.snapshots[k + 1]? = some r' →
        r.due + w * 1000 ≤ r'.due := by
  intro hall
  have ho : (open? (AccessList.ofRows []) ⟨1, 1, some 5⟩ {} : Option (Session Unit)) =
      some _ := rfl
  obtain ⟨hr, -⟩ := reached_open? ho
  have hattached : Followed 0 0 946080001 _ [] _ none .empty := .attach hr rfl
  obtain ⟨closed, hfirst⟩ := hattached.awaitSnapshot rfl
  obtain ⟨closed', hsecond⟩ := hfirst.awaitSnapshot rfl
  have hpace := hall _ _ _ _ _ _ _ _ hsecond 0 _ _ rfl rfl
  exact absurd hpace (by decide)

end Session

end CallFeed

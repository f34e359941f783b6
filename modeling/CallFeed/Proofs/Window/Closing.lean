/-
  CallFeed — looking at a stat subscription that the hub has closed.

  A hub has closed a subscription when nothing will be put into its queue any more. A look
  tells so only while the window is not over; at the end of the window it yields the counts,
  as if the feed went on.

  * `Looks` are the looks at a subscription from some moment on, at whatever times and with
    whatever happens in between;
  * `Closing` is a closed subscription with the events that it has not reported; a look tells
    the end or reports all of them (`Closing.poll`);
  * `closed_until_tick`: the end, once told, is told until the window is over, and then what
    the end had cut off is reported after all;
  * `closed_pace`: who looks again within the next window is told the end, and who does
    not is given one snapshot after the other, all but the first of them empty.
-/
import CallFeed.Proofs.Hub.Delivery
import CallFeed.Proofs.Window.Partition

namespace CallFeed

/-- A look at a subscription. -/
structure Look where
  /-- When the window ends. -/
  due : Nat
  time : Nat
  result : Poll

/-- From the state of the subscription `f` at the hub `h` on, it is looked at like this. -/
inductive Looks : Hub → StatFeed → List Look → Prop
  | nil {h f} : Looks h f []
  /-- Something happens to the hub, but not by the subscriber. -/
  | aside {h h' : Hub} {f ls m ts} : h.move? m = some (h', ts) → m.place? ≠ some f.place →
      Looks h' f ls → Looks h f ls
  /-- One event is taken from the queue and counted. -/
  | fold {h h' : Hub} {f ls e} : h.receive f.place = (h', .event e) →
      Looks h' { f with counts := f.counts.record e } ls → Looks h f ls
  | look {h h' : Hub} {f f' : StatFeed} {ls now r} : f.poll now h = (f', h', r) →
      Looks h' f' ls → Looks h f (⟨f.ticker.due, now, r⟩ :: ls)

def Poll.snapshot? : Poll → Option Snapshot
  | .snapshot x => some x
  | _ => none

/-- The snapshots that some looks yield. -/
def snapshotsOf (ls : List Look) : List Snapshot := ls.filterMap fun l => l.result.snapshot?

/-- The hub has closed the subscription, which has not reported the events `es`. -/
structure Closing (h : Hub) (f : StatFeed) (es : List Event) : Prop where
  arises : h.Arises
  held : (h.queue f.place).held = true
  unfed : h.Unfed f.place
  unreported : ∃ folded, Counts f.counts folded ∧ folded ++ (h.queue f.place).events = es

theorem Watched.closing {h : Hub} {f : StatFeed} {opened : Nat} {ws : List Window}
    (hw : Watched h f opened ws) (hc : h.feedsPlace f.place = false) :
    Closing h f (pushedTo f.place (h.journal.drop opened)) where
  arises := hw.partitioned.arises
  held := hw.partitioned.held
  unfed := (Hub.unfed_iff (Hub.lt_of_held hw.partitioned.held)).2 hc
  unreported := ⟨_, hw.partitioned.folded, hw.partitioned.present⟩

namespace Closing
variable {h h' : Hub} {f f' : StatFeed} {es : List Event} {ls : List Look}

/-- What others do is nothing to a closed subscription. -/
theorem aside {m : Hub.Move} {ts : List Ticket} (hc : Closing h f es)
    (hm : h.move? m = some (h', ts)) (hne : m.place? ≠ some f.place) : Closing h' f es := by
  obtain ⟨hu, hsame, -⟩ := hc.unfed.moved (Hub.moved_of_move? hm)
  obtain ⟨folded, hcounts, hall⟩ := hc.unreported
  refine ⟨hc.arises.follow (Hub.follow?_singleton hm), ?_, hu, folded, hcounts, ?_⟩
  · rw [hsame hne]
    exact hc.held
  · rw [hsame hne]
    exact hall

theorem fold {e : Event} (hc : Closing h f es) (he : h.receive f.place = (h', .event e)) :
    Closing h' { f with counts := f.counts.record e } es := by
  have hm : h.move? (.receive f.place) = some (h', []) := by
    simp [Hub.move?, hc.held, he]
  have hmv := Hub.moved_of_move? hm
  obtain ⟨hu, -, -⟩ := hc.unfed.moved hmv
  obtain ⟨folded, hcounts, hall⟩ := hc.unreported
  refine ⟨hc.arises.follow (Hub.follow?_singleton hm), hmv.held (by simp) hc.held, hu,
    folded ++ [e], hcounts.record e, ?_⟩
  obtain ⟨rest, hevents, rfl⟩ := Hub.receive_eq_event he
  have hqueue : ((h.setQueue f.place { h.queue f.place with events := rest }).note
      (.received f.place e)).queue f.place = { h.queue f.place with events := rest } :=
    Hub.queue_setQueue_self hc.unfed.known _
  rw [hqueue, ← hall, hevents]
  simp

/-- A look at a closed subscription tells the end, or reports what was not reported. -/
theorem poll {now : Nat} {r : Poll} (hc : Closing h f es) (hp : f.poll now h = (f', h', r)) :
    now < f.ticker.due ∧ r = .closed ∧ f'.ticker = f.ticker ∧ Closing h' f' es ∨
    f.ticker.due ≤ now ∧ (∃ x, r = .snapshot x ∧ Counts x es) ∧
      f'.ticker = f.ticker.tick now ∧ Closing h' f' [] := by
  obtain ⟨ha, hheld, hempty, -, hplace⟩ := Watched.polled hc.arises hc.held hp
  obtain ⟨folded, hcounts, hall⟩ := hc.unreported
  have hall' := hcounts.recordAll (h.queue f.place).events
  rw [hall] at hall'
  have hm := StatFeed.move?_of_poll now hc.held
  rw [hp] at hm
  obtain ⟨hu, -, -⟩ := hc.unfed.moved (Hub.moved_of_move? hm)
  have hend : h'.feedsPlace f.place = false := (Hub.unfed_iff hu.known).1 hu
  have hstep : ∀ es', (∃ folded, Counts f'.counts folded ∧ folded = es') → Closing h' f' es' := by
    rintro _ ⟨folded, hf, rfl⟩
    rw [← hplace] at hheld hempty hu
    exact ⟨ha, hheld, hu, folded, hf, by rw [hempty, List.append_nil]⟩
  simp only [StatFeed.poll] at hp
  split at hp
  · rename_i hdue
    cases hp
    exact Or.inr ⟨hdue, ⟨_, rfl, hall'⟩, rfl, hstep [] ⟨_, counts_empty, rfl⟩⟩
  · rename_i hdue
    simp only [Prod.mk.injEq] at hp
    obtain ⟨rfl, rfl, rfl⟩ := hp
    exact Or.inl ⟨Nat.not_le.1 hdue, by rw [hend]; rfl, rfl, hstep es ⟨_, hall', rfl⟩⟩

end Closing

/-- Who is told the end has a closed subscription. -/
theorem StatFeed.feedsPlace_of_poll {h h' : Hub} {f f' : StatFeed} {now : Nat}
    (hp : f.poll now h = (f', h', .closed)) : h.feedsPlace f.place = false := by
  obtain ⟨-, -, ⟨-, ⟨x, hx⟩, -⟩ | ⟨-, -, hr⟩⟩ := poll_cases hp
  · cases hx
  · by_contra hfeeds
    rw [if_pos (Bool.not_eq_false _ ▸ hfeeds)] at hr
    cases hr

/-- Looks leave the length of the windows as it was chosen. -/
theorem Watched.period {h : Hub} {f : StatFeed} {opened : Nat} {ws : List Window}
    (hw : Watched h f opened ws) :
    f.ticker.period = min (f.seconds * 1000) longestPeriod := by
  have hpoll : ∀ (f : StatFeed) now h, (f.poll now h).1.ticker.period = f.ticker.period ∧
      (f.poll now h).1.seconds = f.seconds := by
    intro f now h
    simp only [StatFeed.poll]
    split <;> exact ⟨rfl, rfl⟩
  induction hw with
  | attach => rfl
  | aside _ _ _ ih => exact ih
  | fold _ _ ih => exact ih
  | @look h h' f f' opened ws now r _ hp _ ih | @snapshot h h' f f' opened ws now x _ hp ih =>
    obtain ⟨hperiod, hseconds⟩ := hpoll f now h
    rw [hp] at hperiod hseconds
    rw [hperiod, hseconds, ih]

/-! ## From the close on -/

namespace Looks
variable {h : Hub} {f : StatFeed} {es : List Event} {ls : List Look}

/-- The first look is at the present window. -/
theorem due_head? (hl : Looks h f ls) : ∀ l ∈ ls.head?, l.due = f.ticker.due := by
  induction hl with
  | nil => simp
  | aside _ _ _ ih => exact ih
  | fold _ _ ih => exact ih
  | look => simp

/-- Every look tells the end before the end of the window, and yields a snapshot from then on. -/
theorem answered (hl : Looks h f ls) (hc : Closing h f es) : ∀ l ∈ ls,
    l.time < l.due ∧ l.result = .closed ∨ l.due ≤ l.time ∧ ∃ x, l.result = .snapshot x := by
  induction hl generalizing es with
  | nil => simp
  | aside hm hne _ ih => exact ih (hc.aside hm hne)
  | fold he _ ih => exact ih (hc.fold he)
  | look hp _ ih =>
    rintro l (_ | ⟨_, hmem⟩)
    · rcases hc.poll hp with ⟨hlt, hr, -⟩ | ⟨hle, ⟨x, hr, -⟩, -⟩
      · exact Or.inl ⟨hlt, hr⟩
      · exact Or.inr ⟨hle, x, hr⟩
    · rcases hc.poll hp with ⟨-, -, -, hc'⟩ | ⟨-, -, -, hc'⟩
      · exact ih hc' l hmem
      · exact ih hc' l hmem

/-- The looks before the end of the present window tell the end; the first of the others
    reports what was not reported. -/
theorem until_due (hl : Looks h f ls) (hc : Closing h f es) :
    (∀ l ∈ ls.takeWhile (·.time < f.ticker.due), l.result = .closed) ∧
      ∀ l ∈ (ls.dropWhile (·.time < f.ticker.due)).head?,
        ∃ x, l.result = .snapshot x ∧ Counts x es := by
  induction hl generalizing es with
  | nil => simp
  | aside hm hne _ ih => exact ih (hc.aside hm hne)
  | fold he _ ih => exact ih (hc.fold he)
  | @look h h' f f' ls now r hp _ ih =>
    rcases hc.poll hp with ⟨hlt, rfl, hticker, hc'⟩ | ⟨hle, ⟨x, rfl, hx⟩, -⟩
    · rw [List.takeWhile_cons_of_pos (by simpa using hlt),
        List.dropWhile_cons_of_pos (by simpa using hlt), ← hticker]
      obtain ⟨hearly, hlate⟩ := ih hc'
      refine ⟨?_, hlate⟩
      rintro l (_ | ⟨_, hmem⟩)
      · rfl
      · exact hearly l hmem
    · rw [List.takeWhile_cons_of_neg (by simpa using hle),
        List.dropWhile_cons_of_neg (by simpa using hle)]
      refine ⟨by simp, ?_⟩
      rintro l ⟨⟩
      exact ⟨x, rfl, hx⟩

/-- The first snapshot reports what was not reported, and the others nothing. -/
theorem reported (hl : Looks h f ls) (hc : Closing h f es) :
    (∀ x ∈ (snapshotsOf ls).head?, Counts x es) ∧ ∀ x ∈ (snapshotsOf ls).tail, Counts x [] := by
  induction hl generalizing es with
  | nil => simp [snapshotsOf]
  | aside hm hne _ ih => exact ih (hc.aside hm hne)
  | fold he _ ih => exact ih (hc.fold he)
  | @look h h' f f' ls now r hp _ ih =>
    rcases hc.poll hp with ⟨-, rfl, -, hc'⟩ | ⟨-, ⟨x, rfl, hx⟩, -, hc'⟩
    · exact ih hc'
    · obtain ⟨hhead, htail⟩ := ih hc'
      have hcons : snapshotsOf (⟨f.ticker.due, now, .snapshot x⟩ :: ls) = x :: snapshotsOf ls := rfl
      rw [hcons]
      refine ⟨by rintro y ⟨⟩; exact hx, fun y hy => ?_⟩
      rw [List.tail_cons] at hy
      cases hs : snapshotsOf ls with
      | nil =>
        rw [hs] at hy
        cases hy
      | cons z zs =>
        rw [hs] at hy hhead htail
        rcases List.mem_cons.1 hy with rfl | hy
        · exact hhead y rfl
        · exact htail y hy

/-- A look that comes less than a window after a snapshot, less `Ticker.grace`, tells the
    end. -/
theorem paced {period : Nat} (hl : Looks h f ls) (hc : Closing h f es)
    (hperiod : f.ticker.period = period) :
    ls.IsChain fun l k => ∀ x, l.result = .snapshot x →
      k.time + Ticker.grace < l.time + period → k.result = .closed := by
  induction hl generalizing es with
  | nil => exact .nil
  | aside hm hne _ ih => exact ih (hc.aside hm hne) hperiod
  | fold he _ ih => exact ih (hc.fold he) hperiod
  | @look h h' f f' ls now r hp hrest ih =>
    rw [List.isChain_cons]
    rcases hc.poll hp with ⟨-, rfl, hticker, hc'⟩ | ⟨hle, ⟨x, rfl, -⟩, hticker, hc'⟩
    · exact ⟨fun k _ x hx => (by cases hx), ih hc' (hticker ▸ hperiod)⟩
    · refine ⟨fun k hk y _ hlt => ?_, ih hc' (by rw [hticker]; exact hperiod)⟩
      -- the next window ends one period after this one, or after the look if that was late
      have hdue : k.due = (f.ticker.tick now).due := hticker ▸ hrest.due_head? k hk
      rcases hrest.answered hc' k (List.mem_of_mem_head? hk) with ⟨-, hr⟩ | ⟨hle', -⟩
      · exact hr
      · have hlt' : k.time + Ticker.grace < now + period := hlt
        simp only [Ticker.tick] at hdue
        split at hdue <;> omega

end Looks

/-- A hub that has stopped after one event, which the only subscriber has not taken. -/
def stoppedHub : Hub where
  feed := .stat
  settings := ⟨1, 1, none⟩
  senders := 1
  closing := true
  stage := .stopped
  inbound := []
  waiting := []
  queues := [⟨[⟨"a", "/m", none⟩], true⟩]
  members := []
  sending := none
  journal := [.started, .attached 0 1, .emitted ⟨"a", "/m", none⟩, .taken ⟨"a", "/m", none⟩ [0],
    .delivered 0 ⟨"a", "/m", none⟩, .closed, .stopped 1 0]

/-- The subscriber had entered with a window of one second. -/
theorem watched_stoppedHub : Watched stoppedHub (.start 0 0 1) 2 [] := by
  have h0 : Hub.start? .stat ⟨1, 1, none⟩ 1 =
      some ⟨.stat, ⟨1, 1, none⟩, 1, false, .running, [], [], [], [], none, [.started]⟩ := rfl
  have hattached : Watched _ (.start 0 0 1) _ [] := .attach (Hub.arises_of_start? h0) rfl
  exact hattached.follow (show Hub.follow? [.emit 0 ⟨"a", "/m", none⟩, .dispatch 0, .dispatch 0,
    .dispatch 0, .requestClose, .dispatch 0, .dispatch 0] _ = some (stoppedHub, _) from rfl)
    (by decide)

/-- **The end is told until the window is over.** Once a look has told the end, so does every
    look before the end of the window that was cut off; the first look from then on reports
    just what that window had counted. -/
theorem closed_until_tick {h h' : Hub} {f f' : StatFeed} {opened : Nat} {ws : List Window}
    {now : Nat} {ls : List Look} (hw : Watched h f opened ws)
    (hc : f.poll now h = (f', h', .closed)) (hl : Looks h' f' ls) :
    (∀ l ∈ ls.takeWhile (·.time < f.ticker.due), l.result = .closed) ∧
    (∀ l ∈ (ls.dropWhile (·.time < f.ticker.due)).head?,
      ∃ x, l.result = .snapshot x ∧ Counts x (pushedTo f.place (h.journal.drop opened))) := by
  have hend : h.feedsPlace f.place = false := StatFeed.feedsPlace_of_poll hc
  rcases (hw.closing hend).poll hc with ⟨-, -, hticker, hc'⟩ | ⟨-, ⟨x, hx, -⟩, -⟩
  · rw [← hticker]
    exact hl.until_due hc'
  · cases hx

/-- An event is counted by the look that tells the end. A look before the end of the window
    tells it again, and the next one reports the event. -/
theorem closed_until_tick_one :
    ∃ h f opened ws f' h' l l', Watched h f opened ws ∧ f.poll 0 h = (f', h', .closed) ∧
      Looks h' f' [l, l'] ∧ l.result = .closed ∧
      ∃ x, l'.result = .snapshot x ∧ Counts x [⟨"a", "/m", none⟩] := by
  obtain ⟨hearly, hlate⟩ := closed_until_tick watched_stoppedHub
    (show StatFeed.poll _ 0 _ = (_, _, .closed) from rfl)
    (.look (show StatFeed.poll _ 999 _ = (_, _, _) from rfl)
      (.look (show StatFeed.poll _ 1000 _ = (_, _, _) from rfl) .nil))
  exact ⟨_, _, _, _, _, _, _, _, watched_stoppedHub, rfl, .look rfl (.look rfl .nil),
    hearly _ List.mem_cons_self, hlate _ rfl⟩

/-- What was told once need not be told for ever. -/
theorem closed_not_final : ¬ ∀ (h h' : Hub) (f f' : StatFeed) (opened : Nat) (ws : List Window)
    (now : Nat) (ls : List Look), Watched h f opened ws → f.poll now h = (f', h', .closed) →
      Looks h' f' ls → ∀ l ∈ ls, l.result = .closed := by
  intro hall
  have hlast := hall _ _ _ _ _ _ _ _ watched_stoppedHub
    (show StatFeed.poll _ 0 _ = (_, _, .closed) from rfl)
    (.look (show StatFeed.poll _ 1000 _ = (_, _, _) from rfl) .nil) _ List.mem_cons_self
  cases hlast

/-- **A closed feed goes by the pace of who looks.** Every look at a closed subscription tells
    the end if the window is not over, and yields a snapshot if it is. The first snapshot
    reports all that was not reported, and those behind it nothing. A look that comes less than
    a window after a snapshot, less `Ticker.grace`, tells the end. -/
theorem closed_pace {h : Hub} {f : StatFeed} {opened : Nat} {ws : List Window} {ls : List Look}
    (hw : Watched h f opened ws) (hc : h.feedsPlace f.place = false) (hl : Looks h f ls) :
    (∀ l ∈ ls, l.time < l.due ∧ l.result = .closed ∨
      l.due ≤ l.time ∧ ∃ x, l.result = .snapshot x) ∧
    (∀ x ∈ (snapshotsOf ls).head?, Counts x (pushedTo f.place (h.journal.drop opened))) ∧
    (∀ x ∈ (snapshotsOf ls).tail, Counts x []) ∧
    ls.IsChain fun l k => ∀ x, l.result = .snapshot x →
      k.time + Ticker.grace < l.time + min (f.seconds * 1000) longestPeriod →
        k.result = .closed := by
  have hclosing := hw.closing hc
  obtain ⟨hfirst, hrest⟩ := hl.reported hclosing
  exact ⟨hl.answered hclosing, hfirst, hrest, hl.paced hclosing hw.period⟩

/-- An event is in the queue when the hub stops. A look after the window of one second reports
    it, and a look half a second later tells the end. -/
theorem closed_pace_prompt :
    ∃ h f opened ws l k, Watched h f opened ws ∧ h.feedsPlace f.place = false ∧
      Looks h f [l, k] ∧ (∃ x, l.result = .snapshot x ∧ Counts x [⟨"a", "/m", none⟩]) ∧
      k.time = 2000 ∧ k.result = .closed := by
  obtain ⟨-, hfirst, -, hpace⟩ := closed_pace watched_stoppedHub rfl
    (.look (show StatFeed.poll _ 1500 _ = (_, _, _) from rfl)
      (.look (show StatFeed.poll _ 2000 _ = (_, _, _) from rfl) .nil))
  refine ⟨_, _, _, _, _, _, watched_stoppedHub, rfl,
    .look (show StatFeed.poll _ 1500 _ = (_, _, _) from rfl)
      (.look (show StatFeed.poll _ 2000 _ = (_, _, _) from rfl) .nil), ?_, rfl, ?_⟩
  · exact ⟨_, rfl, hfirst _ rfl⟩
  · exact (List.isChain_cons_cons.1 hpace).1 _ rfl (by decide)

/-- A closed feed need not end: who looks at the end of every window gets a snapshot each
    time. -/
theorem closed_pace_endless : ¬ ∀ (h : Hub) (f : StatFeed) (opened : Nat) (ws : List Window)
    (ls : List Look), Watched h f opened ws → h.feedsPlace f.place = false → Looks h f ls →
      (snapshotsOf ls).length ≤ 1 := by
  intro hall
  have hlen := hall _ _ _ _ _ watched_stoppedHub rfl
    (.look (show StatFeed.poll _ 1000 _ = (_, _, _) from rfl)
      (.look (show StatFeed.poll _ 2000 _ = (_, _, _) from rfl) .nil))
  exact absurd hlen (by decide)

end CallFeed

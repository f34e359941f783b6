/-
  CallFeed — windows partition the stat feed.

  * `Watched` follows a stat subscription from the moment at which it was entered: all that
    others do to its hub, every event that it takes and counts, every look at it. It
    keeps the windows that are over (`Window`), each between two lengths of the hub's journal;
  * `Partitioned` is what every step keeps: a window that is over counts what was put into
    the queue while it lasted, and the present one what was taken from it since;
  * `windows_partition` is what the snapshots of a subscription count.
-/
import CallFeed.Proofs.Hub.Situation
import CallFeed.Proofs.Window.Counts
import Mathlib.Data.List.Chain

namespace CallFeed

/-- What was entered in a journal between two lengths of it. -/
def between (i m : Nat) (j : List Occurrence) : List Occurrence := (j.take m).drop i

/-- A window that is over. -/
structure Window where
  /-- The length of the journal when it began: when the subscriber was entered, or when the
      snapshot before was produced. -/
  opened : Nat
  /-- The length of the journal when its snapshot was produced. -/
  closed : Nat
  snapshot : Snapshot

/-- The subscription `f` is at the hub `h`. Its window began when the journal was that long,
    and the others are over. -/
inductive Watched : Hub → StatFeed → Nat → List Window → Prop
  | attach {h h' : Hub} {p now seconds} : h.Arises → h.attach = .ok (h', p) →
      Watched h' (.start p now seconds) h'.journal.length []
  /-- Something happens to the hub, but not by the subscriber. -/
  | aside {h h' : Hub} {f opened ws m ts} : Watched h f opened ws → h.move? m = some (h', ts) →
      m.place? ≠ some f.place → Watched h' f opened ws
  /-- One event is taken from the queue and counted. -/
  | fold {h h' : Hub} {f opened ws e} : Watched h f opened ws → h.receive f.place = (h', .event e) →
      Watched h' { f with counts := f.counts.record e } opened ws
  /-- A look finds the window not over. -/
  | look {h h' : Hub} {f f' : StatFeed} {opened ws now r} : Watched h f opened ws →
      f.poll now h = (f', h', r) → (∀ x, r ≠ .snapshot x) → Watched h' f' opened ws
  /-- A look finds the window over. -/
  | snapshot {h h' : Hub} {f f' : StatFeed} {opened ws now x} : Watched h f opened ws →
      f.poll now h = (f', h', .snapshot x) →
      Watched h' f' h'.journal.length (ws ++ [⟨opened, h'.journal.length, x⟩])

/-- The windows count what was put into the queue while they lasted. -/
structure Partitioned (h : Hub) (f : StatFeed) (opened : Nat) (ws : List Window) : Prop where
  arises : h.Arises
  held : (h.queue f.place).held = true
  opened_le : opened ≤ h.journal.length
  balanced : receivedFrom f.place (h.journal.take opened) = pushedTo f.place (h.journal.take opened)
  folded : Counts f.counts (receivedFrom f.place (h.journal.drop opened))
  counted : ∀ w ∈ ws, w.closed ≤ h.journal.length ∧
    Counts w.snapshot (pushedTo f.place (between w.opened w.closed h.journal))
  adjoining : ws.IsChain (fun v w => v.closed = w.opened) ∧ ∀ w ∈ ws.getLast?, w.closed = opened
  total : (ws.flatMap fun w => pushedTo f.place (between w.opened w.closed h.journal)) =
    pushedTo f.place (h.journal.take opened)

namespace Partitioned
variable {h h' : Hub} {f : StatFeed} {opened : Nat} {ws : List Window}

/-- What was put into the queue in the present window was taken from it or is in it. -/
theorem present (hp : Partitioned h f opened ws) :
    receivedFrom f.place (h.journal.drop opened) ++ (h.queue f.place).events =
      pushedTo f.place (h.journal.drop opened) := by
  have hbal := hp.arises.holding.balance f.place hp.held
  rw [← List.take_append_drop opened h.journal, receivedFrom_append, pushedTo_append, hp.balanced,
    List.append_assoc] at hbal
  exact List.append_cancel_left hbal

theorem attach {p : Place} (ha : h.Arises) (hat : h.attach = .ok (h', p)) (now seconds : Nat) :
    Partitioned h' (.start p now seconds) h'.journal.length [] := by
  have hr := ha.roster
  have harises : h'.Arises := by
    have hm : h.move? .attach = some (h', []) := by simp [Hub.move?, hat]
    exact ha.follow (Hub.follow?_singleton hm)
  obtain ⟨-, rfl, rfl⟩ := Hub.attach_eq_ok hat
  obtain ⟨hpush, hrec, -⟩ := hr.fresh
  refine ⟨harises, ?_, Nat.le_refl _, ?_, ?_, by simp, ⟨.nil, by simp⟩, ?_⟩
  · simp [StatFeed.start, Hub.queue, Hub.note]
  · rw [List.take_length]
    simp [StatFeed.start, Hub.note, hpush, hrec]
  · simpa [StatFeed.start] using counts_empty
  · rw [List.take_length]
    simp [StatFeed.start, Hub.note, hpush]

/-- The journal grows, and the subscriber counts what it takes. -/
theorem grow (hp : Partitioned h f opened ws) {f' : StatFeed} {k : List Occurrence}
    (ha : h'.Arises) (hj : h'.journal = h.journal ++ k) (hplace : f'.place = f.place)
    (hheld : (h'.queue f.place).held = true)
    (hcounts : Counts f'.counts
      (receivedFrom f.place (h.journal.drop opened) ++ receivedFrom f.place k)) :
    Partitioned h' f' opened ws := by
  have htake : ∀ m ≤ h.journal.length, (h.journal ++ k).take m = h.journal.take m := fun m hm =>
    List.take_append_of_le_length hm
  have hbetween : ∀ w ∈ ws, between w.opened w.closed (h.journal ++ k) =
      between w.opened w.closed h.journal := by
    intro w hw
    rw [between, between, htake _ (hp.counted w hw).1]
  refine ⟨ha, hplace ▸ hheld, ?_, ?_, ?_, fun w hw => ?_, hp.adjoining, ?_⟩
  · rw [hj, List.length_append]
    exact Nat.le_add_right_of_le hp.opened_le
  · rw [hj, hplace, htake _ hp.opened_le]
    exact hp.balanced
  · rw [hj, hplace, List.drop_append_of_le_length hp.opened_le, receivedFrom_append]
    exact hcounts
  · rw [hj, hplace, hbetween w hw, List.length_append]
    exact ⟨Nat.le_add_right_of_le (hp.counted w hw).1, (hp.counted w hw).2⟩
  · rw [hj, hplace, htake _ hp.opened_le, ← hp.total]
    exact List.flatMap_congr fun w hw => by rw [hbetween w hw]

/-- A window is over: with nothing in the queue, it counts all that was put there. -/
theorem close (hp : Partitioned h f opened ws) (hempty : (h.queue f.place).events = [])
    {f' : StatFeed} (hplace : f'.place = f.place) (hcounts : f'.counts = .empty) :
    Partitioned h f' h.journal.length (ws ++ [⟨opened, h.journal.length, f.counts⟩]) := by
  have hpresent := hp.present
  rw [hempty, List.append_nil] at hpresent
  have hlast : between opened h.journal.length h.journal = h.journal.drop opened := by
    rw [between, List.take_length]
  refine ⟨hp.arises, hplace ▸ hp.held, Nat.le_refl _, ?_, ?_, fun w hw => ?_, ⟨?_, ?_⟩, ?_⟩
  · rw [List.take_length, hplace]
    have hbal := hp.arises.holding.balance f.place hp.held
    rwa [hempty, List.append_nil] at hbal
  · rw [List.drop_length, hcounts]
    exact counts_empty
  · rw [hplace]
    rcases List.mem_append.1 hw with hw | hw
    · exact hp.counted w hw
    · rw [List.mem_singleton.1 hw, hlast, ← hpresent]
      exact ⟨Nat.le_refl _, hp.folded⟩
  · rw [List.isChain_append]
    refine ⟨hp.adjoining.1, .singleton _, fun v hv w hw => ?_⟩
    obtain rfl := Option.some.inj hw
    exact hp.adjoining.2 v hv
  · intro w hw
    rw [List.getLast?_concat] at hw
    obtain rfl := Option.some.inj hw
    rfl
  · rw [List.flatMap_append, hplace, hp.total, List.take_length]
    simp only [List.flatMap_cons, List.flatMap_nil, List.append_nil, hlast]
    rw [← pushedTo_append, List.take_append_drop]

end Partitioned

namespace Watched
variable {h : Hub} {f : StatFeed} {opened : Nat} {ws : List Window}

/-- A look takes everything from the queue. -/
theorem polled {h h' : Hub} {f f' : StatFeed} {now : Nat} {r : Poll} (ha : h.Arises)
    (hh : (h.queue f.place).held = true) (hp : f.poll now h = (f', h', r)) :
    h'.Arises ∧ (h'.queue f.place).held = true ∧ (h'.queue f.place).events = [] ∧
      h'.journal = h.journal ++ (h.queue f.place).events.map (.received f.place) ∧
      f'.place = f.place := by
  have hm := StatFeed.move?_of_poll now hh
  have hhub := StatFeed.poll_hub f now h
  have hplace := StatFeed.poll_place f now h
  rw [hp] at hm hhub hplace
  subst hhub
  have hqueue : (h.receiveAll f.place).1.queue f.place =
      { h.queue f.place with events := [] } := Hub.queue_setQueue_self (Hub.lt_of_held hh) _
  refine ⟨ha.follow (Hub.follow?_singleton hm), ?_, ?_, rfl, hplace⟩
  · rw [hqueue]
    exact hh
  · rw [hqueue]

/-- A look counts what was queued: the snapshot does if the window is over. -/
theorem poll_counts {h h' : Hub} {f f' : StatFeed} {now : Nat} {r : Poll}
    (hp : f.poll now h = (f', h', r)) :
    (∀ x, r = .snapshot x → x = f.counts.recordAll (h.queue f.place).events ∧
      f'.counts = .empty) ∧
    ((∀ x, r ≠ .snapshot x) → f'.counts = f.counts.recordAll (h.queue f.place).events) := by
  simp only [StatFeed.poll, Hub.receiveAll] at hp
  split at hp
  · cases hp
    exact ⟨fun x hx => by cases hx; exact ⟨rfl, rfl⟩, fun hr => absurd rfl (hr _)⟩
  · simp only [Prod.mk.injEq] at hp
    obtain ⟨rfl, -, rfl⟩ := hp
    have hno : ∀ (b : Bool) x, (if b = true then Poll.pending else Poll.closed) ≠ .snapshot x := by
      intro b x
      cases b <;> simp
    exact ⟨fun x hx => absurd hx (hno _ x), fun _ => rfl⟩

/-- Whatever happens, the windows count what was put into the queue while they lasted. -/
theorem partitioned (hw : Watched h f opened ws) : Partitioned h f opened ws := by
  induction hw with
  | attach ha hat => exact .attach ha hat _ _
  | @aside h h' f opened ws m ts _ hm hne ih =>
    have hmv := Hub.moved_of_move? hm
    obtain ⟨k, hj, hrec⟩ := hmv.journal_append
    refine ih.grow (ih.arises.follow (Hub.follow?_singleton hm)) hj rfl ?_ ?_
    · exact hmv.held (fun he => hne (by rw [he]; rfl)) ih.held
    · rw [hrec _ hne, List.append_nil]
      exact ih.folded
  | @fold h h' f opened ws e _ he ih =>
    have hm : h.move? (.receive f.place) = some (h', []) := by
      simp [Hub.move?, ih.held, he]
    have hmv := Hub.moved_of_move? hm
    obtain ⟨rest, -, rfl⟩ := Hub.receive_eq_event he
    refine ih.grow (k := [.received f.place e]) (ih.arises.follow (Hub.follow?_singleton hm))
      rfl rfl (hmv.held (by simp) ih.held) ?_
    simpa using ih.folded.record e
  | @look h h' f f' opened ws now r _ hp hr ih =>
    obtain ⟨ha, hheld, -, hj, hplace⟩ := polled ih.arises ih.held hp
    refine ih.grow ha hj hplace hheld ?_
    obtain ⟨-, -, -, -, hrec⟩ := readings_map_received f.place f.place (h.queue f.place).events
    rw [hrec, if_pos rfl, (poll_counts hp).2 hr]
    exact ih.folded.recordAll _
  | @snapshot h h' f f' opened ws now x _ hp ih =>
    obtain ⟨ha, hheld, hempty, hj, hplace⟩ := polled ih.arises ih.held hp
    obtain ⟨-, -, -, -, hrec⟩ := readings_map_received f.place f.place (h.queue f.place).events
    obtain ⟨hx, hcounts⟩ := (poll_counts hp).1 x rfl
    -- the events still queued are counted before the window is closed
    have hgrow : Partitioned h' { f with counts := x } opened ws := by
      refine ih.grow ha hj rfl hheld ?_
      rw [hrec, if_pos rfl, hx]
      exact ih.folded.recordAll _
    exact hgrow.close hempty hplace hcounts

/-- What others do to the hub in a run has nothing to do with a subscription. -/
theorem follow {h' : Hub} {ms : List Hub.Move} {ts : List Ticket} (hw : Watched h f opened ws)
    (hr : h.follow? ms = some (h', ts)) (hms : ∀ m ∈ ms, m.place? ≠ some f.place) :
    Watched h' f opened ws := by
  induction ms generalizing h ts with
  | nil =>
    cases hr
    exact hw
  | cons m ms ih =>
    simp only [Hub.follow?] at hr
    split at hr
    · cases hr
    · rename_i g us hm
      obtain ⟨r, hr', he⟩ := Option.map_eq_some_iff.1 hr
      cases he
      exact ih (hw.aside hm (hms m List.mem_cons_self)) hr' fun k hk =>
        hms k (List.mem_cons_of_mem _ hk)

end Watched

/-- **Windows partition the feed.** Every snapshot counts what was put into the queue of its
    subscription from the snapshot before, or its entry, on; one window begins where the one
    before ends, so that what they count, and what was put there since the last of them,
    is all that ever was, each event once. What was put there since is what is already
    counted and, behind that, what is queued. A look that yields a snapshot yields the
    counts of all of it, and leaves nothing in the queue and nothing counted. -/
theorem windows_partition {h : Hub} {f : StatFeed} {opened : Nat} {ws : List Window}
    (hw : Watched h f opened ws) :
    (∀ w ∈ ws, Counts w.snapshot (pushedTo f.place (between w.opened w.closed h.journal))) ∧
    ws.IsChain (fun v w => v.closed = w.opened) ∧ (∀ w ∈ ws.getLast?, w.closed = opened) ∧
    (ws.flatMap fun w => pushedTo f.place (between w.opened w.closed h.journal)) ++
        pushedTo f.place (h.journal.drop opened) = pushedTo f.place h.journal ∧
    (∃ folded, Counts f.counts folded ∧
      folded ++ (h.queue f.place).events = pushedTo f.place (h.journal.drop opened)) ∧
    (∀ now f' h' x, f.poll now h = (f', h', .snapshot x) →
      Counts x (pushedTo f.place (h.journal.drop opened)) ∧
        (h'.queue f.place).events = [] ∧ f'.counts = .empty) := by
  have hp := hw.partitioned
  refine ⟨fun w hmem => (hp.counted w hmem).2, hp.adjoining.1, hp.adjoining.2, ?_,
    ⟨_, hp.folded, hp.present⟩, fun now f' h' x hpoll => ?_⟩
  · rw [hp.total, ← pushedTo_append, List.take_append_drop]
  · obtain ⟨-, -, hempty, -, -⟩ := Watched.polled hp.arises hp.held hpoll
    obtain ⟨hx, hcounts⟩ := (Watched.poll_counts hpoll).1 x rfl
    refine ⟨?_, hempty, hcounts⟩
    rw [hx, ← hp.present]
    exact hp.folded.recordAll _

/-- Two events, the first of which is counted by a look before the window of one second is
    over: the snapshot counts both. -/
theorem windows_partition_two :
    ∃ h f opened w, Watched h f opened [w] ∧
      Counts w.snapshot [⟨"a", "/m", none⟩, ⟨"b", "/m", none⟩] := by
  have h0 : Hub.start? .stat ⟨2, 2, none⟩ 1 =
      some ⟨.stat, ⟨2, 2, none⟩, 1, false, .running, [], [], [], [], none, [.started]⟩ := rfl
  have hattached : Watched _ (.start 0 0 1) _ [] := .attach (Hub.arises_of_start? h0) rfl
  have hfirst := hattached.follow (show Hub.follow? [.emit 0 ⟨"a", "/m", none⟩, .dispatch 0,
    .dispatch 0, .dispatch 0] _ = some (_, _) from rfl) (by decide)
  have hlooked := hfirst.look (show StatFeed.poll _ 500 _ = (_, _, _) from rfl)
    (by rintro x ⟨⟩)
  have hsecond := hlooked.follow (show Hub.follow? [.emit 1 ⟨"b", "/m", none⟩, .dispatch 500,
    .dispatch 500, .dispatch 500] _ = some (_, _) from rfl) (by decide)
  have hover := hsecond.snapshot (show StatFeed.poll _ 1000 _ = (_, _, _) from rfl)
  exact ⟨_, _, _, _, hover, (windows_partition hover).1 _ List.mem_cons_self⟩

end CallFeed

/-
  CallFeed — hubs as time goes by.

  A hub is moved by its dispatcher and by its clients, and in between the clock goes on. It
  does not pass the limit of a delivery that waits, for the dispatcher acts at that time.

  * `Timeline` are the moments of a hub from its start on, the latest first;
  * `Failing` is what a dispatcher does that gives up a delivery; every failure that a
    journal tells goes back to one (`Timeline.failing`);
  * `Wait` are moments through which a dispatcher waits for one queue. It is not one longer
    than the limit, and if the queue is full and held at last, it was so throughout, with
    nothing taken from it (`Timeline.wait`, `Stalled`).
-/
import CallFeed.Proofs.Hub.Situation

namespace CallFeed

namespace Hub

/-- A hub at some time. -/
structure Moment where
  now : Nat
  hub : Hub

/-- A moment of a hub, with those before it from its start on, the latest first. The
    dispatcher goes by the clock, and everybody else may act at any time. -/
inductive Timeline : Moment → List Moment → Prop
  | start {feed settings senders h now} : start? feed settings senders = some h →
      Timeline ⟨now, h⟩ []
  | move {now h past m h' ts} : Timeline ⟨now, h⟩ past → h.move? m = some (h', ts) →
      (∀ time, m = .dispatch time → time = now) → Timeline ⟨now, h'⟩ (⟨now, h⟩ :: past)
  | clock {now h past time} : Timeline ⟨now, h⟩ past → now ≤ time →
      (∀ d, h.deadline? = some d → time ≤ max now d) → Timeline ⟨time, h⟩ (⟨now, h⟩ :: past)

/-! ## Moves -/

section
variable {h h' : Hub} {m : Move} {ts : List Ticket} {p : Place}

theorem Moved.settings (hm : Moved h m h' ts) : h'.settings = h.settings := by
  cases hm with
  | dispatch hd => cases hd <;> rfl
  | _ => rfl

/-- The dispatcher of `h` gives up a delivery to the subscriber at `p`. -/
structure Failing (h : Hub) (p : Place) (reason : Eviction) (time : Nat) : Prop where
  serving : ∃ b rest, h.sending = some b ∧ b.ahead = p :: rest ∧
    (reason = .timeout → ∃ since, b.since = some since ∧ h.isOverdue time since = true)
  gone : reason = .closed → (h.queue p).held = false
  full : reason = .timeout →
    (h.queue p).held = true ∧ h.settings.subscriber ≤ (h.queue p).events.length

/-- A failure is told when the dispatcher gives up a delivery, and then nothing else is. -/
theorem Moved.failing {reason : Eviction} {time : Nat} (hm : Moved h m h' ts)
    (ho : .failed p reason time ∈ h'.journal) : .failed p reason time ∈ h.journal ∨
      m = .dispatch time ∧ h'.journal = h.journal ++ [.failed p reason time] ∧
        Failing h p reason time := by
  cases hm with
  | dispatch hd =>
    cases hd with
    | gone hb ha hh =>
      rcases List.mem_append.1 ho with ho | ho
      · exact Or.inl ho
      · cases List.mem_singleton.1 ho
        exact Or.inr ⟨rfl, rfl, ⟨_, _, hb, ha, by simp⟩, fun _ => hh, by simp⟩
    | overdue hb ha hh hl hs hover =>
      rcases List.mem_append.1 ho with ho | ho
      · exact Or.inl ho
      · cases List.mem_singleton.1 ho
        exact Or.inr ⟨rfl, rfl, ⟨_, _, hb, ha, fun _ => ⟨_, hs, hover⟩⟩, by simp, fun _ => ⟨hh, hl⟩⟩
    | finish => exact Or.inl ho
    | close =>
      rcases List.mem_append.1 ho with ho | ho
      · exact Or.inl ho
      · cases place?_of_mem_closing ho
    | _ =>
      rcases List.mem_append.1 ho with ho | ho
      · exact Or.inl ho
      · cases List.mem_singleton.1 ho
  | accept | queue | drop | attach | detach | receive | receiveAll =>
    exact Or.inl (by simpa [note, Hub.detach, setQueue] using ho)
  | refuse | look | requestClose | dropSender => exact Or.inl ho

/-- Where a wait comes from: it begins, or it goes on and nothing is put into the queue. -/
theorem Moved.waiting {b : Broadcast} {rest : List Place} {since : Nat} (hm : Moved h m h' ts)
    (hb : h'.sending = some b) (ha : b.ahead = p :: rest) (hs : b.since = some since) :
    m = .dispatch since ∧ h'.journal = h.journal ++ [.waited p since] ∨
      h.sending = some b ∧ pushedTo p h'.journal = pushedTo p h.journal := by
  cases hm with
  | dispatch hd =>
    cases hd with
    | finish | evict => cases hb
    | gone | overdue | deliver | take | refill | drain =>
      cases hb
      cases hs
    | await hb' ha' =>
      cases hb
      cases hs
      cases ha'.symm.trans ha
      exact Or.inl ⟨rfl, rfl⟩
    | close hn | stop hn => cases hn.symm.trans hb
  | @receiveAll q =>
    obtain ⟨-, -, hpush, -⟩ := readings_map_received p q (h.queue q).events
    exact Or.inr ⟨hb, by simp [hpush]⟩
  | accept | queue | drop | attach | detach | receive =>
    exact Or.inr ⟨hb, by simp [note, Hub.detach, setQueue]⟩
  | refuse | look | requestClose | dropSender => exact Or.inr ⟨hb, rfl⟩

end

namespace Timeline
variable {x : Moment} {past : List Moment} {p : Place}

theorem arises (ht : Timeline x past) : x.hub.Arises := by
  induction ht with
  | start h0 => exact arises_of_start? h0
  | move _ hm _ ih => exact ih.follow (follow?_singleton hm)
  | clock _ _ _ ih => exact ih

/-- The settings stay as they are. -/
theorem settings (ht : Timeline x past) : ∀ y ∈ past, y.hub.settings = x.hub.settings := by
  induction ht with
  | start => simp
  | move _ hm _ ih =>
    have hset := (moved_of_move? hm).settings
    intro y hy
    rcases List.mem_cons.1 hy with rfl | hy
    · exact hset.symm
    · exact (ih y hy).trans hset.symm
  | clock _ _ _ ih =>
    intro y hy
    rcases List.mem_cons.1 hy with rfl | hy
    · rfl
    · exact ih y hy

/-- A journal only grows. -/
theorem journal_prefix (ht : Timeline x past) : ∀ y ∈ past, y.hub.journal <+: x.hub.journal := by
  induction ht with
  | start => simp
  | @move now h past m h' ts _ hm _ ih =>
    obtain ⟨k, hj, -⟩ := (moved_of_move? hm).journal_append
    have hlast : h.journal <+: h'.journal := hj ▸ List.prefix_append _ k
    intro y hy
    rcases List.mem_cons.1 hy with rfl | hy
    · exact hlast
    · exact (ih y hy).trans hlast
  | clock _ _ _ ih =>
    intro y hy
    rcases List.mem_cons.1 hy with rfl | hy
    · exact List.prefix_refl _
    · exact ih y hy

/-- A run takes no time. -/
theorem follow {now : Nat} {h h' : Hub} {ms : List Move} {ts : List Ticket}
    (ht : Timeline ⟨now, h⟩ past) (hr : h.follow? ms = some (h', ts))
    (hms : ∀ time, .dispatch time ∈ ms → time = now) : ∃ past', Timeline ⟨now, h'⟩ past' := by
  induction ms generalizing h past ts with
  | nil =>
    cases hr
    exact ⟨past, ht⟩
  | cons m ms ih =>
    simp only [follow?] at hr
    split at hr
    · cases hr
    · rename_i g us hm
      obtain ⟨r, hr', he⟩ := Option.map_eq_some_iff.1 hr
      cases he
      refine ih (ht.move hm ?_) hr' fun time hmem => hms time (List.mem_cons_of_mem _ hmem)
      rintro time rfl
      exact hms time List.mem_cons_self

/-- A failure that a journal tells happened at some moment. -/
theorem failing {reason : Eviction} {time : Nat} (ht : Timeline x past)
    (ho : .failed p reason time ∈ x.hub.journal) :
    ∃ after y' y before, x :: past = after ++ y' :: y :: before ∧ Timeline y before ∧
      y.now = time ∧ y'.now = time ∧ y'.hub.journal = y.hub.journal ++ [.failed p reason time] ∧
      Failing y.hub p reason time := by
  induction ht with
  | start h0 =>
    obtain ⟨-, rfl⟩ := start?_eq_some h0
    simp at ho
  | @move now h past m h' ts ht hm htime ih =>
    rcases (moved_of_move? hm).failing ho with ho | ⟨rfl, hj, hf⟩
    · obtain ⟨after, y', y, before, hsplit, hrest⟩ := ih ho
      exact ⟨_ :: after, y', y, before, by rw [hsplit]; rfl, hrest⟩
    · obtain rfl := htime _ rfl
      exact ⟨[], _, _, past, rfl, ht, rfl, rfl, hj, hf⟩
  | clock _ _ _ ih =>
    obtain ⟨after, y', y, before, hsplit, hrest⟩ := ih ho
    exact ⟨_ :: after, y', y, before, by rw [hsplit]; rfl, hrest⟩

end Timeline

/-! ## Waits -/

/-- Through these moments, the latest first, the dispatcher waits for space in the queue at
    `p`; it begins to with the first of them. -/
structure Wait (p : Place) (since : Nat) (ms : List Moment) : Prop where
  serving : ∀ x ∈ ms, ∃ b rest, x.hub.sending = some b ∧ b.ahead = p :: rest ∧
    b.since = some since
  begins : ∃ x ∈ ms.getLast?, x.now = since ∧ ∃ j, x.hub.journal = j ++ [.waited p since]

/-- Through these moments the queue at `p` is full and held, and nothing is taken from it. -/
structure Stalled (p : Place) (ms : List Moment) : Prop where
  full : ∀ x ∈ ms, (x.hub.queue p).events.length = x.hub.settings.subscriber
  held : ∀ x ∈ ms, (x.hub.queue p).held = true
  untouched : ∀ x ∈ ms, ∀ y ∈ ms, receivedFrom p x.hub.journal = receivedFrom p y.hub.journal

section
variable {x y : Moment} {ms : List Moment} {p : Place}

theorem Wait.cons {since : Nat} (hw : Wait p since (y :: ms))
    (hx : ∃ b rest, x.hub.sending = some b ∧ b.ahead = p :: rest ∧ b.since = some since) :
    Wait p since (x :: y :: ms) := by
  refine ⟨?_, hw.begins⟩
  intro z hz
  rcases List.mem_cons.1 hz with rfl | hz
  · exact hx
  · exact hw.serving z hz

theorem Stalled.single (hfull : (x.hub.queue p).events.length = x.hub.settings.subscriber)
    (hheld : (x.hub.queue p).held = true) : Stalled p [x] := by
  refine ⟨?_, ?_, ?_⟩
  · intro y hy
    cases List.mem_singleton.1 hy
    exact hfull
  · intro y hy
    cases List.mem_singleton.1 hy
    exact hheld
  · intro y hy z hz
    cases List.mem_singleton.1 hy
    cases List.mem_singleton.1 hz
    rfl

theorem Stalled.cons (hs : Stalled p (y :: ms))
    (hfull : (x.hub.queue p).events.length = x.hub.settings.subscriber)
    (hheld : (x.hub.queue p).held = true)
    (hsame : receivedFrom p x.hub.journal = receivedFrom p y.hub.journal) :
    Stalled p (x :: y :: ms) := by
  have hy : ∀ z ∈ x :: y :: ms, receivedFrom p z.hub.journal = receivedFrom p y.hub.journal := by
    intro z hz
    rcases List.mem_cons.1 hz with rfl | hz
    · exact hsame
    · exact hs.untouched z hz y List.mem_cons_self
  refine ⟨?_, ?_, fun z hz w hw => (hy z hz).trans (hy w hw).symm⟩
  · intro z hz
    rcases List.mem_cons.1 hz with rfl | hz
    · exact hfull
    · exact hs.full z hz
  · intro z hz
    rcases List.mem_cons.1 hz with rfl | hz
    · exact hheld
    · exact hs.held z hz

end

/-- If a queue is full and held after a move that puts nothing into it, then it was so before,
    and nothing was taken from it. -/
theorem full_of_full {h h' : Hub} {m : Move} {ts : List Ticket} {p : Place} (ha : Arises h)
    (hm : h.move? m = some (h', ts)) (hp : p < h.queues.length)
    (hpush : pushedTo p h'.journal = pushedTo p h.journal)
    (hfull : (h'.queue p).events.length = h'.settings.subscriber)
    (hheld : (h'.queue p).held = true) :
    (h.queue p).events.length = h.settings.subscriber ∧ (h.queue p).held = true ∧
      receivedFrom p h'.journal = receivedFrom p h.journal := by
  have hmv := moved_of_move? hm
  have ha' := ha.follow (follow?_singleton hm)
  obtain ⟨k, hj, -⟩ := hmv.journal_append
  have hheld₀ : (h.queue p).held = true := by
    rw [ha.holding.held_iff p hp]
    intro hdet
    refine (ha'.holding.held_iff p (lt_of_held hheld)).1 hheld ?_
    rw [hj]
    exact List.mem_append_left _ hdet
  have hbal := ha'.holding.balance p hheld
  rw [hpush, ← ha.holding.balance p hheld₀, hj, receivedFrom_append, List.append_assoc] at hbal
  have hevents := congrArg List.length (List.append_cancel_left hbal)
  rw [List.length_append, hfull, hmv.settings] at hevents
  have hbound := ha.bounds.queues p
  refine ⟨by omega, hheld₀, ?_⟩
  have hnone : receivedFrom p k = [] := List.length_eq_zero_iff.1 (by omega)
  rw [hj, receivedFrom_append, hnone, List.append_nil]

/-- A dispatcher that waits has done so since the wait began. -/
theorem Timeline.wait {x : Moment} {past : List Moment} {p : Place} {b : Broadcast}
    {rest : List Place} {since : Nat} (ht : Timeline x past) (hb : x.hub.sending = some b)
    (ha : b.ahead = p :: rest) (hs : b.since = some since) :
    ∃ earlier before, past = earlier ++ before ∧ Wait p since (x :: earlier) ∧
      ((x.hub.queue p).events.length = x.hub.settings.subscriber →
        (x.hub.queue p).held = true → Stalled p (x :: earlier)) ∧
      ∀ limit, x.hub.settings.limit = some limit → x.now ≤ since + limit := by
  induction ht with
  | start h0 =>
    obtain ⟨-, rfl⟩ := start?_eq_some h0
    cases hb
  | @move now h past m h' ts ht hm htime ih =>
    have hmv := moved_of_move? hm
    rcases hmv.waiting hb ha hs with ⟨rfl, hj⟩ | ⟨hb₀, hpush⟩
    · -- the wait begins with this move
      obtain rfl := htime _ rfl
      refine ⟨[], _, rfl, ⟨?_, _, rfl, rfl, _, hj⟩, .single, fun limit _ => Nat.le_add_right _ _⟩
      intro y hy
      cases List.mem_singleton.1 hy
      exact ⟨b, rest, hb, ha, hs⟩
    · obtain ⟨earlier, before, rfl, hwait, hstalled, hlimit⟩ := ih hb₀
      have hp : p < h.queues.length :=
        ht.arises.roster.below p ((ht.arises.roster.ahead b hb₀).2 p (by simp [ha])).1
      refine ⟨_ :: earlier, before, rfl, hwait.cons ⟨b, rest, hb, ha, hs⟩, ?_, ?_⟩
      · intro hfull hheld
        obtain ⟨hfull₀, hheld₀, hsame⟩ := full_of_full ht.arises hm hp hpush hfull hheld
        exact (hstalled hfull₀ hheld₀).cons hfull hheld hsame
      · intro limit hset
        exact hlimit limit (hmv.settings ▸ hset)
  | @clock now h past time ht hle hdead ih =>
    obtain ⟨earlier, before, rfl, hwait, hstalled, hlimit⟩ := ih hb
    refine ⟨_ :: earlier, before, rfl, hwait.cons ⟨b, rest, hb, ha, hs⟩, ?_, ?_⟩
    · intro hfull hheld
      exact (hstalled hfull hheld).cons hfull hheld rfl
    · -- the limit of this wait is the one that the clock does not pass
      intro limit hset
      have hnow : now ≤ since + limit := hlimit limit hset
      have htime := hdead _ (deadline?_eq_some_iff.2 ⟨b, hb, since, hs, limit, hset, rfl⟩)
      exact Nat.le_trans htime (Nat.max_le.2 ⟨hnow, Nat.le_refl _⟩)

end Hub

end CallFeed

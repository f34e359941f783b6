/-
  CallFeed — what a subscriber is given.

  * `Served` is what a move means for one subscriber: nothing, that a broadcast to it
    begins, that it is given the event, or that the delivery is lost (`Moved.served`);
  * `Delivery`: a subscriber to which no delivery has failed has been given, in their
    order, the events taken since it was entered, up to the one that it is yet to be given;
    with one failed, this held when it failed, and nothing was given to it since (`CutOff`);
  * `handedIn`: what a subscriber was handed in a run, move by move, which is what the
    journal says that it has taken (`receivedFrom_follow?`);
  * `delivered_segment` is what a subscriber gets out of a run.
-/
import CallFeed.Proofs.Hub.Holding

namespace CallFeed

/-- The deliveries to the subscriber at `p` end with one that fails: up to it everything
    since the entry was given, all but the event `e` of that delivery, and nothing after it.
    It fails for want of a receiver only if the subscriber has given up its queue. -/
def CutOff (p : Place) (j : List Occurrence) : Prop :=
  ∃ before reason time after e, j = before ++ .failed p reason time :: after ∧
    ¬ FailsIn p before ∧ entryOf p j = entryOf p before ∧
    pushedTo p before ++ [e] = (takenIn before).drop (entryOf p before) ∧
    pushedTo p after = [] ∧ (reason = .closed ↔ .detached p ∈ before)

/-- The event that a subscriber finds, if it finds one. -/
def Received.event? : Received → Option Event
  | event e => some e
  | empty | closed => none

namespace Hub

/-- The event that the broadcast under way has yet to give to the subscriber at `p`. -/
def inFlight (h : Hub) (p : Place) : List Event :=
  match h.sending with
  | some b => if p ∈ b.ahead then [b.event] else []
  | none => []

theorem inFlight_some {h : Hub} {b : Broadcast} (hb : h.sending = some b) (p : Place) :
    h.inFlight p = if p ∈ b.ahead then [b.event] else [] := by
  rw [inFlight, hb]

theorem inFlight_none {h : Hub} (hb : h.sending = none) (p : Place) : h.inFlight p = [] := by
  rw [inFlight, hb]

/-- Only an attach enters a subscriber, and nothing else happens in it. -/
theorem Moved.enters {h h' : Hub} {m : Move} {ts : List Ticket} (hm : Moved h m h' ts) :
    h'.queues.length = h.queues.length ∨ ∃ n, h'.queues = h.queues ++ [⟨[], true⟩] ∧
      h'.journal = h.journal ++ [.attached h.queues.length n] ∧ h'.sending = h.sending := by
  cases hm with
  | attach => exact Or.inr ⟨_, rfl, rfl, rfl⟩
  | detach | receive | receiveAll =>
    exact Or.inl (by simp [Hub.detach, setQueue, note])
  | dispatch hd =>
    cases hd with
    | deliver => exact Or.inl (by simp [Hub.deliver, setQueue, note])
    | _ => exact Or.inl rfl
  | _ => exact Or.inl rfl

/-- What becomes of the subscriber at `p` when `h` becomes `h'`. -/
inductive Served (h h' : Hub) (p : Place) : Prop
  | aside {k} : h'.journal = h.journal ++ k → takenIn k = [] → pushedTo p k = [] →
      ¬ FailsIn p k → h'.inFlight p = h.inFlight p → Served h h' p
  | begun {e targets} : h'.journal = h.journal ++ [.taken e targets] → h.sending = none →
      h.stage ≠ .stopped → h'.inFlight p = (if p ∈ h.members then [e] else []) → Served h h' p
  | given {e} : h'.journal = h.journal ++ [.delivered p e] → h.inFlight p = [e] →
      h'.inFlight p = [] → Served h h' p
  | lost {e reason time} : h'.journal = h.journal ++ [.failed p reason time] →
      h.inFlight p = [e] → (reason = .closed ↔ (h.queue p).held = false) → Served h h' p

variable {h h' : Hub} {ts : List Ticket}

theorem served_fail {b : Broadcast} {q : Place} {rest : List Place}
    (hb : h.sending = some b) (ha : b.ahead = q :: rest) {now : Nat} {reason : Eviction}
    (hreason : reason = .closed ↔ (h.queue q).held = false) (p : Place) :
    Served h (h.fail now b q rest reason) p := by
  have hflight : h.inFlight p = if p ∈ b.ahead then [b.event] else [] := inFlight_some hb p
  by_cases hp : q = p
  · subst hp
    exact .lost rfl (by rw [hflight, ha, if_pos List.mem_cons_self]) hreason
  · have hpq : ¬ p = q := fun he => hp he.symm
    refine .aside (k := [.failed q reason now]) rfl rfl rfl (by simp [hpq]) ?_
    rw [hflight, ha, inFlight_some rfl]
    simp only [List.mem_cons, hpq, false_or]

theorem Dispatched.served {now : Nat} (hr : Roster h) (hd : Dispatched now h h' ts) (p : Place) :
    Served h h' p := by
  cases hd with
  | @finish b hb ha =>
    refine .aside (k := []) (List.append_nil _).symm rfl rfl (by simp) ?_
    rw [inFlight_some hb, ha]
    rfl
  | @evict b members hb ha =>
    refine .aside (k := [.evicted b.failed members.length]) rfl rfl rfl (by simp) ?_
    rw [inFlight_some hb, ha]
    rfl
  | gone hb ha hh => exact served_fail hb ha (by simp [hh]) p
  | overdue hb ha hh => exact served_fail hb ha (by simp [hh]) p
  | @deliver b q rest hb ha hh hl =>
    have hflight : h.inFlight p = if p ∈ b.ahead then [b.event] else [] := inFlight_some hb p
    by_cases hp : q = p
    · subst hp
      refine .given rfl (by rw [hflight, ha, if_pos List.mem_cons_self]) ?_
      have hnd := (hr.ahead b hb).1
      rw [ha] at hnd
      rw [inFlight_some rfl, if_neg (List.nodup_cons.1 hnd).1]
    · refine .aside (k := [.delivered q b.event]) rfl rfl (by simp [hp]) (by simp) ?_
      rw [hflight, ha, inFlight_some rfl]
      have hpq : ¬ p = q := fun he => hp he.symm
      simp only [List.mem_cons, hpq, false_or]
  | @await b q rest hb ha =>
    refine .aside (k := [.waited q now]) rfl rfl rfl (by simp) ?_
    rw [inFlight_some hb, inFlight_some rfl]
  | close hb hst =>
    obtain ⟨hpush, -, hfail, -⟩ := readings_closing p h.waiting
    exact .aside rfl (by simp [(readings_map_dropped h.waiting).1]) hpush hfail rfl
  | @stop n hb => exact .aside (k := [.stopped h.members.length n]) rfl rfl rfl (by simp) rfl
  | take hb hst => exact .begun rfl hb (by simp [hst]) rfl
  | refill hb hst => exact .begun rfl hb (by simp [hst]) rfl
  | drain hb hst => exact .begun rfl hb (by simp [hst]) rfl

theorem Moved.served {m : Move} (hr : Roster h) (hm : Moved h m h' ts) (p : Place) :
    Served h h' p := by
  cases hm with
  | dispatch hd => exact hd.served hr p
  | @accept t e | @queue t e => exact .aside (k := [.emitted e]) rfl rfl rfl (by simp) rfl
  | @drop t e =>
    exact .aside (k := [.emitted e, .dropped e]) (by simp [note]) rfl rfl (by simp [FailsIn]) rfl
  | @attach hst => exact .aside rfl rfl rfl (by simp) rfl
  | @detach q => exact .aside (k := [.detached q]) rfl rfl rfl (by simp) rfl
  | @receive q e => exact .aside (k := [.received q e]) rfl rfl rfl (by simp) rfl
  | @receiveAll q =>
    obtain ⟨h1, -, h2, h3, -⟩ := readings_map_received p q (h.queue q).events
    exact .aside rfl h1 h2 h3 rfl
  | refuse | look | requestClose | dropSender =>
    exact .aside (k := []) (List.append_nil _).symm rfl rfl (by simp) rfl

/-! ## What was given to a subscriber -/

theorem cutOff_append {p : Place} {j k : List Occurrence} (hc : CutOff p j)
    (hin : ∃ o ∈ j, o.enters p = true) (hpush : pushedTo p k = []) : CutOff p (j ++ k) := by
  obtain ⟨before, reason, time, after, e, rfl, hfirst, hentry, hfed, hrest, hreason⟩ := hc
  refine ⟨before, reason, time, after ++ k, e, by simp, hfirst, ?_, hfed, ?_, hreason⟩
  · rw [entryOf_append k hin, hentry]
  · rw [pushedTo_append, hrest, hpush]
    rfl

theorem pushedTo_prefix_of_cutOff {p : Place} {j : List Occurrence} (hc : CutOff p j) :
    pushedTo p j <+: (takenIn j).drop (entryOf p j) := by
  obtain ⟨before, reason, time, after, e, rfl, -, hentry, hfed, hrest, -⟩ := hc
  have hpush : pushedTo p (before ++ .failed p reason time :: after) = pushedTo p before := by
    simp [hrest]
  rw [hpush, hentry, takenIn_append, List.drop_append_of_le_length (entryOf_le p before), ← hfed,
    List.append_assoc]
  exact List.prefix_append _ _

/-- What was put into the queues, beside what was taken for broadcast. -/
structure Delivery (h : Hub) : Prop where
  fed : ∀ p < h.queues.length, ¬ FailsIn p h.journal →
    pushedTo p h.journal ++ h.inFlight p = (takenIn h.journal).drop (entryOf p h.journal)
  cut : ∀ p < h.queues.length, FailsIn p h.journal → CutOff p h.journal

namespace Delivery

theorem start {feed : Feed} {settings : Settings} {senders : Nat}
    (h0 : start? feed settings senders = some h) : Delivery h := by
  obtain ⟨-, rfl⟩ := start?_eq_some h0
  exact ⟨fun p hp => absurd hp (Nat.not_lt_zero p), fun p hp => absurd hp (Nat.not_lt_zero p)⟩

/-- A subscriber that a broadcast has still ahead has lost nothing. -/
theorem not_failsIn (hr : Roster h) {p : Place} {e : Event} (he : h.inFlight p = [e]) :
    ¬ FailsIn p h.journal := by
  cases hb : h.sending with
  | none =>
    rw [inFlight_none hb] at he
    cases he
  | some b =>
    rw [inFlight_some hb] at he
    split at he
    · rename_i hp
      exact ((hr.ahead b hb).2 p hp).2
    · cases he

/-- For a subscriber that was there before, a move keeps what holds of it. -/
theorem served (hd : Delivery h) (hr : Roster h) (hh : Holding h) {p : Place}
    (hp : p < h.queues.length) (hs : Served h h' p) :
    (¬ FailsIn p h'.journal →
      pushedTo p h'.journal ++ h'.inFlight p = (takenIn h'.journal).drop (entryOf p h'.journal)) ∧
    (FailsIn p h'.journal → CutOff p h'.journal) := by
  have hin := hr.entered p hp
  have hle := entryOf_le p h.journal
  cases hs with
  | @aside k hj htaken hpush hfail hflight =>
    rw [hj, failsIn_append, or_iff_left hfail]
    refine ⟨fun hf => ?_, fun hf => cutOff_append (hd.cut p hp hf) hin hpush⟩
    rw [pushedTo_append, hpush, takenIn_append, htaken, entryOf_append k hin, hflight]
    simpa using hd.fed p hp hf
  | @begun e targets hj hidle hst hflight =>
    have hnot : ¬ FailsIn p [.taken e targets] := by simp
    rw [hj, failsIn_append, or_iff_left hnot]
    refine ⟨fun hf => ?_, fun hf => cutOff_append (hd.cut p hp hf) hin (by simp)⟩
    -- a subscriber that has lost nothing is still a member, hence among the targets
    have hfed := hd.fed p hp hf
    rw [inFlight_none hidle, List.append_nil] at hfed
    rw [hflight, if_pos (hr.stays p hp hst hf), entryOf_append _ hin, takenIn_append,
      List.drop_append_of_le_length hle, ← hfed]
    simp
  | @given e hj hbefore hafter =>
    have hnot : ¬ FailsIn p [.delivered p e] := by simp
    have hf := not_failsIn hr hbefore
    rw [hj, failsIn_append, or_iff_left hnot]
    refine ⟨fun _ => ?_, fun hf' => absurd hf' hf⟩
    have hfed := hd.fed p hp hf
    rw [hbefore] at hfed
    rw [hafter, entryOf_append _ hin, takenIn_append, pushedTo_append]
    simpa using hfed
  | @lost e reason time hj hbefore hreason =>
    have hf := not_failsIn hr hbefore
    refine ⟨fun hf' => absurd ?_ hf', fun _ => ?_⟩
    · rw [hj, failsIn_append]
      exact Or.inr ⟨reason, time, List.mem_singleton_self _⟩
    · have hfed := hd.fed p hp hf
      rw [hbefore] at hfed
      have hentry := entryOf_append (p := p) [.failed p reason time] hin
      refine ⟨h.journal, reason, time, [], e, hj, hf, hj ▸ hentry, hfed, rfl, ?_⟩
      rw [hreason, ← Bool.not_eq_true, hh.held_iff p hp, not_not]

/-- Every move keeps what was given to the subscribers beside what was taken. -/
theorem moved {m : Move} (hd : Delivery h) (hr : Roster h) (hh : Holding h)
    (hm : Moved h m h' ts) : Delivery h' := by
  have hold : ∀ p < h.queues.length, _ := fun p hp => hd.served hr hh hp (hm.served hr p)
  rcases hm.enters with hlen | ⟨n, hq, hj, hsend⟩
  · refine ⟨fun p hp => (hold p (hlen ▸ hp)).1, fun p hp => (hold p (hlen ▸ hp)).2⟩
  · obtain ⟨hpush, -, hfail, -, hent⟩ := hr.fresh
    have hfresh : ¬ FailsIn h.queues.length h'.journal := by
      rw [hj, failsIn_append]
      simpa using hfail
    refine ⟨fun p hp hf => ?_, fun p hp hf => ?_⟩
    · rcases lt_or_eq_of_entered hq hp with hlt | rfl
      · exact (hold p hlt).1 hf
      · have hnone : h'.inFlight h.queues.length = [] := by
          cases hb : h.sending with
          | none => exact inFlight_none (hsend.trans hb) _
          | some b =>
            rw [inFlight_some (hsend.trans hb), if_neg]
            exact fun hp => Nat.lt_irrefl _ (hr.below _ ((hr.ahead b hb).2 _ hp).1)
        rw [hnone, hj, entryOf_attached n hent]
        simp [hpush]
    · rcases lt_or_eq_of_entered hq hp with hlt | rfl
      · exact (hold p hlt).2 hf
      · exact absurd hf hfresh

end Delivery

theorem delivery_follow {h₀ : Hub} {ms : List Move} (hr₀ : Roster h₀) (hh₀ : Holding h₀)
    (hd₀ : Delivery h₀) (hr : h₀.follow? ms = some (h, ts)) : Delivery h :=
  follow_induction (P := fun _ h _ => Delivery h) hd₀
    (fun _ _ _ _ _ _ hf ih hm =>
      ih.moved (roster_follow hr₀ hf) (holding_follow hr₀ hh₀ hf) hm) hr

/-! ## What a subscriber is handed -/

/-- The events that a move of `h` hands to the subscriber at `p`. -/
def handed (h : Hub) (p : Place) : Move → List Event
  | .receive q => if q = p then (h.receive q).2.event?.toList else []
  | .receiveAll q => if q = p then (h.receiveAll q).2 else []
  | _ => []

/-- The events that some moves, made one after the other, hand to the subscriber at `p`. -/
def handedIn (p : Place) : List Move → Hub → List Event
  | [], _ => []
  | m :: ms, h =>
    match h.move? m with
    | none => []
    | some (h', _) => h.handed p m ++ handedIn p ms h'

theorem receive_eq_event_iff {p : Place} {e : Event} :
    (h.receive p).2 = .event e ↔ (h.queue p).events.head? = some e := by
  unfold receive
  split
  · rename_i e' rest he
    rw [he, List.head?_cons, Option.some.injEq, Received.event.injEq]
  · rename_i he
    rw [he, List.head?_nil]
    by_cases hf : h.feedsPlace p <;> simp [hf]

/-- What a subscriber is handed is what the journal says that it takes. -/
theorem journal_receive (h : Hub) (p : Place) : (h.receive p).1.journal =
    h.journal ++ (h.receive p).2.event?.toList.map (.received p) := by
  unfold receive
  split
  · rfl
  · by_cases hf : h.feedsPlace p <;> simp [hf, Received.event?]

/-- The same, for every move. -/
theorem Moved.received {m : Move} (hm : Moved h m h' ts) (p : Place) :
    receivedFrom p h'.journal = receivedFrom p h.journal ++ h.handed p m := by
  obtain ⟨k, hj, hother⟩ := hm.journal_append
  have haside : m.place? ≠ some p → receivedFrom p h'.journal = receivedFrom p h.journal := by
    intro hp
    rw [hj, receivedFrom_append, hother p hp, List.append_nil]
  cases hm with
  | @receive q e rest hh he =>
    have hfound : (h.receive q).2 = .event e := receive_eq_event_iff.2 (by rw [he]; rfl)
    rw [note, receivedFrom_append, handed, hfound]
    by_cases hq : q = p <;> simp [hq, Received.event?, setQueue]
  | @look q hh he =>
    have hnone : (h.receive q).2.event? = none := by
      unfold Hub.receive
      rw [he]
      by_cases hf : h.feedsPlace q <;> simp [hf, Received.event?]
    rw [handed, hnone, Option.toList_none, ite_self, List.append_nil]
  | @receiveAll q hh =>
    obtain ⟨-, -, -, -, hrec⟩ := readings_map_received p q (h.queue q).events
    rw [receivedFrom_append, hrec]
    rfl
  | detach =>
    rw [Hub.detach, note, receivedFrom_append]
    rfl
  | _ => exact (haside (by simp [Move.place?])).trans (List.append_nil _).symm

/-- What a subscriber was handed in a run is what the journal says that it has taken. -/
theorem receivedFrom_follow? {ms : List Move} (p : Place) (hr : h.follow? ms = some (h', ts)) :
    receivedFrom p h'.journal = receivedFrom p h.journal ++ handedIn p ms h := by
  induction ms generalizing h ts with
  | nil =>
    cases hr
    exact (List.append_nil _).symm
  | cons m ms ih =>
    simp only [follow?] at hr
    split at hr
    · cases hr
    · rename_i g us hm
      obtain ⟨r, hr', he⟩ := Option.map_eq_some_iff.1 hr
      cases he
      have hfirst := (moved_of_move? hm).received p
      rw [ih hr', hfirst, List.append_assoc]
      simp only [handedIn, hm]

/-! ## The end of a subscription -/

theorem receive_eq_closed_iff {p : Place} :
    (h.receive p).2 = .closed ↔ (h.queue p).events = [] ∧ p ∉ h.members ∧ p ∉ h.ahead := by
  unfold receive
  split
  · rename_i he
    simp [he]
  · rename_i he
    by_cases hf : h.feedsPlace p
    · have hf' := hf
      simp only [feedsPlace, Bool.or_eq_true, List.contains_iff_mem] at hf'
      simp only [hf, if_true, reduceCtorEq, false_iff]
      rintro ⟨-, hm, ha⟩
      exact hf'.elim hm ha
    · have hf' := hf
      simp only [feedsPlace, Bool.or_eq_true, List.contains_iff_mem, not_or] at hf'
      simpa [hf, he] using hf'

/-- Nothing will be put into the queue at `p` any more. -/
structure Unfed (h : Hub) (p : Place) : Prop where
  known : p < h.queues.length
  left : p ∉ h.members
  passed : p ∉ h.ahead

theorem unfed_iff {p : Place} (hp : p < h.queues.length) :
    Unfed h p ↔ h.feedsPlace p = false := by
  rw [← Bool.not_eq_true, feedsPlace, Bool.or_eq_true, List.contains_iff_mem,
    List.contains_iff_mem, not_or]
  exact ⟨fun hu => ⟨hu.left, hu.passed⟩, fun ⟨hm, ha⟩ => ⟨hp, hm, ha⟩⟩

/-- The dispatcher has nothing to do with a queue that nothing will be put into. -/
theorem Unfed.dispatched {now : Nat} {p : Place} (hu : Unfed h p) (hd : Dispatched now h h' ts) :
    Unfed h' p ∧ h'.queue p = h.queue p := by
  have hahead : ∀ b, h.sending = some b → p ∉ b.ahead := by
    intro b hb
    have := hu.passed
    rwa [ahead, hb] at this
  cases hd with
  | finish => exact ⟨⟨hu.known, hu.left, List.not_mem_nil⟩, rfl⟩
  | take | refill | drain => exact ⟨⟨hu.known, hu.left, hu.left⟩, rfl⟩
  | close => exact ⟨⟨hu.known, hu.left, hu.passed⟩, rfl⟩
  | stop => exact ⟨⟨hu.known, List.not_mem_nil, hu.passed⟩, rfl⟩
  | evict hb ha hf hm =>
    refine ⟨⟨hu.known, ?_, List.not_mem_nil⟩, rfl⟩
    rw [hm]
    exact fun hp => hu.left (List.mem_filter.1 hp).1
  | @await b q rest hb => exact ⟨⟨hu.known, hu.left, hahead b hb⟩, rfl⟩
  | gone hb ha | overdue hb ha =>
    have hp := hahead _ hb
    rw [ha, List.mem_cons, not_or] at hp
    exact ⟨⟨hu.known, hu.left, hp.2⟩, rfl⟩
  | @deliver b q rest hb ha =>
    have hp := hahead b hb
    rw [ha, List.mem_cons, not_or] at hp
    refine ⟨⟨?_, hu.left, hp.2⟩, queue_setQueue_ne hp.1 _⟩
    simpa [Hub.deliver, Hub.setQueue, Hub.note] using hu.known

/-- A queue that nothing will be put into stays so, and changes only by its subscriber, who
    can take from its front. -/
theorem Unfed.moved {m : Move} {p : Place} (hu : Unfed h p) (hm : Moved h m h' ts) :
    Unfed h' p ∧ (m.place? ≠ some p → h'.queue p = h.queue p) ∧
      (h'.queue p).events <:+ (h.queue p).events := by
  have hset : ∀ q x, (q = p → x.events <:+ (h.queue p).events) →
      (some q ≠ some p → (h.setQueue q x).queue p = h.queue p) ∧
        ((h.setQueue q x).queue p).events <:+ (h.queue p).events := by
    intro q x hx
    by_cases hq : q = p
    · subst hq
      refine ⟨fun hne => absurd rfl hne, ?_⟩
      rw [queue_setQueue_self hu.known]
      exact hx rfl
    · have hsame := queue_setQueue_ne (h := h) (fun hp => hq hp.symm) x
      exact ⟨fun _ => hsame, hsame ▸ List.suffix_refl _⟩
  have hknown : ∀ q x, p < (h.setQueue q x).queues.length := by
    intro q x
    simpa [Hub.setQueue] using hu.known
  cases hm with
  | dispatch hd =>
    obtain ⟨hu', hsame⟩ := hu.dispatched hd
    exact ⟨hu', fun _ => hsame, hsame ▸ List.suffix_refl _⟩
  | attach hst =>
    have hsame : ∀ n, (({ h with queues := h.queues ++ [Queue.mk [] true]
                                 members := h.members ++ [h.queues.length] } : Hub).note
        (.attached h.queues.length n)).queue p = h.queue p := fun n =>
      queue_append rfl hu.known
    refine ⟨⟨?_, ?_, hu.passed⟩, fun _ => hsame _, hsame _ ▸ List.suffix_refl _⟩
    · simpa [Hub.note] using Nat.lt_succ_of_lt hu.known
    · have hne : p ≠ h.queues.length := Nat.ne_of_lt hu.known
      simpa [Hub.note, hne] using hu.left
  | @detach q => exact ⟨⟨hknown q _, hu.left, hu.passed⟩, hset q ⟨[], false⟩ fun _ => List.nil_suffix⟩
  | @receiveAll q =>
    exact ⟨⟨hknown q _, hu.left, hu.passed⟩, hset q ⟨[], true⟩ fun _ => List.nil_suffix⟩
  | @receive q e rest hh hev =>
    refine ⟨⟨hknown q _, hu.left, hu.passed⟩, hset q ⟨rest, true⟩ fun hq => ?_⟩
    rw [← hq, hev]
    exact List.suffix_cons _ _
  | accept | queue | drop | refuse | look | requestClose | dropSender =>
    exact ⟨⟨hu.known, hu.left, hu.passed⟩, fun _ => rfl, List.suffix_refl _⟩

/-- Nothing is in the queue at `p`, and nothing will come. -/
structure Ended (h : Hub) (p : Place) : Prop where
  known : p < h.queues.length
  empty : (h.queue p).events = []
  left : p ∉ h.members
  passed : p ∉ h.ahead

/-- Every move keeps the end of a subscription. -/
theorem Ended.moved {m : Move} {p : Place} (he : Ended h p) (hm : Moved h m h' ts) :
    Ended h' p := by
  obtain ⟨hu, -, hsuf⟩ := Unfed.moved ⟨he.known, he.left, he.passed⟩ hm
  rw [he.empty] at hsuf
  exact ⟨hu.known, List.suffix_nil.1 hsuf, hu.left, hu.passed⟩

theorem ended_follow {h₀ : Hub} {ms : List Move} {p : Place} (he : Ended h₀ p)
    (hr : h₀.follow? ms = some (h, ts)) : Ended h p :=
  follow_induction (P := fun _ h _ => Ended h p) he (fun _ _ _ _ _ _ _ ih hm => ih.moved hm) hr

/-- **What a subscriber gets.** As long as no delivery to it has failed, the subscriber at
    `p` has been given, in their order, all events taken for broadcast since it was entered,
    but for the one that the present broadcast has yet to give it; a delivery that fails ends
    this for good (`CutOff`). In any case it was given a stretch of the broadcasts that begins
    at its entry. What it has taken is what it was handed, and that and what is queued are
    what it was given. When it asks it is handed the first event that is queued, and is told
    of the end exactly if it is no member, the present broadcast has it not ahead, and it has
    taken everything; it is then told so for ever. -/
theorem delivered_segment {feed : Feed} {settings : Settings} {senders : Nat} {h₀ : Hub}
    {ms : List Move} (h0 : start? feed settings senders = some h₀)
    (hr : h₀.follow? ms = some (h, ts)) {p : Place} (hp : p < h.queues.length) :
    (¬ FailsIn p h.journal →
      pushedTo p h.journal ++ h.inFlight p = (takenIn h.journal).drop (entryOf p h.journal)) ∧
    (FailsIn p h.journal → CutOff p h.journal) ∧
    pushedTo p h.journal <+: (takenIn h.journal).drop (entryOf p h.journal) ∧
    handedIn p ms h₀ = receivedFrom p h.journal ∧
    (∀ e, (h.receive p).2 = .event e ↔ (h.queue p).events.head? = some e) ∧
    (∀ e, (h.receive p).2 = .event e →
      (h.receive p).1.journal = h.journal ++ [.received p e]) ∧
    ((h.queue p).held = true →
      receivedFrom p h.journal ++ (h.queue p).events = pushedTo p h.journal ∧
      ((h.receive p).2 = .closed ↔
        p ∉ h.members ∧ p ∉ h.ahead ∧ receivedFrom p h.journal = pushedTo p h.journal)) ∧
    ((h.receive p).2 = .closed →
      ∀ ns g us, h.follow? ns = some (g, us) → (g.receive p).2 = .closed) := by
  have hr₀ := Roster.start h0
  have hh₀ := Holding.start h0
  have hd := delivery_follow hr₀ hh₀ (Delivery.start h0) hr
  have hh := holding_follow hr₀ hh₀ hr
  refine ⟨hd.fed p hp, hd.cut p hp, ?_, ?_, fun e => receive_eq_event_iff, fun e he => ?_,
    fun hheld => ?_, fun hc ns g us hg => ?_⟩
  · by_cases hf : FailsIn p h.journal
    · exact pushedTo_prefix_of_cutOff (hd.cut p hp hf)
    · exact ⟨h.inFlight p, hd.fed p hp hf⟩
  · -- nothing was taken before the run
    obtain ⟨-, rfl⟩ := start?_eq_some h0
    exact (receivedFrom_follow? p hr).symm
  · rw [journal_receive, he]
    rfl
  · have hbal := hh.balance p hheld
    refine ⟨hbal, receive_eq_closed_iff.trans ?_⟩
    have hempty : (h.queue p).events = [] ↔ receivedFrom p h.journal = pushedTo p h.journal := by
      rw [← hbal]
      exact List.self_eq_append_right.symm
    rw [hempty]
    constructor
    · rintro ⟨h1, h2, h3⟩
      exact ⟨h2, h3, h1⟩
    · rintro ⟨h2, h3, h1⟩
      exact ⟨h1, h2, h3⟩
  · obtain ⟨h1, h2, h3⟩ := receive_eq_closed_iff.1 hc
    have := ended_follow ⟨hp, h1, h2, h3⟩ hg
    exact receive_eq_closed_iff.2 ⟨this.empty, this.left, this.passed⟩

/-- Two subscribers of queues for one event each: the second is entered while the first
    event is broadcast, and is given and handed the next one, for which the first has no space
    within the limit. The first finds its one event when it asks. -/
theorem delivered_segment_slow :
    ∃ h₀ h ts, start? .log ⟨2, 1, some 5⟩ 1 = some h₀ ∧
      h₀.follow? [.attach, .emit 0 ⟨"a", "/m", none⟩, .dispatch 0, .attach, .dispatch 0,
        .dispatch 0, .emit 1 ⟨"b", "/m", none⟩, .dispatch 0, .dispatch 0, .dispatch 5,
        .dispatch 5, .dispatch 5, .receive 1] = some (h, ts) ∧
      CutOff 0 h.journal ∧ pushedTo 1 h.journal = (takenIn h.journal).drop 1 ∧
      receivedFrom 1 h.journal = [⟨"b", "/m", none⟩] ∧
      handedIn 1 [.attach, .emit 0 ⟨"a", "/m", none⟩, .dispatch 0, .attach, .dispatch 0,
        .dispatch 0, .emit 1 ⟨"b", "/m", none⟩, .dispatch 0, .dispatch 0, .dispatch 5,
        .dispatch 5, .dispatch 5, .receive 1] h₀ = [⟨"b", "/m", none⟩] ∧
      (h.receive 0).2 = .event ⟨"a", "/m", none⟩ ∧
      (h.receive 0).1.journal = h.journal ++ [.received 0 ⟨"a", "/m", none⟩] := by
  have h0 : start? .log ⟨2, 1, some 5⟩ 1 =
      some ⟨.log, ⟨2, 1, some 5⟩, 1, false, .running, [], [], [], [], none, [.started]⟩ := rfl
  have hr : follow? [.attach, .emit 0 ⟨"a", "/m", none⟩, .dispatch 0, .attach, .dispatch 0,
      .dispatch 0, .emit 1 ⟨"b", "/m", none⟩, .dispatch 0, .dispatch 0, .dispatch 5,
      .dispatch 5, .dispatch 5, .receive 1]
      ⟨.log, ⟨2, 1, some 5⟩, 1, false, .running, [], [], [], [], none, [.started]⟩ =
      some (⟨.log, ⟨2, 1, some 5⟩, 1, false, .running, [], [],
        [⟨[⟨"a", "/m", none⟩], true⟩, ⟨[], true⟩], [1], none,
        [.started, .attached 0 1, .emitted ⟨"a", "/m", none⟩, .taken ⟨"a", "/m", none⟩ [0],
          .attached 1 2, .delivered 0 ⟨"a", "/m", none⟩, .emitted ⟨"b", "/m", none⟩,
          .taken ⟨"b", "/m", none⟩ [0, 1], .waited 0 0, .failed 0 .timeout 5,
          .delivered 1 ⟨"b", "/m", none⟩, .evicted [(0, .timeout)] 1,
          .received 1 ⟨"b", "/m", none⟩]⟩, [0, 1]) := rfl
  obtain ⟨-, hcut, -, -, hfirst, hnoted, -, -⟩ := delivered_segment h0 hr (p := 0) (by decide)
  obtain ⟨hfed, -, -, hhanded, -, -, -, -⟩ := delivered_segment h0 hr (p := 1) (by decide)
  have hfound := (hfirst ⟨"a", "/m", none⟩).2 rfl
  refine ⟨_, _, _, h0, hr, hcut ⟨.timeout, 5, by decide⟩, ?_, rfl, hhanded, hfound,
    hnoted _ hfound⟩
  have hall := hfed (by simp [FailsIn])
  rw [inFlight_none rfl, List.append_nil] at hall
  exact hall

end Hub

end CallFeed

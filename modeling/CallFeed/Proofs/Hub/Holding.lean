/-
  CallFeed — what the queues of subscribers hold.

  * `Holding`: as long as a subscriber has not given up its queue, what it has taken from
    it and, behind that, what is in it are what was put into it;
  * `Holding.moved`: every move keeps this (with `Roster`, by which nothing is told of
    places where nobody has attached).
-/
import CallFeed.Proofs.Hub.Roster

namespace CallFeed

namespace Hub

theorem queue_setQueue_self {h : Hub} {p : Place} (hp : p < h.queues.length) (q : Queue) :
    (h.setQueue p q).queue p = q := by
  simp [queue, setQueue, hp]

theorem queue_setQueue_ne {h : Hub} {p q : Place} (hq : q ≠ p) (x : Queue) :
    (h.setQueue p x).queue q = h.queue q := by
  simp [queue, setQueue, List.getElem?_set_ne hq.symm]

theorem queue_append {h h' : Hub} {x : Queue} (hq : h'.queues = h.queues ++ [x]) {p : Place}
    (hp : p < h.queues.length) : h'.queue p = h.queue p := by
  rw [queue, queue, hq, List.getElem?_append_left hp]

/-- The queues, beside what the journal tells. -/
structure Holding (h : Hub) : Prop where
  held_iff : ∀ p < h.queues.length, (h.queue p).held = true ↔ .detached p ∉ h.journal
  balance : ∀ p, (h.queue p).held = true →
    receivedFrom p h.journal ++ (h.queue p).events = pushedTo p h.journal

namespace Holding
variable {h h' : Hub} {k : List Occurrence} {p : Place}

theorem start {feed : Feed} {settings : Settings} {senders : Nat}
    (h0 : start? feed settings senders = some h) : Holding h := by
  obtain ⟨-, rfl⟩ := start?_eq_some h0
  exact ⟨fun p hp => absurd hp (Nat.not_lt_zero p), fun p hp => absurd hp (by simp [queue])⟩

/-- Only the queue at `p` changes, and only of it is anything told. -/
theorem change (hh : Holding h) (hlen : h'.queues.length = h.queues.length)
    (hother : ∀ q, q ≠ p → h'.queue q = h.queue q) (hj : h'.journal = h.journal ++ k)
    (hnew : ∀ q, q ≠ p →
      pushedTo q k = [] ∧ receivedFrom q k = [] ∧ .detached q ∉ k)
    (hheld : p < h.queues.length → ((h'.queue p).held = true ↔ .detached p ∉ h'.journal))
    (hbal : (h'.queue p).held = true →
      receivedFrom p h'.journal ++ (h'.queue p).events = pushedTo p h'.journal) :
    Holding h' where
  held_iff := by
    intro q hq
    rw [hlen] at hq
    by_cases he : q = p
    · subst he
      exact hheld hq
    · rw [hother q he, hj, List.mem_append, not_or, hh.held_iff q hq]
      exact (and_iff_left (hnew q he).2.2).symm
  balance := by
    intro q hq
    by_cases he : q = p
    · subst he
      exact hbal hq
    · obtain ⟨hp, hr, -⟩ := hnew q he
      rw [hother q he] at hq ⊢
      rw [hj, receivedFrom_append, pushedTo_append, hp, hr, List.append_nil, List.append_nil]
      exact hh.balance q hq

/-- No queue changes, and of none is anything told. -/
theorem frame (hh : Holding h) (hq : h'.queues = h.queues) (hj : h'.journal = h.journal ++ k)
    (hnew : ∀ q, pushedTo q k = [] ∧ receivedFrom q k = [] ∧ .detached q ∉ k) :
    Holding h' := by
  have hqueue : ∀ q, h'.queue q = h.queue q := fun q => by rw [queue, queue, hq]
  refine ⟨fun p hp => ?_, fun p hp => ?_⟩
  · rw [hq] at hp
    rw [hqueue, hj, List.mem_append, not_or, hh.held_iff p hp]
    exact (and_iff_left (hnew p).2.2).symm
  · obtain ⟨h1, h2, -⟩ := hnew p
    rw [hqueue] at hp ⊢
    rw [hj, receivedFrom_append, pushedTo_append, h1, h2, List.append_nil, List.append_nil]
    exact hh.balance p hp

/-- A subscriber enters with an empty queue, of which nothing was told before. -/
theorem attach (hh : Holding h) (hr : Roster h) (hq : h'.queues = h.queues ++ [⟨[], true⟩])
    {n : Nat} (hj : h'.journal = h.journal ++ [.attached h.queues.length n]) : Holding h' := by
  obtain ⟨hpush, hrec, -, hdet, -⟩ := hr.fresh
  have hself : h'.queue h.queues.length = ⟨[], true⟩ := by simp [queue, hq]
  refine ⟨fun p hp => ?_, fun p hp => ?_⟩
  · rcases lt_or_eq_of_entered hq hp with hlt | rfl
    · rw [queue_append hq hlt, hj]
      simpa using hh.held_iff p hlt
    · rw [hself, hj]
      simpa using hdet
  · rcases lt_or_eq_of_entered hq (lt_of_held hp) with hlt | rfl
    · rw [queue_append hq hlt] at hp ⊢
      rw [hj]
      simpa using hh.balance p hp
    · rw [hself, hj]
      simp [hpush, hrec]

theorem dispatched {now : Nat} {ts : List Ticket} (hh : Holding h)
    (hd : Dispatched now h h' ts) : Holding h' := by
  cases hd with
  | @deliver b p rest hb ha hheld hl =>
    have hp := lt_of_held hheld
    have hself : (h.deliver b p rest).queue p =
        { h.queue p with events := (h.queue p).events ++ [b.event] } := queue_setQueue_self hp _
    refine hh.change (k := [.delivered p b.event]) (by simp [Hub.deliver, setQueue, note])
      (fun q hq => queue_setQueue_ne hq _) rfl (fun q hq => ?_) (fun _ => ?_) fun _ => ?_
    · simp [hq.symm]
    · rw [hself, hh.held_iff p hp]
      simp [Hub.deliver, setQueue, note]
    · have := hh.balance p hheld
      rw [hself]
      simp [Hub.deliver, setQueue, note, ← this]
  | close =>
    refine hh.frame (k := .closed :: h.waiting.map fun w => .dropped w.2) rfl rfl fun q => ?_
    obtain ⟨hpush, hrec, -, hdet⟩ := readings_closing q h.waiting
    exact ⟨hpush, hrec, hdet⟩
  | @finish b hb => exact hh.frame (k := []) rfl (List.append_nil _).symm (by simp)
  | evict | gone | await | overdue | take | refill | drain | stop =>
    exact hh.frame rfl rfl (by simp)

theorem moved {m : Move} {ts : List Ticket} (hh : Holding h) (hr : Roster h)
    (hm : Moved h m h' ts) : Holding h' := by
  cases hm with
  | attach => exact hh.attach hr rfl rfl
  | dispatch hd => exact hh.dispatched hd
  | @accept t e | @queue t e => exact hh.frame (k := [.emitted e]) rfl rfl (by simp)
  | @drop t e =>
    exact hh.frame (k := [.emitted e, .dropped e]) rfl (by simp [note]) (by simp)
  | refuse | look => exact hh
  | requestClose | dropSender => exact hh.frame (k := []) rfl (List.append_nil _).symm (by simp)
  | @detach p hheld =>
    have hself : (h.detach p).queue p = ⟨[], false⟩ := queue_setQueue_self (lt_of_held hheld) _
    refine hh.change (k := [.detached p]) (by simp [Hub.detach, setQueue, note])
      (fun q hq => queue_setQueue_ne hq _) rfl (fun q hq => ?_) (fun _ => ?_) fun hf => ?_
    · simp [hq]
    · rw [hself]
      simp [Hub.detach, note]
    · rw [hself] at hf
      cases hf
  | @receive p e rest hheld he =>
    have hp := lt_of_held hheld
    have hself : ((h.setQueue p ⟨rest, true⟩).note (.received p e)).queue p = ⟨rest, true⟩ :=
      queue_setQueue_self hp _
    refine hh.change (k := [.received p e]) (by simp [setQueue, note])
      (fun q hq => queue_setQueue_ne hq _) rfl (fun q hq => ?_) (fun _ => ?_) fun _ => ?_
    · simp [hq.symm]
    · rw [hself]
      simpa [setQueue, note, hheld] using hh.held_iff p hp
    · have := hh.balance p hheld
      rw [he] at this
      rw [hself]
      simpa [setQueue, note] using this
  | @receiveAll p hheld =>
    have hp := lt_of_held hheld
    have hself : (h.setQueue p ⟨[], true⟩).queue p = ⟨[], true⟩ := queue_setQueue_self hp _
    refine hh.change (k := (h.queue p).events.map (.received p)) (by simp [setQueue])
      (fun q hq => queue_setQueue_ne hq _) rfl (fun q hq => ?_) (fun _ => ?_) fun _ => ?_
    · obtain ⟨-, -, h1, -, h2⟩ := readings_map_received q p (h.queue p).events
      refine ⟨h1, by rw [h2, if_neg hq.symm], ?_⟩
      simp
    · show ((h.setQueue p ⟨[], true⟩).queue p).held = true ↔ _
      rw [hself]
      simpa [hheld] using hh.held_iff p hp
    · obtain ⟨-, -, h1, -, h2⟩ := readings_map_received p p (h.queue p).events
      show _ ++ ((h.setQueue p ⟨[], true⟩).queue p).events = _
      rw [hself, receivedFrom_append, pushedTo_append, h1, h2, if_pos rfl, List.append_nil,
        List.append_nil]
      exact hh.balance p hheld

end Holding

theorem holding_follow {h₀ h : Hub} {ms : List Move} {ts : List Ticket} (hr₀ : Roster h₀)
    (hh₀ : Holding h₀) (hr : h₀.follow? ms = some (h, ts)) : Holding h :=
  follow_induction (P := fun _ h _ => Holding h) hh₀
    (fun _ _ _ _ _ _ hf ih hm => ih.moved (roster_follow hr₀ hf) hm) hr

/-- Only by giving it up a subscriber loses its queue. -/
theorem Moved.held {h h' : Hub} {m : Move} {ts : List Ticket} {p : Place} (hm : Moved h m h' ts)
    (hne : m ≠ .detach p) (hh : (h.queue p).held = true) : (h'.queue p).held = true := by
  have hset : ∀ q x, (q = p → x.held = true) → ((h.setQueue q x).queue p).held = true := by
    intro q x hx
    by_cases hq : q = p
    · subst hq
      rw [queue_setQueue_self (lt_of_held hh)]
      exact hx rfl
    · rwa [queue_setQueue_ne fun hp => hq hp.symm]
  cases hm with
  | attach => rwa [queue_append rfl (lt_of_held hh)]
  | @detach q => exact hset q ⟨[], false⟩ fun hq => absurd (hq ▸ rfl) hne
  | receive => exact hset _ _ fun _ => rfl
  | receiveAll => exact hset _ ⟨[], true⟩ fun _ => rfl
  | dispatch hd =>
    cases hd with
    | @deliver b q rest => exact hset q { h.queue q with events := _ } fun hq => hq ▸ hh
    | _ => exact hh
  | _ => exact hh

end Hub

end CallFeed

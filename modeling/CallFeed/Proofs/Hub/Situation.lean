/-
  CallFeed — hubs whose dispatcher can only wait.

  * `Bounds`: no queue holds more than it can, and emits wait only while the inbound queue
    is open and full; every move keeps this (`Bounds.moved`);
  * `Situation` are the three situations in which a dispatcher can only wait: for an event,
    for a subscriber's queue, or for nothing. `Arises.situation`: a dispatcher that can only
    wait is in exactly one of them, at every moment of every run.
-/
import CallFeed.Proofs.Hub.Emission
import CallFeed.Proofs.Hub.Roster
import CallFeed.Proofs.Hub.Holding

namespace CallFeed

namespace Hub

/-! ## What the queues can hold -/

/-- No queue of the hub holds more than it can, and emits wait for space only. -/
structure Bounds (h : Hub) : Prop where
  positive : 1 ≤ h.settings.inbound ∧ 1 ≤ h.settings.subscriber
  inbound : h.inbound.length ≤ h.settings.inbound
  queues : ∀ p, (h.queue p).events.length ≤ h.settings.subscriber
  waiting : h.waiting ≠ [] → h.stage = .running ∧ h.inbound.length = h.settings.inbound

namespace Bounds
variable {h h' : Hub} {ts : List Ticket}

theorem start {feed : Feed} {settings : Settings} {senders : Nat}
    (h0 : start? feed settings senders = some h) : Bounds h := by
  obtain ⟨-, rfl⟩ := start?_eq_some h0
  refine ⟨⟨Nat.le_max_right _ _, Nat.le_max_right _ _⟩, Nat.zero_le _, fun p => ?_, ?_⟩
  · simp [queue]
  · exact fun hw => absurd rfl hw

/-- Nothing but the queues of subscribers changes. -/
theorem queues_only (hb : Bounds h) (hs : h'.settings = h.settings) (hin : h'.inbound = h.inbound)
    (hw : h'.waiting = h.waiting) (hst : h.stage = .running → h'.stage = .running)
    (hq : ∀ p, (h'.queue p).events.length ≤ h.settings.subscriber) : Bounds h' where
  positive := hs ▸ hb.positive
  inbound := by
    rw [hs, hin]
    exact hb.inbound
  queues := hs ▸ hq
  waiting := by
    rw [hs, hin, hw]
    exact fun hne => ⟨hst (hb.waiting hne).1, (hb.waiting hne).2⟩

/-- The queue at `p` gets new content. -/
theorem setQueue (hb : Bounds h) {p : Place} {x : Queue}
    (hx : x.events.length ≤ h.settings.subscriber) (q : Place) :
    ((h.setQueue p x).queue q).events.length ≤ h.settings.subscriber := by
  by_cases hq : q = p
  · subst hq
    by_cases hlt : q < h.queues.length
    · rwa [queue_setQueue_self hlt]
    · have hnone : (h.setQueue q x).queues[q]? = none :=
        List.getElem?_eq_none (by simpa [Hub.setQueue] using Nat.not_lt.1 hlt)
      simp [queue, hnone]
  · rw [queue_setQueue_ne hq]
    exact hb.queues q

theorem waiting_eq_nil (hb : Bounds h) (hst : h.stage ≠ .running) : h.waiting = [] := by
  by_contra hw
  exact hst (hb.waiting hw).1

theorem dispatched {now : Nat} (hb : Bounds h) (hd : Dispatched now h h' ts) : Bounds h' := by
  cases hd with
  | finish | evict | gone | overdue | await => exact hb.queues_only rfl rfl rfl id hb.queues
  | @deliver b p rest _ _ _ hl =>
    refine hb.queues_only rfl rfl rfl id (hb.setQueue ?_)
    rw [List.length_append, List.length_singleton]
    exact hl
  | close => exact ⟨hb.positive, hb.inbound, hb.queues, fun hw => absurd rfl hw⟩
  | take _ hst _ hin hw =>
    have hlen := hb.inbound
    rw [hin] at hlen
    exact ⟨hb.positive, Nat.le_of_succ_le hlen, hb.queues, fun hne => absurd hw hne⟩
  | refill _ hst _ hin hw =>
    -- the first waiting emit fills the place that the event taken has left
    have hfull := (hb.waiting (by simp [hw])).2
    rw [hin, List.length_cons] at hfull
    refine ⟨hb.positive, ?_, hb.queues, fun _ => ⟨hst, ?_⟩⟩
    · simpa [broadcast, note] using Nat.le_of_eq hfull
    · simpa [broadcast, note] using hfull
  | drain _ hst hin =>
    have hlen := hb.inbound
    rw [hin] at hlen
    have hw := hb.waiting_eq_nil (by simp [hst])
    exact ⟨hb.positive, Nat.le_of_succ_le hlen, hb.queues, fun hne => absurd hw hne⟩
  | stop _ hst =>
    have hw := hb.waiting_eq_nil (by simp [hst])
    exact ⟨hb.positive, hb.inbound, hb.queues, fun hne => absurd hw hne⟩

/-- Every move keeps the bounds. -/
theorem moved {m : Move} (hb : Bounds h) (hm : Moved h m h' ts) : Bounds h' := by
  cases hm with
  | dispatch hd => exact hb.dispatched hd
  | accept hst hw hlt =>
    refine ⟨hb.positive, ?_, hb.queues, fun hne => absurd hw hne⟩
    rw [List.length_append]
    exact hlt
  | queue hst hfull =>
    refine ⟨hb.positive, hb.inbound, hb.queues, fun _ => ⟨hst, ?_⟩⟩
    rcases hfull with hw | hle
    · exact (hb.waiting hw).2
    · exact Nat.le_antisymm hb.inbound hle
  | attach =>
    refine hb.queues_only rfl rfl rfl id fun q => ?_
    by_cases hq : q < h.queues.length
    · rw [queue_append rfl hq]
      exact hb.queues q
    · have hge := Nat.not_lt.1 hq
      rcases Nat.eq_or_lt_of_le hge with rfl | hgt
      · simp [Hub.queue, note]
      · have hnone : (h.queues ++ [Queue.mk [] true])[q]? = none :=
          List.getElem?_eq_none (by rw [List.length_append]; exact hgt)
        simp [Hub.queue, note, hnone]
  | detach => exact hb.queues_only rfl rfl rfl id (hb.setQueue (Nat.zero_le _))
  | receiveAll => exact hb.queues_only rfl rfl rfl id (hb.setQueue (Nat.zero_le _))
  | @receive p e rest _ he =>
    have hlen := hb.queues p
    rw [he] at hlen
    exact hb.queues_only rfl rfl rfl id (hb.setQueue (Nat.le_of_succ_le hlen))
  | drop | refuse | look | requestClose | dropSender =>
    exact hb.queues_only rfl rfl rfl id hb.queues

end Bounds

theorem bounds_follow {h₀ h : Hub} {ms : List Move} {ts : List Ticket} (hb : Bounds h₀)
    (hr : h₀.follow? ms = some (h, ts)) : Bounds h :=
  follow_induction (P := fun _ h _ => Bounds h) hb (fun _ _ _ _ _ _ _ ih hm => ih.moved hm) hr

section
variable {h : Hub}

theorem Arises.bounds (ha : Arises h) : Bounds h := by
  obtain ⟨feed, settings, senders, h₀, ms, ts, h0, hr⟩ := ha
  exact bounds_follow (Bounds.start h0) hr

theorem Arises.roster (ha : Arises h) : Roster h := by
  obtain ⟨feed, settings, senders, h₀, ms, ts, h0, hr⟩ := ha
  exact roster_follow (Roster.start h0) hr

theorem Arises.holding (ha : Arises h) : Holding h := by
  obtain ⟨feed, settings, senders, h₀, ms, ts, h0, hr⟩ := ha
  exact holding_follow (Roster.start h0) (Holding.start h0) hr

/-- A hub that has stopped has nothing left. -/
theorem Arises.stopped (ha : Arises h) (hst : h.stage = .stopped) :
    h.inbound = [] ∧ h.waiting = [] := by
  have hw := ha.bounds.waiting_eq_nil (by simp [hst])
  obtain ⟨feed, settings, senders, h₀, ms, ts, h0, hr⟩ := ha
  obtain ⟨hst₀, ha₀⟩ := Accounts.start h0
  exact ⟨((accounts_follow hst₀ ha₀ hr).1.stopped hst).1, hw⟩

end

/-! ## The clock -/

/-- No wait of the dispatcher has begun later than now. -/
def Timely (now : Nat) (h : Hub) : Prop :=
  ∀ b since, h.sending = some b → b.since = some since → since ≤ now

theorem Timely.later {h : Hub} {now time : Nat} (ht : Timely now h) (hle : now ≤ time) :
    Timely time h := fun b since hb hs => Nat.le_trans (ht b since hb hs) hle

theorem Timely.dispatched {h h' : Hub} {now : Nat} {ts : List Ticket} (ht : Timely now h)
    (hd : Dispatched now h h' ts) : Timely now h' := by
  cases hd with
  | finish | evict => rintro b since ⟨⟩
  | close | stop => exact ht
  | await =>
    rintro b since hb hs
    cases hb
    cases hs
    exact Nat.le_refl _
  | gone | overdue | deliver | take | refill | drain =>
    rintro b since hb hs
    cases hb
    cases hs

/-- Nobody but the dispatcher begins to wait for a subscriber. -/
theorem Timely.moved {h h' : Hub} {now : Nat} {m : Move} {ts : List Ticket} (ht : Timely now h)
    (hm : Moved h m h' ts) (hnow : ∀ time, m = .dispatch time → time = now) : Timely now h' := by
  cases hm with
  | dispatch hd => exact ht.dispatched (hnow _ rfl ▸ hd)
  | _ => exact ht

/-! ## Dispatchers that can only wait -/

/-- In what situation a dispatcher can only wait. -/
inductive Situation where
  /-- It waits for an event. -/
  | idle
  /-- It waits for space in the queue of this subscriber. -/
  | blocked (p : Place)
  /-- It has stopped. -/
  | stopped

/-- The dispatcher waits for space in the queue at `p`, which is full and still held; the
    limit of the wait is not reached. -/
structure Blocked (now : Nat) (h : Hub) (p : Place) : Prop where
  serving : ∃ b rest since, h.sending = some b ∧ b.ahead = p :: rest ∧ b.since = some since ∧
    since ≤ now ∧ ∀ limit, h.settings.limit = some limit → now < since + limit
  member : p ∈ h.members
  held : (h.queue p).held = true
  full : (h.queue p).events.length = h.settings.subscriber

/-- What a hub is like in a situation. -/
def InSituation (now : Nat) (h : Hub) : Situation → Prop
  | .idle => h.stage = .running ∧ h.closing = false ∧ h.sending = none ∧ h.inbound = [] ∧
      h.waiting = []
  | .blocked p => Blocked now h p
  | .stopped => h.stage = .stopped ∧ h.members = [] ∧ h.sending = none ∧ h.inbound = [] ∧
      h.waiting = []

/-- No hub is in two situations. -/
theorem InSituation.unique {h : Hub} {now : Nat} {x y : Situation} (hx : InSituation now h x)
    (hy : InSituation now h y) : x = y := by
  have hidle : ∀ p, Blocked now h p → h.sending ≠ none := by
    rintro p hp hn
    obtain ⟨b, rest, since, hb, -⟩ := hp.serving
    cases hn.symm.trans hb
  cases x with
  | idle =>
    obtain ⟨hst, -, hn, -⟩ := hx
    cases y with
    | idle => rfl
    | blocked p => exact absurd hn (hidle p hy)
    | stopped => cases hst.symm.trans hy.1
  | stopped =>
    obtain ⟨hst, -, hn, -⟩ := hx
    cases y with
    | idle => cases hst.symm.trans hy.1
    | blocked p => exact absurd hn (hidle p hy)
    | stopped => rfl
  | blocked p =>
    cases y with
    | idle => exact absurd hy.2.2.1 (hidle p hx)
    | stopped => exact absurd hy.2.2.1 (hidle p hx)
    | blocked q =>
      obtain ⟨b, rest, since, hb, ha, -⟩ := hx.serving
      obtain ⟨c, rest', since', hc, ha', -⟩ := hy.serving
      obtain rfl := Option.some.inj (hb.symm.trans hc)
      obtain ⟨rfl, -⟩ := List.cons.inj (ha.symm.trans ha')
      rfl

/-- What a dispatcher is like that has nothing to do. -/
theorem step?_eq_none_iff {h : Hub} {now : Nat} : h.step? now = none ↔
    (∃ b p rest since, h.sending = some b ∧ b.ahead = p :: rest ∧ b.since = some since ∧
      (h.queue p).held = true ∧ h.settings.subscriber ≤ (h.queue p).events.length ∧
      h.isOverdue now since = false) ∨
    (h.sending = none ∧ h.stage = .running ∧ h.closing = false ∧ h.inbound = [] ∧
      ¬ (h.senders = 0 ∧ h.waiting = [])) ∨
    (h.sending = none ∧ h.stage = .stopped) := by
  constructor
  · intro hs
    unfold step? at hs
    split at hs
    · rename_i b hb
      rw [Option.map_eq_none_iff] at hs
      unfold serve? at hs
      split at hs
      · cases hs
      · rename_i p rest ha
        split at hs
        · cases hs
        · rename_i hh
          split at hs
          · cases hs
          · rename_i hl
            split at hs
            · cases hs
            · rename_i since hsince
              split at hs
              · cases hs
              · rename_i ho
                exact Or.inl ⟨b, p, rest, since, hb, ha, hsince, by simpa using hh,
                  Nat.not_lt.1 hl, by simpa using ho⟩
    · rename_i hb
      split at hs
      · rename_i hst
        split at hs
        · cases hs
        · rename_i hc
          split at hs
          · cases hs
          · rename_i hin
            split at hs
            · cases hs
            · rename_i hw
              exact Or.inr (Or.inl ⟨hb, hst, by simpa using hc, hin, hw⟩)
      · split at hs <;> cases hs
      · rename_i hst
        exact Or.inr (Or.inr ⟨hb, hst⟩)
  · rintro (⟨b, p, rest, since, hb, ha, hsince, hh, hl, ho⟩ | ⟨hb, hst, hc, hin, hw⟩ | ⟨hb, hst⟩)
    · simp [step?, serve?, hb, ha, hsince, hh, Nat.not_lt.2 hl, ho]
    · simp [step?, hb, hst, hc, hin]
      simpa using hw
    · simp [step?, hb, hst]

theorem deadline?_eq_some_iff {h : Hub} {d : Nat} : h.deadline? = some d ↔
    ∃ b, h.sending = some b ∧ ∃ since, b.since = some since ∧ ∃ limit,
      h.settings.limit = some limit ∧ since + limit = d := by
  simp only [deadline?, Option.bind_eq_bind, Option.bind_eq_some_iff, Option.pure_def,
    Option.some.injEq]

/-- Who can only wait has not reached the limit of its delivery. -/
theorem lt_deadline?_of_step? {h : Hub} {now d : Nat} (hs : h.step? now = none)
    (hd : h.deadline? = some d) : now < d := by
  obtain ⟨b, hb, since, hsince, limit, hlimit, rfl⟩ := deadline?_eq_some_iff.1 hd
  rcases step?_eq_none_iff.1 hs with
    ⟨b', -, -, since', hb', -, hsince', -, -, ho⟩ | ⟨hb', -⟩ | ⟨hb', -⟩
  · cases hb.symm.trans hb'
    cases hsince.symm.trans hsince'
    simpa [isOverdue, hlimit] using ho
  · cases hb.symm.trans hb'
  · cases hb.symm.trans hb'

/-- A dispatcher that can only wait is in exactly one situation. -/
theorem Arises.situation {h : Hub} {now : Nat} (ha : Arises h) (ht : Timely now h)
    (hs : h.step? now = none) : ∃! x, InSituation now h x := by
  suffices ∃ x, InSituation now h x by
    obtain ⟨x, hx⟩ := this
    exact ⟨x, hx, fun y hy => hy.unique hx⟩
  rcases step?_eq_none_iff.1 hs with
    ⟨b, p, rest, since, hb, hahead, hsince, hh, hl, ho⟩ | ⟨hb, hst, hc, hin, -⟩ | ⟨hb, hst⟩
  · refine ⟨.blocked p, ⟨b, rest, since, hb, hahead, hsince, ht b since hb hsince, ?_⟩, ?_, hh, ?_⟩
    · intro limit hlimit
      simpa [isOverdue, hlimit] using ho
    · exact ((ha.roster.ahead b hb).2 p (hahead ▸ List.mem_cons_self)).1
    · exact Nat.le_antisymm (ha.bounds.queues p) hl
  · refine ⟨.idle, hst, hc, hb, hin, ?_⟩
    by_contra hw
    have hfull := (ha.bounds.waiting hw).2
    have hpos := ha.bounds.positive.1
    rw [hin, List.length_nil] at hfull
    rw [← hfull] at hpos
    exact Nat.not_succ_le_zero 0 hpos
  · obtain ⟨hin, hw⟩ := ha.stopped hst
    exact ⟨.stopped, hst, (ha.roster.ended hst).1, hb, hin, hw⟩

end Hub

end CallFeed

/-
  CallFeed — what a snapshot counts, and what a look at a stat subscription does.

  `Counts x es`: the snapshot `x` gives for every method and for every consumer how many of
  the events `es` have it, and has no entry where there are none. It holds of the empty
  snapshot and is kept by recording events (`Counts.recordAll`). A look takes everything
  from the queue (`StatFeed.poll_hub`), whether or not the window is over, and yields a
  snapshot if it is (`StatFeed.poll_cases`).
-/
import CallFeed.Proofs.Hub.Run
import CallFeed.Window

namespace CallFeed

/-- The table gives how often each key is among `keys`, and has no entry for others. -/
def Tallies (t : Table Nat) (keys : List String) : Prop :=
  ∀ key, t.get? key = if keys.count key = 0 then none else some (keys.count key)

theorem tallies_empty : Tallies .empty [] := fun _ => rfl

theorem Tallies.alter {t : Table Nat} {keys : List String} (ht : Tallies t keys) (key : String) :
    Tallies (t.alter key Snapshot.succ) (keys ++ [key]) := by
  intro k
  rw [Table.get?_alter, List.count_append]
  by_cases hk : k = key
  · subst hk
    rw [if_pos rfl, ht k, List.count_singleton_self]
    by_cases hc : keys.count k = 0
    · simp [hc, Snapshot.succ]
    · simp [hc, Snapshot.succ]
  · have hcount : [key].count k = 0 :=
      List.count_eq_zero.2 fun hmem => hk (List.mem_singleton.1 hmem)
    rw [if_neg hk, ht k, hcount, Nat.add_zero]

/-- The snapshot counts these events. -/
structure Counts (x : Snapshot) (es : List Event) : Prop where
  byMethod : Tallies x.byMethod (es.map Event.method)
  byConsumer : Tallies x.byConsumer (es.map Event.consumer)

theorem counts_empty : Counts .empty [] := ⟨tallies_empty, tallies_empty⟩

theorem Counts.record {x : Snapshot} {es : List Event} (hx : Counts x es) (e : Event) :
    Counts (x.record e) (es ++ [e]) := by
  refine ⟨?_, ?_⟩
  · simpa [Snapshot.record] using hx.byMethod.alter e.method
  · simpa [Snapshot.record] using hx.byConsumer.alter e.consumer

theorem Counts.recordAll {x : Snapshot} {es : List Event} (hx : Counts x es) (new : List Event) :
    Counts (x.recordAll new) (es ++ new) := by
  induction new generalizing x es with
  | nil => simpa [Snapshot.recordAll] using hx
  | cons e new ih => simpa [Snapshot.recordAll] using ih (hx.record e)

/-! ## Looking at a subscription -/

namespace StatFeed

/-- A look at a stat subscription takes everything from its queue. -/
theorem poll_hub (f : StatFeed) (now : Nat) (h : Hub) :
    (f.poll now h).2.1 = (h.receiveAll f.place).1 := by
  simp only [poll, Hub.receiveAll]
  split <;> rfl

/-- A look is a move of who holds the queue. -/
theorem move?_of_poll {f : StatFeed} {h : Hub} (now : Nat) (hh : (h.queue f.place).held = true) :
    h.move? (.receiveAll f.place) = some ((f.poll now h).2.1, []) := by
  rw [poll_hub]
  exact if_pos hh

theorem poll_place (f : StatFeed) (now : Nat) (h : Hub) :
    (f.poll now h).1.place = f.place := by
  simp only [poll, Hub.receiveAll]
  split <;> rfl

/-- A look yields a snapshot just if the window is over. Else it finds the feed closed or not,
    and the window goes on. -/
theorem poll_cases {f f' : StatFeed} {now : Nat} {h h' : Hub} {r : Poll}
    (hp : f.poll now h = (f', h', r)) :
    f'.place = f.place ∧ h'.feedsPlace f.place = h.feedsPlace f.place ∧
      (f.ticker.due ≤ now ∧ (∃ x, r = .snapshot x) ∧ f'.ticker = f.ticker.tick now ∨
        now < f.ticker.due ∧ f'.ticker = f.ticker ∧
          r = if h.feedsPlace f.place then .pending else .closed) := by
  simp only [poll] at hp
  split at hp
  · rename_i hdue
    cases hp
    exact ⟨rfl, rfl, Or.inl ⟨hdue, ⟨_, rfl⟩, rfl⟩⟩
  · rename_i hdue
    cases hp
    exact ⟨rfl, rfl, Or.inr ⟨Nat.not_le.1 hdue, rfl, rfl⟩⟩

/-- A window that is looked at without an end is not over. -/
theorem lt_due_of_poll {f : StatFeed} {now : Nat} {h : Hub}
    (hp : (f.poll now h).2.2 = .pending) : now < (f.poll now h).1.ticker.due := by
  rcases hpoll : f.poll now h with ⟨f', h', r⟩
  rw [hpoll] at hp
  obtain ⟨-, -, ⟨-, ⟨x, hx⟩, -⟩ | ⟨hlt, hticker, -⟩⟩ := poll_cases hpoll
  · cases hp.symm.trans hx
  · exact lt_of_lt_of_eq hlt (congrArg Ticker.due hticker.symm)

end StatFeed

end CallFeed

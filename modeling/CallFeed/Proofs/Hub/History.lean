/-
  CallFeed — what a journal tells.

  The journal of a hub is read in a few ways: which events were taken for broadcast
  (`takenIn`) and which were dropped (`droppedIn`), what was put into the queue of a
  subscriber (`pushedTo`) and what it has taken from it (`receivedFrom`), whether a
  delivery to it has failed (`FailsIn`), and how many broadcasts began before it
  attached (`entryOf`). A journal only grows (`Moved.journal_append`).
-/
import CallFeed.Proofs.Hub.Run

namespace CallFeed

/-- The event that is taken for broadcast. -/
@[simp] def Occurrence.taken? : Occurrence → Option Event
  | .taken e _ => some e
  | _ => none

/-- The event that is dropped. -/
@[simp] def Occurrence.dropped? : Occurrence → Option Event
  | .dropped e => some e
  | _ => none

/-- The event that is put into the queue at `p`. -/
@[simp] def Occurrence.pushed? (p : Place) : Occurrence → Option Event
  | .delivered q e => if q = p then some e else none
  | _ => none

/-- The event that the subscriber at `p` takes from its queue. -/
@[simp] def Occurrence.received? (p : Place) : Occurrence → Option Event
  | .received q e => if q = p then some e else none
  | _ => none

/-- Whether the subscriber at `p` is entered. -/
def Occurrence.enters (p : Place) : Occurrence → Bool
  | .attached q _ => q = p
  | _ => false

/-- The place of the subscriber that an occurrence is about. -/
def Occurrence.place? : Occurrence → Option Place
  | .attached p _ | .waited p _ | .delivered p _ | .failed p _ _ | .received p _ | .detached p =>
    some p
  | _ => none

/-- The events taken for broadcast. -/
def takenIn (j : List Occurrence) : List Event := j.filterMap Occurrence.taken?

/-- The events dropped. -/
def droppedIn (j : List Occurrence) : List Event := j.filterMap Occurrence.dropped?

/-- The events ever put into the queue at `p`. -/
def pushedTo (p : Place) (j : List Occurrence) : List Event := j.filterMap (Occurrence.pushed? p)

/-- The events that the subscriber at `p` has taken from its queue. -/
def receivedFrom (p : Place) (j : List Occurrence) : List Event :=
  j.filterMap (Occurrence.received? p)

/-- A delivery to the subscriber at `p` has failed. -/
def FailsIn (p : Place) (j : List Occurrence) : Prop :=
  ∃ reason time, Occurrence.failed p reason time ∈ j

/-- How many broadcasts had begun when the subscriber at `p` was entered. -/
def entryOf (p : Place) (j : List Occurrence) : Nat :=
  (takenIn (j.takeWhile fun o => !o.enters p)).length

section
variable (p : Place) (o : Occurrence) (j k : List Occurrence)

@[simp] theorem takenIn_append : takenIn (j ++ k) = takenIn j ++ takenIn k :=
  List.filterMap_append

@[simp] theorem takenIn_nil : takenIn [] = [] := rfl

@[simp] theorem takenIn_cons : takenIn (o :: j) = o.taken?.toList ++ takenIn j := by
  rw [takenIn, List.filterMap_cons]
  cases o.taken? <;> rfl

@[simp] theorem droppedIn_append : droppedIn (j ++ k) = droppedIn j ++ droppedIn k :=
  List.filterMap_append

@[simp] theorem droppedIn_nil : droppedIn [] = [] := rfl

@[simp] theorem droppedIn_cons : droppedIn (o :: j) = o.dropped?.toList ++ droppedIn j := by
  rw [droppedIn, List.filterMap_cons]
  cases o.dropped? <;> rfl

@[simp] theorem pushedTo_append : pushedTo p (j ++ k) = pushedTo p j ++ pushedTo p k :=
  List.filterMap_append

@[simp] theorem pushedTo_nil : pushedTo p [] = [] := rfl

@[simp] theorem pushedTo_cons : pushedTo p (o :: j) = (o.pushed? p).toList ++ pushedTo p j := by
  rw [pushedTo, List.filterMap_cons]
  cases o.pushed? p <;> rfl

@[simp] theorem receivedFrom_append :
    receivedFrom p (j ++ k) = receivedFrom p j ++ receivedFrom p k := List.filterMap_append

@[simp] theorem receivedFrom_nil : receivedFrom p [] = [] := rfl

@[simp] theorem receivedFrom_cons :
    receivedFrom p (o :: j) = (o.received? p).toList ++ receivedFrom p j := by
  rw [receivedFrom, List.filterMap_cons]
  cases o.received? p <;> rfl

end

@[simp] theorem failsIn_append {p : Place} {j k : List Occurrence} :
    FailsIn p (j ++ k) ↔ FailsIn p j ∨ FailsIn p k := by
  simp only [FailsIn, List.mem_append, exists_or]

@[simp] theorem failsIn_singleton {p : Place} {o : Occurrence} :
    FailsIn p [o] ↔ ∃ reason time, .failed p reason time = o := by
  simp only [FailsIn, List.mem_singleton]

@[simp] theorem not_failsIn_nil (p : Place) : ¬ FailsIn p [] := by simp [FailsIn]

/-- Taking all events from a queue is told of as taking them one by one. -/
theorem readings_map_received (p q : Place) (es : List Event) :
    takenIn (es.map (.received q)) = [] ∧ droppedIn (es.map (.received q)) = [] ∧
      pushedTo p (es.map (.received q)) = [] ∧ ¬ FailsIn p (es.map (.received q)) ∧
      receivedFrom p (es.map (.received q)) = if q = p then es else [] := by
  induction es with
  | nil => simp [FailsIn]
  | cons e es ih =>
    obtain ⟨h1, h2, h3, h4, h5⟩ := ih
    refine ⟨by simpa using h1, by simpa using h2, by simpa using h3, ?_, ?_⟩
    · rintro ⟨r, t, ho⟩
      simp at ho
    · rw [List.map_cons, receivedFrom_cons, h5]
      by_cases hq : q = p <;> simp [hq]

/-- What closing the inbound queue tells: the waiting emits are dropped. -/
theorem readings_map_dropped (w : List (Ticket × Event)) :
    takenIn (w.map fun x => .dropped x.2) = [] ∧
      droppedIn (w.map fun x => .dropped x.2) = w.map Prod.snd := by
  induction w with
  | nil => simp
  | cons x w ih => simpa using ih

theorem place?_of_mem_closing {w : List (Ticket × Event)} {o : Occurrence}
    (ho : o ∈ Occurrence.closed :: w.map fun x => .dropped x.2) : o.place? = none := by
  rcases List.mem_cons.1 ho with rfl | ho
  · rfl
  · obtain ⟨x, -, rfl⟩ := List.mem_map.1 ho
    rfl

/-- What stands in a journal about a place where nobody is. -/
theorem readings_eq_nil {p : Place} {j : List Occurrence} (h : ∀ o ∈ j, o.place? ≠ some p) :
    pushedTo p j = [] ∧ receivedFrom p j = [] ∧ ¬ FailsIn p j ∧ .detached p ∉ j ∧
      ∀ o ∈ j, o.enters p = false := by
  refine ⟨?_, ?_, ?_, ?_, ?_⟩
  · refine List.filterMap_eq_nil_iff.2 fun o ho => ?_
    have := h o ho
    cases o <;> simp_all [Occurrence.pushed?, Occurrence.place?]
  · refine List.filterMap_eq_nil_iff.2 fun o ho => ?_
    have := h o ho
    cases o <;> simp_all [Occurrence.received?, Occurrence.place?]
  · rintro ⟨r, t, ho⟩
    exact h _ ho rfl
  · exact fun ho => h _ ho rfl
  · intro o ho
    have := h o ho
    cases o <;> simp_all [Occurrence.enters, Occurrence.place?]

/-- Closing the inbound queue tells nothing of any subscriber. -/
theorem readings_closing (p : Place) (w : List (Ticket × Event)) :
    pushedTo p (.closed :: w.map fun x => .dropped x.2) = [] ∧
      receivedFrom p (.closed :: w.map fun x => .dropped x.2) = [] ∧
      ¬ FailsIn p (.closed :: w.map fun x => .dropped x.2) ∧
      Occurrence.detached p ∉ Occurrence.closed :: w.map fun x => .dropped x.2 := by
  have hnone := readings_eq_nil (p := p) (j := .closed :: w.map fun x => .dropped x.2)
    fun o ho => by simp [place?_of_mem_closing ho]
  obtain ⟨hpush, hrec, hfail, hdet, -⟩ := hnone
  exact ⟨hpush, hrec, hfail, hdet⟩

/-- The number of broadcasts before a subscriber does not change once it is entered. -/
theorem entryOf_append {p : Place} {j : List Occurrence} (k : List Occurrence)
    (h : ∃ o ∈ j, o.enters p = true) : entryOf p (j ++ k) = entryOf p j := by
  obtain ⟨o, ho, hp⟩ := h
  unfold entryOf
  rw [List.takeWhile_append, if_neg]
  intro hl
  have he := (List.takeWhile_prefix fun o : Occurrence => !o.enters p).eq_of_length hl
  rw [← he] at ho
  have := List.all_eq_true.1 List.all_takeWhile o ho
  simp [hp] at this

/-- A subscriber enters behind all broadcasts that have begun. -/
theorem entryOf_attached {p : Place} {j : List Occurrence} (n : Nat)
    (h : ∀ o ∈ j, o.enters p = false) :
    entryOf p (j ++ [.attached p n]) = (takenIn j).length := by
  unfold entryOf
  rw [List.takeWhile_append_of_pos (by simpa using h)]
  simp [Occurrence.enters]

theorem entryOf_le (p : Place) (j : List Occurrence) : entryOf p j ≤ (takenIn j).length :=
  ((List.takeWhile_sublist _).filterMap _).length_le

namespace Hub

/-- A journal only grows, and only a subscriber itself takes from its queue. -/
theorem Moved.journal_append {h h' : Hub} {m : Move} {ts : List Ticket} (hm : Moved h m h' ts) :
    ∃ k, h'.journal = h.journal ++ k ∧ ∀ p, m.place? ≠ some p → receivedFrom p k = [] := by
  cases hm with
  | @drop t e => exact ⟨[.emitted e, .dropped e], by simp [note], fun p _ => rfl⟩
  | @receive q e =>
    refine ⟨[.received q e], rfl, fun p hp => ?_⟩
    have hne : ¬ q = p := fun he => hp (by rw [he]; rfl)
    simp [hne]
  | @receiveAll q =>
    refine ⟨_, rfl, fun p hp => ?_⟩
    obtain ⟨-, -, -, -, hrec⟩ := readings_map_received p q (h.queue q).events
    rw [hrec, if_neg fun he => hp (by rw [he]; rfl)]
  | refuse | look | requestClose | dropSender =>
    exact ⟨[], (List.append_nil _).symm, fun p _ => rfl⟩
  | dispatch hd =>
    cases hd with
    | finish => exact ⟨[], (List.append_nil _).symm, fun p _ => rfl⟩
    | close =>
      refine ⟨_, rfl, fun p _ => ?_⟩
      obtain ⟨-, hrec, -, -⟩ := readings_closing p h.waiting
      exact hrec
    | _ => exact ⟨_, rfl, fun p _ => rfl⟩
  | _ => exact ⟨_, rfl, fun p _ => rfl⟩

/-- A journal grows while the dispatcher works. -/
theorem run_journal (now n : Nat) (h : Hub) : h.journal <+: (h.run now n).1.journal := by
  induction n generalizing h with
  | zero => exact List.prefix_refl _
  | succ n ih =>
    cases hs : h.step? now with
    | none => simp only [run_of_none hs, List.prefix_refl]
    | some r =>
      obtain ⟨h', ts⟩ := r
      obtain ⟨k, hj, -⟩ := (Moved.dispatch (step?_eq_some_iff.1 hs)).journal_append
      rw [run_of_some hs]
      exact (hj ▸ List.prefix_append _ k).trans (ih h')

end Hub

end CallFeed

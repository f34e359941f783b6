/-
  CallFeed — two hubs, one of which has one subscriber more.

  The subscriber that the second hub has more is at a place of its own, `q`; whoever attaches
  later has a place one higher than in the first hub (`shift`). Where `q` is none the hubs have
  the same subscribers.

  * `Beside`: but for the subscriber at `q` the hubs are equal, and their journals tell the same
    of all others (`Occurrence.told`), numbers of subscribers apart; nobody waits for `q`;
  * `Beside.dispatched`: a step of the second dispatcher is one of the first, or it has to do
    with `q` only; `Beside.settle`: if nobody ever waits for `q` both hubs settle alike, and
    the same emits return;
  * what senders and subscribers do to both hubs, or the subscriber at `q` to its own, leaves them
    beside each other.
-/
import CallFeed.Proofs.Hub.Situation
import CallFeed.Proofs.Hub.Register
import CallFeed.Session.Reading

namespace CallFeed

/-! ## One more place -/

/-- What is at `n` in a list is at this place when one more is inserted at `q`. -/
def shift (q : Option Nat) (n : Nat) : Nat :=
  match q with
  | some q => if n < q then n else n + 1
  | none => n

/-- Whether a place is not the one at `q`. -/
def isOther (q : Option Nat) (n : Nat) : Bool := q ≠ some n

section
variable {q : Option Nat} {m n : Nat}

@[simp] theorem shift_inj : shift q m = shift q n ↔ m = n := by
  cases q with
  | none => rfl
  | some q =>
    simp only [shift]
    split <;> split <;> omega

@[simp] theorem isOther_shift (q : Option Nat) (n : Nat) : isOther q (shift q n) = true := by
  cases q with
  | none => rfl
  | some q =>
    simp only [isOther, shift, decide_eq_true_eq, ne_eq, Option.some.injEq]
    split <;> omega

theorem shift_ne (q n : Nat) : shift (some q) n ≠ q := by
  simp only [shift]
  split <;> omega

theorem shift_lt_shift : shift q m < shift q n ↔ m < n := by
  cases q with
  | none => rfl
  | some q =>
    simp only [shift]
    split <;> split <;> omega

theorem shift_of_lt {k : Nat} (hk : n < k) : shift (some k) n = n := if_pos hk

theorem isOther_of_lt {k : Nat} (hk : n < k) : isOther (some k) n = true := by
  simpa [isOther] using Nat.ne_of_gt hk

theorem shift_succ (hk : ∀ k, q = some k → k ≤ n) : shift q (n + 1) = shift q n + 1 := by
  cases q with
  | none => rfl
  | some k =>
    have := hk k rfl
    simp only [shift]
    split <;> split <;> omega

/-- The others are there under their places. -/
theorem shift_mem_iff {l₁ l₂ : List Place} (hl : l₂.filter (isOther q) = l₁.map (shift q)) :
    shift q n ∈ l₂ ↔ n ∈ l₁ := by
  have hmem : shift q n ∈ l₂.filter (isOther q) ↔ shift q n ∈ l₁.map (shift q) := by rw [hl]
  simpa using hmem

/-- A list of which all is kept, and where it is. -/
theorem filter_eq_map {β : Type} {l : List β} {keep : β → Bool} {place : β → β}
    (hl : ∀ x ∈ l, keep x = true ∧ place x = x) : l.filter keep = l.map place := by
  rw [List.filter_eq_self.2 fun x hx => (hl x hx).1]
  calc l = l.map id := (List.map_id l).symm
    _ = l.map place := List.map_congr_left fun x hx => ((hl x hx).2).symm

/-- The first of some places is that of a first one of the others, or the one more. -/
theorem others_cons {p : Place} {rest l : List Place}
    (hl : (p :: rest).filter (isOther q) = l.map (shift q)) :
    q = some p ∧ rest.filter (isOther q) = l.map (shift q) ∨
      ∃ p₁ rest₁, l = p₁ :: rest₁ ∧ p = shift q p₁ ∧
        rest.filter (isOther q) = rest₁.map (shift q) := by
  by_cases hq : q = some p
  · rw [List.filter_cons_of_neg (by simp [isOther, hq])] at hl
    exact Or.inl ⟨hq, hl⟩
  · rw [List.filter_cons_of_pos (by simp [isOther, hq])] at hl
    obtain ⟨p₁, rest₁, rfl, hp, hrest⟩ := List.map_eq_cons_iff.1 hl.symm
    exact Or.inr ⟨p₁, rest₁, rfl, hp.symm, hrest.symm⟩

end

/-! ## What a journal tells of some subscribers -/

/-- What an occurrence tells of the subscribers that are kept, under other places, and without
    numbers of subscribers. -/
def Occurrence.told (keep : Place → Bool) (place : Place → Place) : Occurrence → List Occurrence
  | attached p _ => if keep p then [attached (place p) 0] else []
  | taken e _ => [taken e []]
  | waited p since => if keep p then [waited (place p) since] else []
  | delivered p e => if keep p then [delivered (place p) e] else []
  | failed p reason time => if keep p then [failed (place p) reason time] else []
  | evicted gone _ => (gone.filter fun x => keep x.1).map fun x => evicted [(place x.1, x.2)] 0
  | received p e => if keep p then [received (place p) e] else []
  | detached p => if keep p then [detached (place p)] else []
  | stopped _ drained => [stopped 0 drained]
  | o => [o]

/-- The place of the subscriber that a delivery begins to wait for. -/
def Occurrence.awaited? : Occurrence → Option Place
  | waited p _ => some p
  | _ => none

/-- What a journal tells of all but the subscriber at `q`. -/
def toldOfOthers (q : Option Place) (j : List Occurrence) : List Occurrence :=
  j.flatMap (Occurrence.told (isOther q) id)

/-- What a journal tells of all, under the places that they have if there is one more at `q`. -/
def toldOfAll (q : Option Place) (j : List Occurrence) : List Occurrence :=
  j.flatMap (Occurrence.told (fun _ => true) (shift q))

section
variable (q : Option Place) (j k : List Occurrence) (o : Occurrence)

@[simp] theorem toldOfOthers_append :
    toldOfOthers q (j ++ k) = toldOfOthers q j ++ toldOfOthers q k := List.flatMap_append

@[simp] theorem toldOfAll_append : toldOfAll q (j ++ k) = toldOfAll q j ++ toldOfAll q k :=
  List.flatMap_append

@[simp] theorem toldOfOthers_cons : toldOfOthers q (o :: j) =
    o.told (isOther q) id ++ toldOfOthers q j := List.flatMap_cons

@[simp] theorem toldOfAll_cons : toldOfAll q (o :: j) =
    o.told (fun _ => true) (shift q) ++ toldOfAll q j := List.flatMap_cons

@[simp] theorem toldOfOthers_nil : toldOfOthers q [] = [] := rfl

@[simp] theorem toldOfAll_nil : toldOfAll q [] = [] := rfl

/-- That events are dropped is told of everybody alike. -/
theorem told_closing (w : List (Ticket × Event)) :
    toldOfOthers q (.closed :: w.map fun x => .dropped x.2) =
      toldOfAll q (.closed :: w.map fun x => .dropped x.2) := by
  rw [toldOfOthers_cons, toldOfAll_cons]
  refine congrArg _ ?_
  induction w with
  | nil => rfl
  | cons x w ih => simpa [Occurrence.told] using ih

theorem told_received_all (p : Place) (es : List Event) :
    toldOfOthers q (es.map (.received (shift q p))) = toldOfAll q (es.map (.received p)) := by
  induction es with
  | nil => rfl
  | cons e es ih => simp [Occurrence.told, ih]

variable {q} in
/-- Nothing is told of what the one more takes. -/
theorem told_received_own {p : Place} (hp : q = some p) (es : List Event) :
    toldOfOthers q (es.map (.received p)) = [] := by
  induction es with
  | nil => rfl
  | cons e es ih => simp [Occurrence.told, isOther, hp, ← ih]

end

namespace Hub

variable {q : Option Place} {h₁ h₂ h₁' h₂' : Hub}

/-- The queue at a place after an entry. -/
theorem queue_concat {h h' : Hub} {x : Queue} (hq : h'.queues = h.queues ++ [x]) (p : Place) :
    h'.queue p = if p = h.queues.length then x else h.queue p := by
  rcases Nat.lt_trichotomy p h.queues.length with hlt | rfl | hgt
  · rw [queue_append hq hlt, if_neg (Nat.ne_of_lt hlt)]
  · simp [Hub.queue, hq]
  · have hnone : h'.queues[p]? = none := List.getElem?_eq_none (by
      rw [hq, List.length_append, List.length_singleton]
      exact hgt)
    rw [if_neg (Nat.ne_of_gt hgt), Hub.queue, Hub.queue, hnone,
      List.getElem?_eq_none (Nat.le_of_lt hgt)]

/-! ## Hubs beside each other -/

/-- Broadcasts that differ in the subscriber at `q` only, which is not waited for. -/
inductive Alongside (q : Option Place) : Option Broadcast → Option Broadcast → Prop
  | none : Alongside q none none
  | some {e since ahead₁ ahead₂ failed₁ failed₂} :
      ahead₂.filter (isOther q) = ahead₁.map (shift q) →
      (failed₂.filter fun x => isOther q x.1) = (failed₁.map fun x => (shift q x.1, x.2)) →
      (since ≠ Option.none → ∀ p rest, ahead₂ = p :: rest → isOther q p = true) →
      Alongside q (some ⟨e, ahead₁, since, failed₁⟩) (some ⟨e, ahead₂, since, failed₂⟩)

/-- The second hub is as the first one, with one more subscriber, at `q`. -/
structure Beside (q : Option Place) (h₁ h₂ : Hub) : Prop where
  settings : h₂.settings = h₁.settings
  senders : h₂.senders = h₁.senders
  closing : h₂.closing = h₁.closing
  stage : h₂.stage = h₁.stage
  inbound : h₂.inbound = h₁.inbound
  waiting : h₂.waiting = h₁.waiting
  places : h₂.queues.length = shift q h₁.queues.length
  place : ∀ p, q = some p → p ≤ h₁.queues.length
  queue : ∀ p, h₂.queue (shift q p) = h₁.queue p
  members : h₂.members.filter (isOther q) = h₁.members.map (shift q)
  sending : Alongside q h₁.sending h₂.sending
  journal : toldOfOthers q h₂.journal = toldOfAll q h₁.journal

/-- Nobody has ever waited for the subscriber at `q`. -/
def NeverWaits (q : Option Place) (h : Hub) : Prop :=
  ∀ p, q = some p → ∀ o ∈ h.journal, o.awaited? ≠ some p

theorem NeverWaits.of_append {h h' : Hub} (hf : NeverWaits q h') (hj : h.journal <+: h'.journal) :
    NeverWaits q h := fun p hp o ho => hf p hp o (hj.subset ho)

namespace Beside

/-- Both hubs tell the same of the others, or the second one tells of `q`. -/
theorem append (hb : Beside q h₁ h₂) {k₁ k₂ : List Occurrence}
    (hk : toldOfOthers q k₂ = toldOfAll q k₁) :
    Beside q { h₁ with journal := h₁.journal ++ k₁ } { h₂ with journal := h₂.journal ++ k₂ } :=
  { hb with journal := by simp [hb.journal, hk] }

theorem note (hb : Beside q h₁ h₂) {o₁ o₂ : Occurrence}
    (ho : o₂.told (isOther q) id = o₁.told (fun _ => true) (shift q)) :
    Beside q (h₁.note o₁) (h₂.note o₂) :=
  hb.append (by simpa using ho)

theorem note_right (hb : Beside q h₁ h₂) {o : Occurrence} (ho : o.told (isOther q) id = []) :
    Beside q h₁ (h₂.note o) :=
  { hb with journal := by simp [Hub.note, hb.journal, ho] }

theorem setSending (hb : Beside q h₁ h₂) {x₁ x₂ : Option Broadcast} (hx : Alongside q x₁ x₂) :
    Beside q { h₁ with sending := x₁ } { h₂ with sending := x₂ } :=
  { hb with sending := hx }

theorem queue_lt (hb : Beside q h₁ h₂) {p : Place} :
    shift q p < h₂.queues.length ↔ p < h₁.queues.length := by
  rw [hb.places, shift_lt_shift]

theorem setQueue (hb : Beside q h₁ h₂) (p : Place) (x : Queue) :
    Beside q (h₁.setQueue p x) (h₂.setQueue (shift q p) x) := by
  refine { hb with places := ?_, place := ?_, queue := fun p' => ?_ }
  · simpa [Hub.setQueue] using hb.places
  · simpa [Hub.setQueue] using hb.place
  · by_cases hp : p' = p
    · subst hp
      by_cases hlt : p' < h₁.queues.length
      · rw [queue_setQueue_self hlt, queue_setQueue_self (hb.queue_lt.2 hlt)]
      · have hlt₂ := mt hb.queue_lt.1 hlt
        have hnone₁ : (h₁.setQueue p' x).queues[p']? = none :=
          List.getElem?_eq_none (by simpa [Hub.setQueue] using Nat.not_lt.1 hlt)
        have hnone₂ : (h₂.setQueue (shift q p') x).queues[shift q p']? = none :=
          List.getElem?_eq_none (by simpa [Hub.setQueue] using Nat.not_lt.1 hlt₂)
        rw [Hub.queue, Hub.queue, hnone₁, hnone₂]
    · rw [queue_setQueue_ne hp, queue_setQueue_ne (by simpa using hp)]
      exact hb.queue p'

theorem setQueue_right (hb : Beside q h₁ h₂) {p : Place} (hp : q = some p) (x : Queue) :
    Beside q h₁ (h₂.setQueue p x) := by
  refine { hb with places := ?_, queue := fun p' => ?_ }
  · simpa [Hub.setQueue] using hb.places
  · subst hp
    rw [queue_setQueue_ne (shift_ne p p')]
    exact hb.queue p'

/-! ## Broadcasts under way -/

theorem idle_iff (hb : Beside q h₁ h₂) : h₁.sending = none ↔ h₂.sending = none := by
  have hs := hb.sending
  generalize h₁.sending = x₁, h₂.sending = x₂ at hs
  cases hs <;> simp

/-- What is under way in the second hub is so in the first one. -/
theorem serving (hb : Beside q h₁ h₂) {b : Broadcast} (h2 : h₂.sending = some b) :
    ∃ ahead failed, h₁.sending = some { b with ahead, failed } ∧
      b.ahead.filter (isOther q) = ahead.map (shift q) ∧
      (b.failed.filter fun x => isOther q x.1) = (failed.map fun x => (shift q x.1, x.2)) ∧
      (b.since ≠ none → ∀ p rest, b.ahead = p :: rest → isOther q p = true) := by
  have hs := hb.sending
  rw [h2] at hs
  generalize h₁.sending = x₁ at hs ⊢
  cases hs with
  | some ha hf hn => exact ⟨_, _, rfl, ha, hf, hn⟩

/-- The subscriber at `q` is not waited for when it is being served. -/
theorem since_eq_none {b : Broadcast} {p : Place} {rest : List Place}
    (hn : b.since ≠ none → ∀ p rest, b.ahead = p :: rest → isOther q p = true)
    (ha : b.ahead = p :: rest) (hp : q = some p) : b.since = none := by
  by_contra hs
  have hother := hn hs p rest ha
  simp [isOther, hp] at hother

/-- The same of the others are left when the failed ones leave. -/
theorem members_evict (hb : Beside q h₁ h₂) {failed₁ failed₂ : List (Place × Eviction)}
    (hf : (failed₂.filter fun x => isOther q x.1) = (failed₁.map fun x => (shift q x.1, x.2))) :
    (h₂.members.filter fun p => !(failed₂.map Prod.fst).contains p).filter (isOther q) =
      (h₁.members.filter fun p => !(failed₁.map Prod.fst).contains p).map (shift q) := by
  have hcomm : ∀ l : List Place,
      (l.filter fun p => !(failed₂.map Prod.fst).contains p).filter (isOther q) =
        (l.filter (isOther q)).filter fun p => !(failed₂.map Prod.fst).contains p := by
    intro l
    rw [List.filter_filter, List.filter_filter]
    exact List.filter_congr fun p _ => Bool.and_comm _ _
  rw [hcomm, hb.members, List.filter_map]
  have hplaces : (failed₂.map Prod.fst).filter (isOther q) =
      (failed₁.map Prod.fst).map (shift q) := by
    have hfst := congrArg (List.map Prod.fst) hf
    rw [List.map_map] at hfst
    rw [List.filter_map, List.map_map]
    exact hfst
  refine congrArg (List.map (shift q)) (List.filter_congr fun p _ => ?_)
  have hp := shift_mem_iff (n := p) hplaces
  rw [← List.contains_iff_mem, ← List.contains_iff_mem, ← Bool.eq_iff_iff] at hp
  exact congrArg (!·) hp

/-- What is told of those who leave is told of the others one by one. -/
theorem told_evicted {failed₁ failed₂ : List (Place × Eviction)} (n₁ n₂ : Nat)
    (hf : (failed₂.filter fun x => isOther q x.1) = (failed₁.map fun x => (shift q x.1, x.2))) :
    (Occurrence.evicted failed₂ n₂).told (isOther q) id =
      (Occurrence.evicted failed₁ n₁).told (fun _ => true) (shift q) := by
  simp only [Occurrence.told, id_eq, hf, List.map_map, List.filter_true]
  rfl

/-! ## Dispatchers -/

/-- A delivery to the subscriber at `q` is made or given up. -/
theorem served_right (hb : Beside q h₁ h₂) {b : Broadcast} {p : Place} {rest : List Place}
    {failed : List (Place × Eviction)} (h2 : h₂.sending = some b) (ha : b.ahead = p :: rest)
    (hp : q = some p) (hf : (failed.filter fun x => isOther q x.1) =
      b.failed.filter fun x => isOther q x.1) :
    Beside q h₁ { h₂ with sending := some { b with ahead := rest, since := none, failed } } := by
  obtain ⟨ahead₁, failed₁, h1, hahead, hfailed, hn⟩ := hb.serving h2
  have hnone := since_eq_none hn ha hp
  have hrest : rest.filter (isOther q) = ahead₁.map (shift q) := by
    rw [← hahead, ha, List.filter_cons_of_neg (by simp [isOther, hp])]
  refine { hb with sending := ?_ }
  rw [h1, hnone]
  exact .some hrest (hf.trans hfailed) fun hne => absurd rfl hne

/-- A delivery to another subscriber is made or given up. -/
theorem served (hb : Beside q h₁ h₂) {e : Event} {ahead₁ ahead₂ : List Place}
    {failed₁ failed₂ : List (Place × Eviction)}
    (ha : ahead₂.filter (isOther q) = ahead₁.map (shift q))
    (hf : (failed₂.filter fun x => isOther q x.1) = (failed₁.map fun x => (shift q x.1, x.2))) :
    Beside q { h₁ with sending := some ⟨e, ahead₁, none, failed₁⟩ }
      { h₂ with sending := some ⟨e, ahead₂, none, failed₂⟩ } :=
  hb.setSending (.some ha hf fun hne => absurd rfl hne)

/-- Both hubs begin to broadcast an event. -/
theorem broadcast (hb : Beside q h₁ h₂) (e : Event) :
    Beside q (h₁.broadcast e) (h₂.broadcast e) :=
  (hb.setSending (.some hb.members rfl fun hne => absurd rfl hne)).note rfl

/-- A step of the second dispatcher is one of the first, or it has to do with the subscriber
    at `q` only. -/
theorem dispatched {now : Nat} {ts : List Ticket} (hb : Beside q h₁ h₂)
    (hd : Dispatched now h₂ h₂' ts) (hfree : NeverWaits q h₂') :
    ts = [] ∧ Beside q h₁ h₂' ∨ ∃ h₁', Dispatched now h₁ h₁' ts ∧ Beside q h₁' h₂' := by
  cases hd with
  | @finish b h2 ha hf =>
    obtain ⟨ahead₁, failed₁, h1, hahead, hfailed, -⟩ := hb.serving h2
    obtain rfl : ahead₁ = [] := by simpa [ha] using hahead
    obtain rfl : failed₁ = [] := by simpa [hf] using hfailed
    exact Or.inr ⟨_, .finish h1 rfl rfl, hb.setSending .none⟩
  | @evict b members h2 ha hf hm =>
    subst hm
    obtain ⟨ahead₁, failed₁, h1, hahead, hfailed, -⟩ := hb.serving h2
    obtain rfl : ahead₁ = [] := by simpa [ha] using hahead
    have hmembers := hb.members_evict hfailed
    by_cases hf₁ : failed₁ = []
    · -- the subscriber at `q` leaves alone
      subst hf₁
      refine Or.inr ⟨_, .finish h1 rfl rfl, ?_⟩
      have hsame : (h₁.members.filter fun p => !(([] : List (Place × Eviction)).map
          Prod.fst).contains p) = h₁.members := by simp
      rw [hsame] at hmembers
      refine note_right ?_ (told_evicted 0 _ hfailed)
      exact { hb.setSending .none with members := hmembers }
    · refine Or.inr ⟨_, .evict h1 rfl hf₁ rfl, note ?_ (told_evicted _ _ hfailed)⟩
      exact { hb.setSending .none with members := hmembers }
  | @gone b p rest h2 ha hh =>
    obtain ⟨ahead₁, failed₁, h1, hahead, hfailed, -⟩ := hb.serving h2
    rw [ha] at hahead
    rcases others_cons hahead with ⟨hp, -⟩ | ⟨p₁, rest₁, rfl, rfl, hrest⟩
    · refine Or.inl ⟨rfl, (hb.served_right h2 ha hp ?_).note_right ?_⟩
      · simp [isOther, hp]
      · simp [Occurrence.told, isOther, hp]
    · rw [hb.queue] at hh
      refine Or.inr ⟨_, .gone h1 rfl hh, (hb.served hrest ?_).note ?_⟩
      · simp [hfailed]
      · simp [Occurrence.told]
  | @overdue b p rest since h2 ha hh hl hsince ho =>
    obtain ⟨ahead₁, failed₁, h1, hahead, hfailed, hn⟩ := hb.serving h2
    rw [ha] at hahead
    rcases others_cons hahead with ⟨hp, -⟩ | ⟨p₁, rest₁, rfl, rfl, hrest⟩
    · cases (since_eq_none hn ha hp).symm.trans hsince
    · rw [hb.queue] at hh hl
      rw [hb.settings] at hl
      rw [isOverdue, hb.settings, ← isOverdue] at ho
      refine Or.inr ⟨_, .overdue h1 rfl hh hl hsince ho, (hb.served hrest ?_).note ?_⟩
      · simp [hfailed]
      · simp [Occurrence.told]
  | @deliver b p rest h2 ha hh hl =>
    obtain ⟨ahead₁, failed₁, h1, hahead, hfailed, -⟩ := hb.serving h2
    rw [ha] at hahead
    rcases others_cons hahead with ⟨hp, -⟩ | ⟨p₁, rest₁, rfl, rfl, hrest⟩
    · refine Or.inl ⟨rfl, ?_⟩
      have hqueue := hb.setQueue_right hp
        { h₂.queue p with events := (h₂.queue p).events ++ [b.event] }
      refine (hqueue.served_right h2 ha hp rfl).note_right ?_
      simp [Occurrence.told, isOther, hp]
    · rw [hb.queue] at hh hl
      rw [hb.settings] at hl
      refine Or.inr ⟨_, .deliver h1 rfl hh hl, ?_⟩
      unfold Hub.deliver
      rw [hb.queue]
      refine ((hb.setQueue p₁ _).served hrest hfailed).note ?_
      simp [Occurrence.told]
  | @await b p rest h2 ha hh hl hs =>
    obtain ⟨ahead₁, failed₁, h1, hahead, hfailed, -⟩ := hb.serving h2
    have hahead' := hahead
    rw [ha] at hahead'
    rcases others_cons hahead' with ⟨hp, -⟩ | ⟨p₁, rest₁, rfl, rfl, hrest⟩
    · -- this is the wait that there is none of
      exact absurd rfl (hfree p hp _ (List.mem_append_right _ (List.mem_singleton_self _)))
    · rw [hb.queue] at hh hl
      rw [hb.settings] at hl
      refine Or.inr ⟨_, .await h1 rfl hh hl hs, (hb.setSending (.some hahead hfailed ?_)).note ?_⟩
      · rintro - p rest hcons
        obtain ⟨rfl, -⟩ := List.cons.inj (ha.symm.trans hcons)
        exact isOther_shift q p₁
      · simp [Occurrence.told]
  | close h2 hst hc =>
    have htickets : h₂.closeInbound.2 = h₁.closeInbound.2 := congrArg (List.map Prod.fst) hb.waiting
    rw [hb.stage] at hst
    rw [hb.closing, hb.inbound, hb.senders, hb.waiting] at hc
    rw [htickets]
    refine Or.inr ⟨_, .close (hb.idle_iff.2 h2) hst hc, ?_⟩
    have hmoved : Beside q { h₁ with stage := .draining 0, waiting := [] }
        { h₂ with stage := .draining 0, waiting := [] } := { hb with stage := rfl, waiting := rfl }
    unfold closeInbound
    rw [hb.waiting]
    exact hmoved.append (told_closing q h₁.waiting)
  | @take e rest h2 hst hc hin hw =>
    rw [hb.stage] at hst
    rw [hb.closing] at hc
    rw [hb.inbound] at hin
    rw [hb.waiting] at hw
    refine Or.inr ⟨_, .take (hb.idle_iff.2 h2) hst hc hin hw, broadcast ?_ e⟩
    exact { hb with inbound := rfl }
  | @refill e rest t e' more h2 hst hc hin hw =>
    rw [hb.stage] at hst
    rw [hb.closing] at hc
    rw [hb.inbound] at hin
    rw [hb.waiting] at hw
    refine Or.inr ⟨_, .refill (hb.idle_iff.2 h2) hst hc hin hw, broadcast ?_ e⟩
    exact { hb with inbound := rfl, waiting := rfl }
  | @drain e rest n h2 hst hin =>
    rw [hb.stage] at hst
    rw [hb.inbound] at hin
    refine Or.inr ⟨_, .drain (hb.idle_iff.2 h2) hst hin, broadcast ?_ e⟩
    exact { hb with inbound := rfl, stage := rfl }
  | @stop n h2 hst hin =>
    rw [hb.stage] at hst
    rw [hb.inbound] at hin
    refine Or.inr ⟨_, .stop (hb.idle_iff.2 h2) hst hin, note ?_ rfl⟩
    exact { hb with stage := rfl, members := rfl }

/-- Where the second dispatcher can only wait, so can the first. -/
theorem step?_eq_none {now : Nat} (hb : Beside q h₁ h₂) (hs : h₂.step? now = none) :
    h₁.step? now = none := by
  rcases step?_eq_none_iff.1 hs with
    ⟨b, p, rest, since, h2, ha, hsince, hh, hl, ho⟩ | ⟨h2, hst, hc, hin, hw⟩ | ⟨h2, hst⟩
  · obtain ⟨ahead₁, failed₁, h1, hahead, -, hn⟩ := hb.serving h2
    rw [ha] at hahead
    rcases others_cons hahead with ⟨hp, -⟩ | ⟨p₁, rest₁, rfl, rfl, -⟩
    · cases (since_eq_none hn ha hp).symm.trans hsince
    · rw [hb.queue] at hh hl
      rw [hb.settings] at hl
      rw [isOverdue, hb.settings, ← isOverdue] at ho
      exact step?_eq_none_iff.2 (Or.inl ⟨_, p₁, rest₁, since, h1, rfl, hsince, hh, hl, ho⟩)
  · rw [hb.stage] at hst
    rw [hb.closing] at hc
    rw [hb.inbound] at hin
    rw [hb.senders, hb.waiting] at hw
    exact step?_eq_none_iff.2 (Or.inr (Or.inl ⟨hb.idle_iff.2 h2, hst, hc, hin, hw⟩))
  · rw [hb.stage] at hst
    exact step?_eq_none_iff.2 (Or.inr (Or.inr ⟨hb.idle_iff.2 h2, hst⟩))

/-- Both dispatchers work until they can only wait, where nobody waits for the subscriber at
    `q`. The steps that the second one takes for that subscriber are on its side only. -/
theorem run {now n₁ n₂ : Nat} (hb : Beside q h₁ h₂) (hn₁ : h₁.work ≤ n₁) (hn₂ : h₂.work ≤ n₂)
    (hfree : NeverWaits q (h₂.run now n₂).1) :
    Beside q (h₁.run now n₁).1 (h₂.run now n₂).1 ∧ (h₂.run now n₂).2 = (h₁.run now n₁).2 := by
  induction n₂ generalizing h₁ h₂ n₁ with
  | zero =>
    have hnone : h₂.step? now = none := by
      by_contra hs
      obtain ⟨r, hr⟩ := Option.ne_none_iff_exists'.1 hs
      have := work_lt_of_step? hr
      omega
    rw [run_of_none (hb.step?_eq_none hnone) n₁, run_of_none hnone 0]
    exact ⟨hb, rfl⟩
  | succ n₂ ih =>
    cases hs : h₂.step? now with
    | none =>
      rw [run_of_none (hb.step?_eq_none hs) n₁, run_of_none hs]
      exact ⟨hb, rfl⟩
    | some r =>
      obtain ⟨h₂', ts⟩ := r
      have hlt₂ : h₂'.work < h₂.work := work_lt_of_step? hs
      rw [run_of_some hs] at hfree ⊢
      have hdone : NeverWaits q h₂' := hfree.of_append (run_journal now n₂ h₂')
      rcases hb.dispatched (step?_eq_some_iff.1 hs) hdone with ⟨rfl, hb'⟩ | ⟨h₁', hd₁, hb'⟩
      · exact ih hb' hn₁ (by omega) hfree
      · have hs₁ := step?_eq_some_iff.2 hd₁
        have hlt₁ : h₁'.work < h₁.work := work_lt_of_step? hs₁
        obtain ⟨m, rfl⟩ := Nat.exists_eq_succ_of_ne_zero (n := n₁) (by omega)
        rw [run_of_some hs₁]
        have hn₁' : h₁'.work ≤ m := by omega
        obtain ⟨hb'', hts⟩ := ih hb' hn₁' (by omega) hfree
        exact ⟨hb'', congrArg (ts ++ ·) hts⟩

theorem settle {now : Nat} (hb : Beside q h₁ h₂) (hfree : NeverWaits q (h₂.settle now).1) :
    Beside q (h₁.settle now).1 (h₂.settle now).1 ∧ (h₂.settle now).2 = (h₁.settle now).2 :=
  hb.run (Nat.le_refl _) (Nat.le_refl _) hfree

/-! ## Senders -/

theorem emit (hb : Beside q h₁ h₂) (t : Ticket) (e : Event) :
    Beside q (h₁.emit t e).1 (h₂.emit t e).1 ∧ (h₂.emit t e).2 = (h₁.emit t e).2 := by
  have hnoted : Beside q (h₁.note (.emitted e)) (h₂.note (.emitted e)) := hb.note rfl
  unfold Hub.emit
  simp only [hnoted.stage, hnoted.waiting, hnoted.inbound, hnoted.settings]
  split
  · split
    · exact ⟨{ hnoted with settings := rfl, stage := rfl, inbound := rfl, waiting := rfl }, rfl⟩
    · exact ⟨{ hnoted with settings := rfl, stage := rfl, inbound := rfl, waiting := rfl }, rfl⟩
  · exact ⟨hnoted.note rfl, rfl⟩

theorem requestClose (hb : Beside q h₁ h₂) : Beside q h₁.requestClose h₂.requestClose :=
  { hb with closing := rfl }

theorem dropSender (hb : Beside q h₁ h₂) : Beside q h₁.dropSender h₂.dropSender :=
  { hb with senders := congrArg (· - 1) hb.senders }

/-! ## Subscribers -/

theorem isStopped_eq (hb : Beside q h₁ h₂) : h₂.isStopped = h₁.isStopped := by
  rw [isStopped, hb.stage, ← isStopped]

theorem deadline?_eq (hb : Beside q h₁ h₂) : h₂.deadline? = h₁.deadline? := by
  cases h2 : h₂.sending with
  | none => simp [deadline?, h2, hb.idle_iff.2 h2]
  | some b =>
    obtain ⟨ahead₁, failed₁, h1, -⟩ := hb.serving h2
    simp [deadline?, h2, h1, hb.settings]

/-- What may still come is the same for both. -/
theorem feedsPlace_eq (hb : Beside q h₁ h₂) (p : Place) :
    h₂.feedsPlace (shift q p) = h₁.feedsPlace p := by
  have hahead : shift q p ∈ h₂.ahead ↔ p ∈ h₁.ahead := by
    cases h2 : h₂.sending with
    | none => simp [ahead, h2, hb.idle_iff.2 h2]
    | some b =>
      obtain ⟨ahead₁, failed₁, h1, hahead, -⟩ := hb.serving h2
      simpa [ahead, h2, h1] using shift_mem_iff hahead
  rw [Bool.eq_iff_iff, feedsPlace, feedsPlace, Bool.or_eq_true, Bool.or_eq_true,
    List.contains_iff_mem, List.contains_iff_mem, List.contains_iff_mem, List.contains_iff_mem,
    shift_mem_iff hb.members, hahead]

theorem hasNews_eq (hb : Beside q h₁ h₂) (p : Place) :
    h₂.hasNews (shift q p) = h₁.hasNews p := by
  rw [hasNews, hasNews, hb.queue, hb.feedsPlace_eq]

theorem upcoming_eq (hb : Beside q h₁ h₂) (p : Place) :
    h₂.upcoming (shift q p) = h₁.upcoming p := by
  rw [upcoming, upcoming, hb.queue, hb.inbound, hb.waiting]

theorem detach (hb : Beside q h₁ h₂) (p : Place) :
    Beside q (h₁.detach p) (h₂.detach (shift q p)) :=
  (hb.setQueue p _).note (by simp [Occurrence.told])

theorem detach_right (hb : Beside q h₁ h₂) {p : Place} (hp : q = some p) :
    Beside q h₁ (h₂.detach p) :=
  (hb.setQueue_right hp _).note_right (by simp [Occurrence.told, isOther, hp])

theorem receive (hb : Beside q h₁ h₂) (p : Place) :
    Beside q (h₁.receive p).1 (h₂.receive (shift q p)).1 ∧
      (h₂.receive (shift q p)).2 = (h₁.receive p).2 := by
  unfold Hub.receive
  rw [hb.queue, hb.feedsPlace_eq]
  split
  · exact ⟨(hb.setQueue p _).note (by simp [Occurrence.told]), rfl⟩
  · exact ⟨hb, rfl⟩

theorem receive_right (hb : Beside q h₁ h₂) {p : Place} (hp : q = some p) :
    Beside q h₁ (h₂.receive p).1 := by
  unfold Hub.receive
  split
  · exact (hb.setQueue_right hp _).note_right (by simp [Occurrence.told, isOther, hp])
  · exact hb

theorem receiveAll (hb : Beside q h₁ h₂) (p : Place) :
    Beside q (h₁.receiveAll p).1 (h₂.receiveAll (shift q p)).1 ∧
      (h₂.receiveAll (shift q p)).2 = (h₁.receiveAll p).2 := by
  unfold Hub.receiveAll
  rw [hb.queue]
  exact ⟨(hb.setQueue p _).append (told_received_all q p _), rfl⟩

theorem receiveAll_right (hb : Beside q h₁ h₂) {p : Place} (hp : q = some p) :
    Beside q h₁ (h₂.receiveAll p).1 := by
  have hb' := hb.setQueue_right hp { h₂.queue p with events := [] }
  refine { hb' with journal := ?_ }
  show toldOfOthers q (h₂.journal ++ (h₂.queue p).events.map (.received p)) = _
  rw [toldOfOthers_append, told_received_own hp, List.append_nil]
  exact hb.journal

theorem attach_error_iff (hb : Beside q h₁ h₂) {f : Failure} :
    h₂.attach = .error f ↔ h₁.attach = .error f := by
  unfold Hub.attach
  rw [hb.settings, hb.isStopped_eq]
  split
  · rfl
  · split
    · rfl
    · simp only [reduceCtorEq]

/-- Whoever attaches to both hubs is entered in both. -/
theorem attach_ok (hb : Beside q h₁ h₂) {p : Place} (hat : h₁.attach = .ok (h₁', p)) :
    ∃ h₂', h₂.attach = .ok (h₂', shift q p) ∧ Beside q h₁' h₂' := by
  cases hat₂ : h₂.attach with
  | error f => cases (hb.attach_error_iff.1 hat₂).symm.trans hat
  | ok r =>
  obtain ⟨h₂', p₂⟩ := r
  obtain ⟨-, rfl, rfl⟩ := attach_eq_ok hat
  obtain ⟨-, rfl, rfl⟩ := attach_eq_ok hat₂
  rw [← hb.places]
  refine ⟨_, rfl, note ?_ (by simp [Occurrence.told, hb.places])⟩
  refine { hb with places := ?_, place := ?_, queue := fun p => ?_, members := ?_ }
  · simp [hb.places, shift_succ hb.place]
  · exact fun p hp => Nat.le_trans (hb.place p hp) (by simp)
  · refine (queue_concat (h := h₂) rfl (shift q p)).trans ?_
    rw [hb.places, hb.queue]
    simp only [shift_inj]
    exact (queue_concat (h := h₁) rfl p).symm
  · simp [hb.members, hb.places]

end Beside

/-! ## A subscriber more -/

/-- A hub is beside itself as long as nobody more has attached. -/
theorem Beside.refl (h : Hub) : Beside none h h := by
  have hkeep : isOther none = fun _ => true := rfl
  have hplace : shift none = id := rfl
  refine ⟨rfl, rfl, rfl, rfl, rfl, rfl, rfl, by simp, fun _ => rfl, ?_, ?_, ?_⟩
  · simp [hkeep, hplace]
  · cases h.sending with
    | none => exact .none
    | some b => exact .some (by simp [hkeep, hplace]) (by simp [hkeep, hplace]) fun _ _ _ _ => rfl
  · rw [toldOfOthers, toldOfAll, hkeep, hplace]

theorem Arises.recorded (ha : Arises h₁) : Recorded h₁ := by
  obtain ⟨feed, settings, senders, h₀, ms, ts, h0, hr⟩ := ha
  exact recorded_follow (Roster.start h0) (Recorded.start h0) hr

/-- Nobody is taken out who was never entered. -/
theorem Arises.evictions_below (ha : Arises h₁) {o : Occurrence} (ho : o ∈ h₁.journal) :
    ∀ x ∈ o.evictions, x.1 < h₁.queues.length := by
  intro x hx
  have hrecorded := ha.recorded
  have hevicted : x ∈ (registerOf h₁.journal).evicted := by
    rw [registerOf_evicted]
    exact List.mem_flatMap.2 ⟨o, ho, hx⟩
  refine List.mem_range.1 (hrecorded.places.subset ?_)
  exact List.mem_append_left _ (List.mem_append_right _ (List.mem_map_of_mem hevicted))

/-- What is told only of those before a place is told alike whether there is one more at it. -/
theorem told_of_below {n : Nat} {o : Occurrence} (ho : ∀ p, o.place? = some p → p < n)
    (hgone : ∀ x ∈ o.evictions, x.1 < n) :
    o.told (isOther (some n)) id = o.told (fun _ => true) (shift (some n)) := by
  cases o with
  | attached p | waited p | delivered p | failed p | received p | detached p =>
    have hp : p < n := ho p rfl
    simp [Occurrence.told, isOther_of_lt hp, shift_of_lt hp]
  | evicted gone m =>
    have hall : (gone.filter fun x => isOther (some n) x.1) =
        gone.map fun x => (shift (some n) x.1, x.2) :=
      filter_eq_map fun x hx =>
        ⟨isOther_of_lt (hgone x hx), by rw [shift_of_lt (hgone x hx)]⟩
    exact Beside.told_evicted m m hall
  | _ => rfl

/-- Who attaches to a hub makes it one with a subscriber more. -/
theorem Arises.beside (ha : h₁.Arises) {p : Place} (hat : h₁.attach = .ok (h₂, p)) :
    Beside (some p) h₁ h₂ := by
  obtain ⟨-, rfl, rfl⟩ := attach_eq_ok hat
  have hroster := ha.roster
  have hall : ∀ l : List Place, (∀ p ∈ l, p < h₁.queues.length) →
      l.filter (isOther (some h₁.queues.length)) = l.map (shift (some h₁.queues.length)) :=
    fun l hl => filter_eq_map fun p hp => ⟨isOther_of_lt (hl p hp), shift_of_lt (hl p hp)⟩
  have hentered : Beside (some h₁.queues.length) h₁
      { h₁ with
        queues := h₁.queues ++ [Queue.mk [] true]
        members := h₁.members ++ [h₁.queues.length] } := by
    refine ⟨rfl, rfl, rfl, rfl, rfl, rfl, ?_, ?_, fun p => ?_, ?_, ?_, ?_⟩
    · simp [shift]
    · rintro p ⟨⟩
      exact Nat.le_refl _
    · refine (queue_concat (h := h₁) rfl _).trans ?_
      rw [if_neg (shift_ne _ p)]
      by_cases hp : p < h₁.queues.length
      · rw [shift_of_lt hp]
      · have hge := Nat.not_lt.1 hp
        rw [shift, if_neg hp, Hub.queue, Hub.queue, List.getElem?_eq_none hge,
          List.getElem?_eq_none (Nat.le_succ_of_le hge)]
    · rw [List.filter_append, hall _ hroster.below]
      simp [isOther]
    · cases hs : h₁.sending with
      | none => exact .none
      | some b =>
        have hbelow : ∀ p ∈ b.ahead, p < h₁.queues.length := fun p hp =>
          hroster.below p ((hroster.ahead b hs).2 p hp).1
        refine .some (hall _ hbelow) (filter_eq_map fun x hx => ?_) fun _ p rest hcons => ?_
        · obtain ⟨reason, time, ho⟩ := hroster.failed b hs x.1 (List.mem_map_of_mem hx)
          have hlt : x.1 < h₁.queues.length := hroster.known _ ho _ rfl
          exact ⟨isOther_of_lt hlt, by rw [shift_of_lt hlt]⟩
        · exact isOther_of_lt (hbelow p (hcons ▸ List.mem_cons_self))
    · exact List.flatMap_congr fun o ho =>
        told_of_below (hroster.known o ho) (ha.evictions_below ho)
  exact hentered.note_right (by simp [Occurrence.told, isOther])

end Hub

end CallFeed

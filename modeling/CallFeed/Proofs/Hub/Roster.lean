/-
  CallFeed — who is in the set of subscribers.

  * `Roster`: the members are, in the order of their places, those that ever attached,
    less those to which a delivery has failed in a broadcast that is over; and the
    subscribers that a broadcast has still ahead are members to which no delivery has
    failed;
  * `Roster.moved`: every move keeps it, hence it holds along every run (`roster_follow`).
-/
import CallFeed.Proofs.Hub.History

namespace CallFeed

namespace Hub

theorem lt_of_held {h : Hub} {p : Place} (hh : (h.queue p).held = true) : p < h.queues.length := by
  by_contra hp
  simp [queue, List.getElem?_eq_none (Nat.not_lt.1 hp)] at hh

/-- Of the places there are after an entry all but the last were there before. -/
theorem lt_or_eq_of_entered {h h' : Hub} {x : Queue} (hq : h'.queues = h.queues ++ [x]) {p : Place}
    (hp : p < h'.queues.length) : p < h.queues.length ∨ p = h.queues.length := by
  rw [hq, List.length_append, List.length_singleton] at hp
  exact Nat.lt_or_eq_of_le (Nat.le_of_lt_succ hp)

/-- The set of subscribers, beside what the journal tells. -/
structure Roster (h : Hub) : Prop where
  known : ∀ o ∈ h.journal, ∀ p, o.place? = some p → p < h.queues.length
  entered : ∀ p < h.queues.length, ∃ o ∈ h.journal, o.enters p = true
  below : ∀ p ∈ h.members, p < h.queues.length
  sorted : h.members.Pairwise (· < ·)
  ahead : ∀ b, h.sending = some b →
    b.ahead.Nodup ∧ ∀ p ∈ b.ahead, p ∈ h.members ∧ ¬ FailsIn p h.journal
  failed : ∀ b, h.sending = some b → ∀ p ∈ b.failed.map Prod.fst, FailsIn p h.journal
  stays : ∀ p < h.queues.length, h.stage ≠ .stopped → ¬ FailsIn p h.journal → p ∈ h.members
  leaves : ∀ p ∈ h.members, FailsIn p h.journal →
    ∃ b, h.sending = some b ∧ p ∈ b.failed.map Prod.fst
  ended : h.stage = .stopped → h.members = [] ∧ h.sending = none

namespace Roster
variable {h h' : Hub} {k : List Occurrence}

/-- Nothing has been told of the place at which the next subscriber is entered. -/
theorem fresh (hr : Roster h) :
    pushedTo h.queues.length h.journal = [] ∧ receivedFrom h.queues.length h.journal = [] ∧
      ¬ FailsIn h.queues.length h.journal ∧ .detached h.queues.length ∉ h.journal ∧
      ∀ o ∈ h.journal, o.enters h.queues.length = false :=
  readings_eq_nil fun o ho hp => Nat.lt_irrefl _ (hr.known o ho _ hp)

theorem start {feed : Feed} {settings : Settings} {senders : Nat}
    (h0 : start? feed settings senders = some h) : Roster h := by
  obtain ⟨-, rfl⟩ := start?_eq_some h0
  exact ⟨by simp [Occurrence.place?], by simp, by simp, .nil, by simp, by simp, by simp, by simp,
    by simp⟩

/-- The roster of a hub that has neither members nor failures other than before. -/
theorem frame (hr : Roster h) (hlen : h'.queues.length = h.queues.length)
    (hmem : h'.members = h.members) (hstage : h'.stage = .stopped ↔ h.stage = .stopped)
    (hnone : h.sending = none → h'.sending = none)
    (hsome : ∀ b, h.sending = some b →
      ∃ b', h'.sending = some b' ∧ b'.ahead <:+ b.ahead ∧ b'.failed = b.failed)
    (hj : h'.journal = h.journal ++ k)
    (hnew : ∀ o ∈ k, ∀ p, o.place? = some p → p < h.queues.length)
    (hfail : ∀ p, ¬ FailsIn p k) : Roster h' := by
  have hfails : ∀ p, FailsIn p h'.journal ↔ FailsIn p h.journal := fun p => by
    rw [hj, failsIn_append]
    exact or_iff_left (hfail p)
  have hback : ∀ b', h'.sending = some b' →
      ∃ b, h.sending = some b ∧ b'.ahead <:+ b.ahead ∧ b'.failed = b.failed := by
    intro b' hb'
    cases hb : h.sending with
    | none => cases hb'.symm.trans (hnone hb)
    | some b =>
      obtain ⟨c, hc, h1, h2⟩ := hsome b hb
      obtain rfl := Option.some.inj (hb'.symm.trans hc)
      exact ⟨b, rfl, h1, h2⟩
  refine ⟨?_, ?_, ?_, ?_, ?_, ?_, ?_, ?_, ?_⟩
  · intro o ho p hp
    rw [hlen]
    rcases List.mem_append.1 (hj ▸ ho) with ho | ho
    · exact hr.known o ho p hp
    · exact hnew o ho p hp
  · intro p hp
    obtain ⟨o, ho, he⟩ := hr.entered p (hlen ▸ hp)
    exact ⟨o, hj ▸ List.mem_append_left _ ho, he⟩
  · rw [hmem, hlen]
    exact hr.below
  · rw [hmem]
    exact hr.sorted
  · intro b' hb'
    obtain ⟨b, hb, hsuf, -⟩ := hback b' hb'
    obtain ⟨hnd, hall⟩ := hr.ahead b hb
    refine ⟨hnd.sublist hsuf.sublist, fun p hp => ?_⟩
    rw [hmem, hfails]
    exact hall p (hsuf.subset hp)
  · intro b' hb' p hp
    obtain ⟨b, hb, -, hf⟩ := hback b' hb'
    rw [hfails]
    exact hr.failed b hb p (hf ▸ hp)
  · intro p hp hs hf
    rw [hmem]
    exact hr.stays p (hlen ▸ hp) (fun he => hs (hstage.2 he)) fun he => hf ((hfails p).2 he)
  · intro p hp hf
    obtain ⟨b, hb, hpf⟩ := hr.leaves p (hmem ▸ hp) ((hfails p).1 hf)
    obtain ⟨b', hb', -, he⟩ := hsome b hb
    exact ⟨b', hb', he ▸ hpf⟩
  · intro hs
    obtain ⟨h1, h2⟩ := hr.ended (hstage.1 hs)
    exact ⟨hmem.trans h1, hnone h2⟩

/-- Entering a subscriber. -/
theorem attach (hr : Roster h) (hst : h.stage ≠ .stopped) (n : Nat) :
    Roster ({ h with
      queues := h.queues ++ [Queue.mk [] true], members := h.members ++ [h.queues.length] }.note
        (.attached h.queues.length n)) where
  known := by
    intro o ho p hp
    simp only [note, List.length_append, List.length_singleton]
    rcases List.mem_append.1 ho with ho | ho
    · exact Nat.lt_succ_of_lt (hr.known o ho p hp)
    · obtain rfl := List.mem_singleton.1 ho
      obtain rfl := Option.some.inj hp
      exact Nat.lt_succ_self _
  entered := by
    intro p hp
    rcases lt_or_eq_of_entered (h := h) rfl hp with hp | rfl
    · obtain ⟨o, ho, he⟩ := hr.entered p hp
      exact ⟨o, List.mem_append_left _ ho, he⟩
    · exact ⟨_, List.mem_append_right _ (List.mem_singleton_self _), by simp [Occurrence.enters]⟩
  below := by
    intro p hp
    simp only [note, List.length_append, List.length_singleton]
    rcases List.mem_append.1 hp with hp | hp
    · exact Nat.lt_succ_of_lt (hr.below p hp)
    · exact List.mem_singleton.1 hp ▸ Nat.lt_succ_self _
  sorted := List.pairwise_append.2 ⟨hr.sorted, List.pairwise_singleton _ _,
    fun p hp q hq => List.mem_singleton.1 hq ▸ hr.below p hp⟩
  ahead := by
    intro b hb
    obtain ⟨hnd, hall⟩ := hr.ahead b hb
    refine ⟨hnd, fun p hp => ⟨List.mem_append_left _ (hall p hp).1, ?_⟩⟩
    simpa [note] using (hall p hp).2
  failed := fun b hb p hp => failsIn_append.2 (Or.inl (hr.failed b hb p hp))
  stays := by
    intro p hp hs hf
    rcases lt_or_eq_of_entered (h := h) rfl hp with hp | rfl
    · exact List.mem_append_left _ (hr.stays p hp hst fun he => hf (failsIn_append.2 (Or.inl he)))
    · exact List.mem_append_right _ (List.mem_singleton_self _)
  leaves := by
    intro p hp hf
    have hf : FailsIn p h.journal := by simpa [note] using hf
    obtain ⟨_, _, hof⟩ := hf
    have hlt := hr.known _ hof p rfl
    rcases List.mem_append.1 hp with hp | hp
    · exact hr.leaves p hp ⟨_, _, hof⟩
    · exact absurd (List.mem_singleton.1 hp) (Nat.ne_of_lt hlt)
  ended := fun hs => absurd hs hst

/-- Beginning a broadcast: `g` is the hub that has taken the event off its queue. -/
theorem broadcast {g : Hub} (hr : Roster h) (e : Event) (hb : h.sending = none)
    (hq : g.queues = h.queues) (hm : g.members = h.members) (hj : g.journal = h.journal)
    (hst : h.stage ≠ .stopped) (hst' : g.stage ≠ .stopped) : Roster (g.broadcast e) := by
  have hfails : ∀ p, FailsIn p (g.broadcast e).journal ↔ FailsIn p h.journal := by
    intro p
    simp [Hub.broadcast, note, hj]
  have hfree : ∀ p ∈ h.members, ¬ FailsIn p h.journal := by
    intro p hp hf
    obtain ⟨b, hb', -⟩ := hr.leaves p hp hf
    cases hb.symm.trans hb'
  refine ⟨?_, ?_, ?_, ?_, ?_, ?_, ?_, ?_, fun hs => absurd hs hst'⟩
  · intro o ho p hp
    show p < g.queues.length
    rw [hq]
    rcases List.mem_append.1 ho with ho | ho
    · exact hr.known o (hj ▸ ho) p hp
    · rw [List.mem_singleton.1 ho] at hp
      cases hp
  · intro p hp
    obtain ⟨o, ho, he⟩ := hr.entered p (by rw [← hq]; exact hp)
    exact ⟨o, List.mem_append_left _ (hj ▸ ho), he⟩
  · intro p hp
    show p < g.queues.length
    rw [hq]
    exact hr.below p (hm ▸ hp)
  · show g.members.Pairwise (· < ·)
    rw [hm]
    exact hr.sorted
  · intro b hb'
    cases hb'
    refine ⟨?_, fun p hp => ?_⟩
    · show g.members.Nodup
      rw [hm]
      exact hr.sorted.imp Nat.ne_of_lt
    · rw [hfails]
      exact ⟨hp, hfree p (hm ▸ hp)⟩
  · intro b hb' p hp
    cases hb'
    cases hp
  · intro p hp _ hf
    show p ∈ g.members
    rw [hm]
    exact hr.stays p (by rw [← hq]; exact hp) hst fun he => hf ((hfails p).2 he)
  · intro p hp hf
    exact absurd ((hfails p).1 hf) (hfree p (hm ▸ hp))

/-- Giving up a delivery. -/
theorem fail (hr : Roster h) {b : Broadcast} {p : Place} {rest : List Place}
    (hb : h.sending = some b) (ha : b.ahead = p :: rest) (now : Nat) (reason : Eviction) :
    Roster (h.fail now b p rest reason) := by
  obtain ⟨hnd, hall⟩ := hr.ahead b hb
  rw [ha] at hnd hall
  obtain ⟨hp, hnd⟩ := List.nodup_cons.1 hnd
  have hfails : ∀ q, FailsIn q (h.fail now b p rest reason).journal ↔
      FailsIn q h.journal ∨ q = p := by
    intro q
    simp [Hub.fail, note, eq_comm]
  refine ⟨?_, ?_, hr.below, hr.sorted, ?_, ?_, ?_, ?_, ?_⟩
  · intro o ho q hq
    rcases List.mem_append.1 ho with ho | ho
    · exact hr.known o ho q hq
    · obtain rfl := List.mem_singleton.1 ho
      obtain rfl := Option.some.inj hq
      exact hr.below _ (hall _ List.mem_cons_self).1
  · intro q hq
    obtain ⟨o, ho, he⟩ := hr.entered q hq
    exact ⟨o, List.mem_append_left _ ho, he⟩
  · intro c hc
    cases hc
    refine ⟨hnd, fun q hq => ⟨(hall q (List.mem_cons_of_mem _ hq)).1, ?_⟩⟩
    rw [hfails]
    rintro (hf | rfl)
    · exact (hall q (List.mem_cons_of_mem _ hq)).2 hf
    · exact hp hq
  · intro c hc q hq
    cases hc
    rw [hfails]
    simp only [List.map_append, List.map_cons, List.map_nil, List.mem_append,
      List.mem_singleton] at hq
    exact hq.imp (hr.failed b hb q) id
  · intro q hq hs hf
    exact hr.stays q hq hs fun he => hf ((hfails q).2 (Or.inl he))
  · intro q hq hf
    refine ⟨_, rfl, ?_⟩
    simp only [List.map_append, List.map_cons, List.map_nil, List.mem_append, List.mem_singleton]
    rcases (hfails q).1 hf with hf | rfl
    · obtain ⟨c, hc, hqf⟩ := hr.leaves q hq hf
      obtain rfl := Option.some.inj (hb.symm.trans hc)
      exact Or.inl hqf
    · exact Or.inr rfl
  · intro hs
    cases (hr.ended hs).2.symm.trans hb

/-- Ending a broadcast: those to which a delivery has failed in it leave. -/
theorem evict (hr : Roster h) {b : Broadcast} (hb : h.sending = some b) (n : Nat) :
    Roster ({ h with
      sending := none
      members := h.members.filter fun p => !(b.failed.map Prod.fst).contains p }.note
        (.evicted b.failed n)) := by
  have hfails : ∀ q, FailsIn q (h.journal ++ [.evicted b.failed n]) ↔ FailsIn q h.journal := by
    intro q
    simp
  have hmem : ∀ q, (q ∈ h.members.filter fun p => !(b.failed.map Prod.fst).contains p) ↔
      q ∈ h.members ∧ q ∉ b.failed.map Prod.fst := by
    intro q
    rw [List.mem_filter, Bool.not_eq_true', ← Bool.not_eq_true, List.contains_iff_mem]
  refine ⟨?_, ?_, ?_, hr.sorted.filter _, by rintro c ⟨⟩, by rintro c ⟨⟩, ?_, ?_, ?_⟩
  · intro o ho q hq
    rcases List.mem_append.1 ho with ho | ho
    · exact hr.known o ho q hq
    · rw [List.mem_singleton.1 ho] at hq
      cases hq
  · intro q hq
    obtain ⟨o, ho, he⟩ := hr.entered q hq
    exact ⟨o, List.mem_append_left _ ho, he⟩
  · exact fun q hq => hr.below q ((hmem q).1 hq).1
  · intro q hq hs hf
    have hf' : ¬ FailsIn q h.journal := fun he => hf ((hfails q).2 he)
    exact (hmem q).2 ⟨hr.stays q hq hs hf', fun he => hf' (hr.failed b hb q he)⟩
  · intro q hq hf
    obtain ⟨hq, hqf⟩ := (hmem q).1 hq
    obtain ⟨c, hc, he⟩ := hr.leaves q hq ((hfails q).1 hf)
    obtain rfl := Option.some.inj (hb.symm.trans hc)
    exact absurd he hqf
  · intro hs
    cases (hr.ended hs).2.symm.trans hb

theorem stop (hr : Roster h) (hb : h.sending = none) (n : Nat) : Roster (h.stop n) where
  known := by
    intro o ho p hp
    rcases List.mem_append.1 ho with ho | ho
    · exact hr.known o ho p hp
    · rw [List.mem_singleton.1 ho] at hp
      cases hp
  entered := by
    intro p hp
    obtain ⟨o, ho, he⟩ := hr.entered p hp
    exact ⟨o, List.mem_append_left _ ho, he⟩
  below := by rintro p ⟨⟩
  sorted := .nil
  ahead := fun b hb' => by cases hb.symm.trans hb'
  failed := fun b hb' => by cases hb.symm.trans hb'
  stays := fun p _ hs => absurd rfl hs
  leaves := by rintro p ⟨⟩
  ended := fun _ => ⟨rfl, hb⟩

theorem dispatched {now : Nat} {ts : List Ticket} (hr : Roster h)
    (hd : Dispatched now h h' ts) : Roster h' := by
  cases hd with
  | @finish b hb ha hf =>
    refine ⟨hr.known, hr.entered, hr.below, hr.sorted, by rintro c ⟨⟩, by rintro c ⟨⟩, hr.stays, ?_,
      fun hs => ⟨(hr.ended hs).1, rfl⟩⟩
    intro p hp hfp
    obtain ⟨c, hc, he⟩ := hr.leaves p hp hfp
    obtain rfl := Option.some.inj (hb.symm.trans hc)
    rw [hf] at he
    cases he
  | evict hb ha hf hm => exact hm ▸ hr.evict hb _
  | gone hb ha => exact hr.fail hb ha now .closed
  | overdue hb ha => exact hr.fail hb ha now .timeout
  | @deliver b p rest hb ha hh hl =>
    refine hr.frame (k := [.delivered p b.event]) (by simp [Hub.deliver, setQueue, note]) rfl
      Iff.rfl (fun hn => by cases hb.symm.trans hn) (fun c hc => ?_) rfl ?_ (by simp)
    · obtain rfl := Option.some.inj (hb.symm.trans hc)
      exact ⟨_, rfl, ha ▸ List.suffix_cons _ _, rfl⟩
    · simpa [Occurrence.place?] using lt_of_held hh
  | @await b p rest hb ha hh hl hs =>
    refine hr.frame (k := [.waited p now]) rfl rfl
      Iff.rfl (fun hn => by cases hb.symm.trans hn) (fun c hc => ?_) rfl ?_ (by simp)
    · obtain rfl := Option.some.inj (hb.symm.trans hc)
      exact ⟨_, rfl, List.suffix_refl _, rfl⟩
    · simpa [Occurrence.place?] using lt_of_held hh
  | close hb hst =>
    refine hr.frame rfl rfl (by simp [closeInbound, hst]) id (fun b hb => ⟨b, hb,
      List.suffix_refl _, rfl⟩) rfl ?_ fun p => ?_
    · intro o ho p hp
      cases (place?_of_mem_closing ho).symm.trans hp
    · obtain ⟨-, -, hfail, -⟩ := readings_closing p h.waiting
      exact hfail
  | take hb hst => exact hr.broadcast _ hb rfl rfl rfl (by simp [hst]) (by simp [hst])
  | refill hb hst => exact hr.broadcast _ hb rfl rfl rfl (by simp [hst]) (by simp [hst])
  | drain hb hst => exact hr.broadcast _ hb rfl rfl rfl (by simp [hst]) (by simp)
  | stop hb hst => exact hr.stop hb _

/-- Senders, and subscribers at their queues, leave the roster as it is. -/
theorem aside (hr : Roster h) (hlen : h'.queues.length = h.queues.length)
    (hmem : h'.members = h.members) (hstage : h'.stage = h.stage) (hsend : h'.sending = h.sending)
    (hj : h'.journal = h.journal ++ k)
    (hnew : ∀ o ∈ k, ∀ p, o.place? = some p → p < h.queues.length)
    (hfail : ∀ p, ¬ FailsIn p k) : Roster h' := by
  refine hr.frame hlen hmem (by rw [hstage]) (fun hn => hsend.trans hn) (fun b hb => ?_) hj hnew
    hfail
  exact ⟨b, hsend.trans hb, List.suffix_refl _, rfl⟩

/-- Every move keeps the roster. -/
theorem moved {m : Move} {ts : List Ticket} (hr : Roster h) (hm : Moved h m h' ts) :
    Roster h' := by
  cases hm with
  | attach hst => exact hr.attach hst _
  | dispatch hd => exact hr.dispatched hd
  | refuse | look => exact hr
  | @accept t e | @queue t e =>
    exact hr.aside (k := [.emitted e]) rfl rfl rfl rfl rfl (by simp [Occurrence.place?]) (by simp)
  | @drop t e =>
    refine hr.aside (k := [.emitted e, .dropped e]) rfl rfl rfl rfl (by simp [note])
      (by simp [Occurrence.place?]) ?_
    rintro p ⟨r, t, ho⟩
    simp at ho
  | @detach p hh =>
    refine hr.aside (k := [.detached p]) ?_ rfl rfl rfl rfl ?_ (by simp)
    · simp [Hub.detach, setQueue, note]
    · simpa [Occurrence.place?] using lt_of_held hh
  | @receive p e rest hh =>
    refine hr.aside (k := [.received p e]) ?_ rfl rfl rfl rfl ?_ (by simp)
    · simp [setQueue, note]
    · simpa [Occurrence.place?] using lt_of_held hh
  | @receiveAll p hh =>
    refine hr.aside (k := (h.queue p).events.map (.received p)) ?_ rfl rfl rfl rfl ?_ fun q =>
      (readings_map_received q p _).2.2.2.1
    · simp [setQueue]
    · intro o ho q hq
      obtain ⟨e, -, rfl⟩ := List.mem_map.1 ho
      obtain rfl := Option.some.inj hq
      exact lt_of_held hh
  | requestClose | dropSender =>
    exact hr.aside (k := []) rfl rfl rfl rfl (List.append_nil _).symm (by simp) (by simp)

end Roster

theorem roster_follow {h₀ h : Hub} {ms : List Move} {ts : List Ticket} (h0 : Roster h₀)
    (hr : h₀.follow? ms = some (h, ts)) : Roster h :=
  follow_induction (P := fun _ h _ => Roster h) h0 (fun _ _ _ _ _ _ _ ih hm => ih.moved hm) hr

end Hub

end CallFeed

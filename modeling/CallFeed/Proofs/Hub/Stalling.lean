/-
  CallFeed — who is taken out of the set of subscribers, and why.

  * `Blamed`: whoever is taken out for a reason has failed a delivery for that reason;
  * `TimedOut` is the course of a delivery that is given up for the time that it takes: one
    wait of just the limit, in which the subscriber takes nothing from its full queue; a
    subscriber that takes an event in every such wait is none of those (`TakesInTime`);
  * `evicted_for_cause`: in the course of time, nobody is taken out for being slow but who
    has timed out, and nobody for being gone but who has given up its queue.
-/
import CallFeed.Journal.Metric
import CallFeed.Proofs.Hub.Timeline

namespace CallFeed

namespace Hub

/-! ## Evictions and failures -/

/-- Those who are or will be taken out have failed a delivery, for the same reason. -/
structure Blamed (h : Hub) : Prop where
  failed : ∀ b, h.sending = some b → ∀ x ∈ b.failed, ∃ time, .failed x.1 x.2 time ∈ h.journal
  evicted : ∀ x ∈ h.journal.flatMap Occurrence.evictions, ∃ time, .failed x.1 x.2 time ∈ h.journal

namespace Blamed
variable {h h' : Hub} {k : List Occurrence}

theorem start {feed : Feed} {settings : Settings} {senders : Nat}
    (h0 : start? feed settings senders = some h) : Blamed h := by
  obtain ⟨-, rfl⟩ := start?_eq_some h0
  exact ⟨by simp, by simp [Occurrence.evictions]⟩

/-- Nobody is taken out, and no delivery fails. -/
theorem frame (hb : Blamed h) (hj : h'.journal = h.journal ++ k)
    (hk : k.flatMap Occurrence.evictions = [])
    (hs : ∀ b', h'.sending = some b' → b'.failed = [] ∨
      ∃ b, h.sending = some b ∧ b'.failed = b.failed) : Blamed h' := by
  have hold : ∀ x : Place × Eviction, (∃ time, .failed x.1 x.2 time ∈ h.journal) →
      ∃ time, .failed x.1 x.2 time ∈ h'.journal := by
    rintro x ⟨time, hmem⟩
    exact ⟨time, hj ▸ List.mem_append_left _ hmem⟩
  refine ⟨fun b' hb' x hx => ?_, fun x hx => ?_⟩
  · rcases hs b' hb' with hnil | ⟨b, hsend, hsame⟩
    · rw [hnil] at hx
      cases hx
    · exact hold x (hb.failed b hsend x (hsame ▸ hx))
  · rw [hj, List.flatMap_append, hk, List.append_nil] at hx
    exact hold x (hb.evicted x hx)

theorem fail (hb : Blamed h) {b : Broadcast} (hs : h.sending = some b) (now : Nat) (p : Place)
    (rest : List Place) (reason : Eviction) : Blamed (h.fail now b p rest reason) := by
  refine ⟨?_, fun x hx => ?_⟩
  · rintro b' hb' x hx
    cases hb'
    rcases List.mem_append.1 hx with hx | hx
    · obtain ⟨time, hmem⟩ := hb.failed b hs x hx
      exact ⟨time, List.mem_append_left _ hmem⟩
    · cases List.mem_singleton.1 hx
      exact ⟨now, List.mem_append_right _ List.mem_cons_self⟩
  · have hx' : x ∈ h.journal.flatMap Occurrence.evictions := by
      simpa [Hub.fail, note, Occurrence.evictions] using hx
    obtain ⟨time, hmem⟩ := hb.evicted x hx'
    exact ⟨time, List.mem_append_left _ hmem⟩

theorem dispatched {now : Nat} {ts : List Ticket} (hb : Blamed h)
    (hd : Dispatched now h h' ts) : Blamed h' := by
  cases hd with
  | finish => exact hb.frame (k := []) (List.append_nil _).symm rfl (by simp)
  | @evict b members hs =>
    refine ⟨by rintro b' ⟨⟩, fun x hx => ?_⟩
    have hcause : ∃ time, .failed x.1 x.2 time ∈ h.journal := by
      simp only [note, List.flatMap_append, List.mem_append] at hx
      rcases hx with hx | hx
      · exact hb.evicted x hx
      · exact hb.failed b hs x (by simpa [Occurrence.evictions] using hx)
    obtain ⟨time, hmem⟩ := hcause
    exact ⟨time, List.mem_append_left _ hmem⟩
  | gone hs | overdue hs => exact hb.fail hs _ _ _ _
  | deliver hs | await hs => exact hb.frame rfl rfl (by rintro b' ⟨⟩; exact Or.inr ⟨_, hs, rfl⟩)
  | close hs =>
    refine hb.frame rfl (List.flatMap_eq_nil_iff.2 fun o ho => ?_)
      fun b' hb' => Or.inr ⟨b', hb', rfl⟩
    rcases List.mem_cons.1 ho with rfl | ho
    · rfl
    · obtain ⟨w, -, rfl⟩ := List.mem_map.1 ho
      rfl
  | stop => exact hb.frame rfl rfl fun b' hb' => Or.inr ⟨b', hb', rfl⟩
  | take | refill | drain => exact hb.frame rfl rfl (by rintro b' ⟨⟩; exact Or.inl rfl)

theorem moved {m : Move} {ts : List Ticket} (hb : Blamed h) (hm : Moved h m h' ts) :
    Blamed h' := by
  cases hm with
  | dispatch hd => exact hb.dispatched hd
  | drop => exact hb.frame (List.append_assoc _ _ _) rfl fun b' hb' => Or.inr ⟨b', hb', rfl⟩
  | receiveAll =>
    refine hb.frame rfl ?_ fun b' hb' => Or.inr ⟨b', hb', rfl⟩
    simp [Occurrence.evictions]
  | accept | queue | attach | detach | receive =>
    exact hb.frame rfl rfl fun b' hb' => Or.inr ⟨b', hb', rfl⟩
  | refuse | look => exact hb
  | requestClose | dropSender => exact ⟨hb.failed, hb.evicted⟩

end Blamed

theorem Arises.blamed {h : Hub} (ha : Arises h) : Blamed h := by
  obtain ⟨feed, settings, senders, h₀, ms, ts, h0, hr⟩ := ha
  exact follow_induction (P := fun _ h _ => Blamed h) (Blamed.start h0)
    (fun _ _ _ _ _ _ _ ih hm => ih.moved hm) hr

/-! ## In the course of time -/

/-- In these moments, the latest first, a delivery to the subscriber at `p` is given up, after
    one wait that was just as long as the limit and in which the subscriber took nothing. -/
def TimedOut (p : Place) (limit : Nat) (ms : List Moment) : Prop :=
  ∃ after failed last earlier before since,
    ms = after ++ failed :: (last :: earlier) ++ before ∧
    Wait p since (last :: earlier) ∧ Stalled p (last :: earlier) ∧
    last.now = since + limit ∧ failed.now = since + limit ∧
    failed.hub.journal = last.hub.journal ++ [.failed p .timeout (since + limit)]

/-- In every wait for the queue at `p` that becomes as long as the limit, the subscriber takes
    something from it. -/
def TakesInTime (p : Place) (limit : Nat) (ms : List Moment) : Prop :=
  ∀ after last earlier before since, ms = after ++ (last :: earlier) ++ before →
    Wait p since (last :: earlier) → last.now = since + limit →
    ∃ x ∈ last :: earlier, ∃ y ∈ last :: earlier,
      receivedFrom p x.hub.journal ≠ receivedFrom p y.hub.journal

section
variable {x : Moment} {past : List Moment} {p : Place}

theorem Timeline.timedOut (ht : Timeline x past)
    (he : (p, .timeout) ∈ x.hub.journal.flatMap Occurrence.evictions) :
    ∃ limit, x.hub.settings.limit = some limit ∧ TimedOut p limit (x :: past) := by
  obtain ⟨time, hmem⟩ := ht.arises.blamed.evicted _ he
  obtain ⟨after, failed, last, before, hsplit, ht', rfl, hnow, hj, hf⟩ := ht.failing hmem
  obtain ⟨b, rest, hb, ha, htime⟩ := hf.serving
  obtain ⟨since, hs, hover⟩ := htime rfl
  obtain ⟨hheld, hfull⟩ := hf.full rfl
  obtain ⟨earlier, before, rfl, hwait, hstalled, hlimit⟩ := ht'.wait hb ha hs
  have hset : last.hub.settings = x.hub.settings := by
    have hin : last ∈ x :: past := by
      rw [hsplit]
      simp
    rcases List.mem_cons.1 hin with rfl | hin
    · rfl
    · exact ht.settings last hin
  -- the wait is not longer than the limit, and it is not shorter either
  cases hl : last.hub.settings.limit with
  | none => simp [isOverdue, hl] at hover
  | some limit =>
    have hle : since + limit ≤ last.now := by simpa [isOverdue, hl] using hover
    have hnow' : last.now = since + limit := Nat.le_antisymm (hlimit limit hl) hle
    refine ⟨limit, hset ▸ hl, after, failed, last, earlier, before, since, ?_, hwait, ?_, hnow',
      hnow.trans hnow', hnow' ▸ hj⟩
    · rw [hsplit]
      simp
    · exact hstalled (Nat.le_antisymm (ht'.arises.bounds.queues p) hfull) hheld

theorem TimedOut.not_takesInTime {limit : Nat} {ms : List Moment} (hout : TimedOut p limit ms) :
    ¬ TakesInTime p limit ms := by
  obtain ⟨after, failed, last, earlier, before, since, rfl, hwait, hstalled, hnow, -⟩ := hout
  intro htakes
  obtain ⟨y, hy, z, hz, hne⟩ :=
    htakes (after ++ [failed]) last earlier before since (by simp) hwait hnow
  exact hne (hstalled.untouched y hy z hz)

theorem Timeline.detached (ht : Timeline x past)
    (he : (p, .closed) ∈ x.hub.journal.flatMap Occurrence.evictions) :
    ∃ before time after, x.hub.journal = before ++ .failed p .closed time :: after ∧
      .detached p ∈ before := by
  obtain ⟨time, hmem⟩ := ht.arises.blamed.evicted _ he
  obtain ⟨after, failed, last, before, hsplit, ht', -, -, hj, hf⟩ := ht.failing hmem
  obtain ⟨b, rest, hb, ha, -⟩ := hf.serving
  have hin : failed ∈ x :: past := by
    rw [hsplit]
    simp
  have hprefix : failed.hub.journal <+: x.hub.journal := by
    rcases List.mem_cons.1 hin with rfl | hin
    · exact List.prefix_refl _
    · exact ht.journal_prefix failed hin
  obtain ⟨k, hk⟩ := hprefix
  refine ⟨last.hub.journal, time, k, ?_, ?_⟩
  · rw [← hk, hj, List.append_assoc, List.singleton_append]
  · -- whoever is served has entered, and has given up its queue since
    have hr := ht'.arises.roster
    have hp : p < last.hub.queues.length := hr.below p ((hr.ahead b hb).2 p (by simp [ha])).1
    by_contra hdet
    have hheld := (ht'.arises.holding.held_iff p hp).2 hdet
    rw [hf.gone rfl] at hheld
    cases hheld

/-- A hub whose only subscriber has a queue for one event, and takes none. The delivery of the
    second event waits since the time 3, and has a limit of five milliseconds. -/
def waitingHub : Hub where
  feed := .log
  settings := ⟨1, 1, some 5⟩
  senders := 2
  closing := false
  stage := .running
  inbound := []
  waiting := []
  queues := [⟨[⟨"a", "/m", none⟩], true⟩]
  members := [0]
  sending := some ⟨⟨"b", "/m", none⟩, [0], some 3, []⟩
  journal := [.started, .attached 0 1, .emitted ⟨"a", "/m", none⟩, .taken ⟨"a", "/m", none⟩ [0],
    .delivered 0 ⟨"a", "/m", none⟩, .emitted ⟨"b", "/m", none⟩, .taken ⟨"b", "/m", none⟩ [0],
    .waited 0 3]

theorem timeline_waitingHub : ∃ past, Timeline ⟨3, waitingHub⟩ past := by
  have h0 : start? .log ⟨1, 1, some 5⟩ 2 =
      some ⟨.log, ⟨1, 1, some 5⟩, 2, false, .running, [], [], [], [], none, [.started]⟩ := rfl
  have hstart : Timeline ⟨3, _⟩ [] := .start h0
  exact hstart.follow (show follow? [.attach, .emit 0 ⟨"a", "/m", none⟩, .dispatch 3, .dispatch 3,
    .dispatch 3, .emit 1 ⟨"b", "/m", none⟩, .dispatch 3, .dispatch 3] _ = some (waitingHub, _)
      from rfl) (by simp)

/-- **Nobody is taken out without cause.** A subscriber that is taken out for being slow has
    timed out: it took nothing from its full queue, which it held all the time, through one
    wait for it that was just as long as the limit. Hence one that takes an event in every
    such wait stays. A subscriber that is taken out for being gone has given up its queue
    before. Without a limit nobody is taken out for being slow, and who keeps its queue is not
    taken out at all. -/
theorem evicted_for_cause (ht : Timeline x past) (p : Place) :
    ((p, .timeout) ∈ x.hub.journal.flatMap Occurrence.evictions →
      ∃ limit, x.hub.settings.limit = some limit ∧ TimedOut p limit (x :: past)) ∧
    ((∀ limit, x.hub.settings.limit = some limit → TakesInTime p limit (x :: past)) →
      (p, .timeout) ∉ x.hub.journal.flatMap Occurrence.evictions) ∧
    ((p, .closed) ∈ x.hub.journal.flatMap Occurrence.evictions →
      ∃ before time after, x.hub.journal = before ++ .failed p .closed time :: after ∧
        .detached p ∈ before) ∧
    (x.hub.settings.limit = none →
      (p, .timeout) ∉ x.hub.journal.flatMap Occurrence.evictions ∧
      (.detached p ∉ x.hub.journal →
        ∀ reason, (p, reason) ∉ x.hub.journal.flatMap Occurrence.evictions)) := by
  have hnone : x.hub.settings.limit = none →
      (p, .timeout) ∉ x.hub.journal.flatMap Occurrence.evictions := by
    intro hset he
    obtain ⟨limit, hlimit, -⟩ := ht.timedOut he
    cases hset.symm.trans hlimit
  refine ⟨ht.timedOut, fun htakes he => ?_, ht.detached, fun hset => ⟨hnone hset, ?_⟩⟩
  · obtain ⟨limit, hset, hout⟩ := ht.timedOut he
    exact hout.not_takesInTime (htakes limit hset)
  · rintro hkeeps (_ | _) he
    · exact hnone hset he
    · obtain ⟨before, time, after, hj, hdet⟩ := ht.detached he
      exact hkeeps (hj ▸ List.mem_append_left _ hdet)

/-- At the time 8 the delivery is given up, and the subscriber is taken out. -/
theorem evicted_for_cause_timeout : ∃ x past, Timeline x past ∧
    (0, .timeout) ∈ x.hub.journal.flatMap Occurrence.evictions ∧ TimedOut 0 5 (x :: past) ∧
    .failed 0 .timeout 8 ∈ x.hub.journal := by
  obtain ⟨past, hwaits⟩ := timeline_waitingHub
  have hlate : Timeline ⟨8, waitingHub⟩ _ := hwaits.clock (by decide) (by
    rintro d ⟨⟩
    decide)
  obtain ⟨past', hout⟩ := hlate.follow (show waitingHub.follow? [.dispatch 8, .dispatch 8] =
    some ({ waitingHub with
      members := [], sending := none
      journal := waitingHub.journal ++ [.failed 0 .timeout 8, .evicted [(0, .timeout)] 0] }, [])
        from rfl) (by simp)
  obtain ⟨htimeout, -⟩ := evicted_for_cause hout 0
  obtain ⟨limit, hlimit, htimedOut⟩ := htimeout (by decide)
  cases hlimit
  exact ⟨_, _, hout, by decide, htimedOut, by decide⟩

end

end Hub

end CallFeed

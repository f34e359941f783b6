/-
  CallFeed — how long a hub can wait that was told to close.

  Nobody enters such a hub any more, and time passes in it only while it waits for a subscriber.

  * `Within`: if so many waits are left, each of them over when the limit is reached, the last
    one is over by some time; what happens in the hub keeps this if it does not add to the
    waits that are left and a wait that ends is one of them (`Within.later`), and so does the
    clock (`Within.clock`);
  * `waitsLeft`: one wait for each subscriber that the broadcast under way has ahead, and one for
    each subscriber and each event that may still be broadcast;
  * `standing`: the subscribers whose deliveries have not failed. If nobody reads, a wait ends
    with a failure, so that there is one for each of them at most;
  * `Patient` is what follows for a hub since it was told to close.
-/
import CallFeed.Proofs.Hub.Ending
import CallFeed.Proofs.Hub.Timeline

namespace CallFeed

namespace Hub

/-! ## Waits -/

/-- The dispatcher waits since `t` for space in the queue at `p`. -/
def WaitsFor (h : Hub) (p : Place) (t : Nat) : Prop :=
  ∃ b rest, h.sending = some b ∧ b.ahead = p :: rest ∧ b.since = some t

theorem WaitsFor.unique {h : Hub} {p q : Place} {t u : Nat} (hp : h.WaitsFor p t)
    (hq : h.WaitsFor q u) : p = q ∧ t = u := by
  obtain ⟨b, rest, hb, ha, hs⟩ := hp
  obtain ⟨c, rest', hc, ha', hs'⟩ := hq
  obtain rfl := Option.some.inj (hb.symm.trans hc)
  exact ⟨(List.cons.inj (ha.symm.trans ha')).1, Option.some.inj (hs.symm.trans hs')⟩

/-- If `left` waits are left, of `limit` each, they are over at the time `last`; where the
    dispatcher waits for a subscriber that is `stuck`, that wait is one of them. -/
def Within (limit last now left : Nat) (stuck : Place → Prop) (h : Hub) : Prop :=
  now + limit * left ≤ last ∨
    ∃ p t, h.WaitsFor p t ∧ stuck p ∧ max now (t + limit) + limit * (left - 1) ≤ last

namespace Within
variable {limit last now left left' : Nat} {stuck stuck' : Place → Prop} {h h' : Hub}

/-- What happens in the hub without the clock. -/
theorem later (hw : Within limit last now left stuck h) (hle : left' ≤ left)
    (hkeep : ∀ p t, h.WaitsFor p t → stuck p → h'.WaitsFor p t ∧ stuck' p ∨ left' < left) :
    Within limit last now left' stuck' h' := by
  have hless : ∀ n, left' ≤ n → limit * left' ≤ limit * n := fun n => Nat.mul_le_mul_left limit
  rcases hw with hw | ⟨p, t, hp, hstuck, hw⟩
  · have := hless left hle
    exact Or.inl (by omega)
  · have hmax := Nat.le_max_left now (t + limit)
    rcases hkeep p t hp hstuck with ⟨hp', hstuck'⟩ | hlt
    · have := Nat.mul_le_mul_left limit (Nat.sub_le_sub_right hle 1)
      exact Or.inr ⟨p, t, hp', hstuck', by omega⟩
    · have := hless (left - 1) (by omega)
      exact Or.inl (by omega)

/-- The clock goes on during a wait, and not beyond its limit. -/
theorem clock {p : Place} {t time : Nat} (hw : Within limit last now left stuck h)
    (hp : h.WaitsFor p t) (hstuck : stuck p) (hleft : 0 < left) (ht : t ≤ now)
    (htime : time ≤ max now (t + limit)) :
    Within limit last time left stuck h := by
  refine Or.inr ⟨p, t, hp, hstuck, ?_⟩
  have hmax := Nat.max_le.2 ⟨htime, Nat.le_max_right now (t + limit)⟩
  rcases hw with hw | ⟨q, u, hq, -, hw⟩
  · have hsplit : limit * left = limit * (left - 1) + limit := by
      rw [← Nat.mul_succ, Nat.succ_eq_add_one, Nat.sub_add_cancel hleft]
    have hnow := Nat.max_le.2 ⟨Nat.le_add_right now limit, Nat.add_le_add_right ht limit⟩
    omega
  · obtain ⟨rfl, rfl⟩ := hp.unique hq
    omega

/-- While a wait goes on, not all are over. -/
theorem now_lt {p : Place} {t : Nat} (hw : Within limit last now left stuck h)
    (hp : h.WaitsFor p t) (hleft : 0 < left) (ht : t ≤ now) (hnow : now < t + limit) :
    now < last := by
  rcases hw with hw | ⟨q, u, hq, -, hw⟩
  · have := Nat.le_mul_of_pos_right limit hleft
    omega
  · obtain ⟨rfl, rfl⟩ := hp.unique hq
    have := Nat.le_max_right now (t + limit)
    omega

end Within

/-! ## One wait for each subscriber and each event -/

/-- How many events may still be broadcast after the broadcast under way, at most. -/
def toDrain (h : Hub) : Nat :=
  match h.stage with
  | .running => h.settings.inbound
  | .draining _ => h.inbound.length
  | .stopped => 0

/-- How many waits are left for a set of `n` subscribers at most. -/
def waitsLeft (n : Nat) (h : Hub) : Nat := h.ahead.length + n * h.toDrain

section
variable {h h' : Hub} {m : Move} {ts : List Ticket} {n : Nat}

theorem ahead_some {b : Broadcast} (hb : h.sending = some b) : h.ahead = b.ahead := by
  rw [ahead, hb]

theorem ahead_none (hb : h.sending = none) : h.ahead = [] := by
  rw [ahead, hb]

/-- A broadcast that has one subscriber less ahead. -/
theorem waitsLeft_lt {b : Broadcast} {p : Place} {rest : List Place} (hb : h.sending = some b)
    (ha : b.ahead = p :: rest) (hrest : h'.ahead = rest) (hd : h'.toDrain = h.toDrain) :
    h'.waitsLeft n < h.waitsLeft n := by
  rw [waitsLeft, waitsLeft, hd, ahead_some hb, ha, hrest, List.length_cons]
  omega

theorem toDrain_running (hst : h.stage = .running) : h.toDrain = h.settings.inbound := by
  rw [toDrain, hst]

/-- Who starts a broadcast or ends one does not wait. -/
theorem WaitsFor.serving {p : Place} {t : Nat} (hp : h.WaitsFor p t) :
    h.sending ≠ none ∧ (∀ b, h.sending = some b → b.ahead ≠ [] ∧ b.since ≠ none) := by
  obtain ⟨b, rest, hb, ha, hs⟩ := hp
  refine ⟨by simp [hb], fun c hc => ?_⟩
  obtain rfl := Option.some.inj (hb.symm.trans hc)
  simp [ha, hs]

theorem Dispatched.waitsLeft {now : Nat} (hd : Dispatched now h h' ts) (hc : h.closing = true)
    (hb : Bounds h) (hn : h.members.length ≤ n) : h'.waitsLeft n ≤ h.waitsLeft n ∧
      ∀ p t, h.WaitsFor p t → h'.waitsLeft n < h.waitsLeft n := by
  cases hd with
  | finish hs ha =>
    refine ⟨?_, fun p t hp => absurd ha (hp.serving.2 _ hs).1⟩
    rw [Hub.waitsLeft, Hub.waitsLeft, ahead_some hs, ha]
    exact Nat.le_refl _
  | evict hs ha =>
    refine ⟨?_, fun p t hp => absurd ha (hp.serving.2 _ hs).1⟩
    rw [Hub.waitsLeft, Hub.waitsLeft, ahead_some hs, ha]
    exact Nat.le_refl _
  | gone hs ha | deliver hs ha | overdue hs ha =>
    exact ⟨Nat.le_of_lt (waitsLeft_lt hs ha rfl rfl), fun _ _ _ => waitsLeft_lt hs ha rfl rfl⟩
  | await hs ha _ _ hnone =>
    refine ⟨?_, fun p t hp => absurd hnone (hp.serving.2 _ hs).2⟩
    rw [Hub.waitsLeft, Hub.waitsLeft, ahead_some hs]
    exact Nat.le_refl _
  | close hs hst =>
    refine ⟨?_, fun p t hp => absurd hs hp.serving.1⟩
    rw [Hub.waitsLeft, Hub.waitsLeft, toDrain_running hst]
    exact Nat.add_le_add_left (Nat.mul_le_mul_left n hb.inbound) _
  | take _ _ hn | refill _ _ hn => cases hc.symm.trans hn
  | @drain e rest k hs hst hin =>
    refine ⟨?_, fun p t hp => absurd hs hp.serving.1⟩
    have hdrain : h.toDrain = rest.length + 1 := by
      rw [toDrain, hst, hin]
      rfl
    rw [Hub.waitsLeft, Hub.waitsLeft, hdrain, ahead_none hs, Nat.mul_succ]
    show h.members.length + n * rest.length ≤ _
    rw [List.length_nil]
    omega
  | stop hs hst =>
    refine ⟨?_, fun p t hp => absurd hs hp.serving.1⟩
    rw [Hub.waitsLeft, Hub.waitsLeft, ahead_none hs, ahead_none (h := h.stop _) hs]
    exact Nat.add_le_add_left (Nat.mul_le_mul_left n (Nat.zero_le _)) _

/-- Whatever happens in a hub that nobody enters, no wait is added to those that are left, and
    one that ends is one of them. -/
theorem Moved.waitsLeft (hm : Moved h m h' ts) (hne : m ≠ .attach) (hc : h.closing = true)
    (hb : Bounds h) (hn : h.members.length ≤ n) : h'.waitsLeft n ≤ h.waitsLeft n ∧
      ∀ p t, h.WaitsFor p t → h'.WaitsFor p t ∨ h'.waitsLeft n < h.waitsLeft n := by
  cases hm with
  | dispatch hd =>
    obtain ⟨hle, hlt⟩ := hd.waitsLeft hc hb hn
    exact ⟨hle, fun p t hp => Or.inr (hlt p t hp)⟩
  | attach | refuse => exact absurd rfl hne
  | accept hst =>
    refine ⟨?_, fun p t hp => Or.inl hp⟩
    rw [Hub.waitsLeft, Hub.waitsLeft, toDrain_running hst, toDrain_running (by exact hst)]
    exact Nat.le_refl _
  | _ => exact ⟨Nat.le_refl _, fun p t hp => Or.inl hp⟩

/-! ## One wait for each subscriber -/

/-- The subscribers in the set whose deliveries have not failed. -/
def standing (h : Hub) : List Place :=
  match h.sending with
  | some b => h.members.filter fun p => !(b.failed.map Prod.fst).contains p
  | none => h.members

/-- The queue at a place has no space as long as nobody takes from it. -/
def Stuck (h : Hub) (p : Place) : Prop :=
  (h.queue p).held = true → h.settings.subscriber ≤ (h.queue p).events.length

theorem standing_some {b : Broadcast} (hb : h.sending = some b) :
    h.standing = h.members.filter fun p => !(b.failed.map Prod.fst).contains p := by
  rw [standing, hb]

theorem standing_none (hb : h.sending = none) : h.standing = h.members := by
  rw [standing, hb]

/-- Who is still ahead in a broadcast stands. -/
theorem mem_standing {b : Broadcast} {p : Place} {rest : List Place} (hr : Roster h)
    (hb : h.sending = some b) (ha : b.ahead = p :: rest) : p ∈ h.standing := by
  obtain ⟨hmem, hnot⟩ := (hr.ahead b hb).2 p (ha ▸ List.mem_cons_self)
  rw [standing_some hb, List.mem_filter]
  refine ⟨hmem, ?_⟩
  simp only [Bool.not_eq_true', List.contains_eq_mem, decide_eq_false_iff_not]
  exact fun hf => hnot (hr.failed b hb p hf)

theorem WaitsFor.standing_pos {p : Place} {t : Nat} (hr : Roster h) (hp : h.WaitsFor p t) :
    0 < h.standing.length := by
  obtain ⟨b, rest, hb, ha, -⟩ := hp
  exact List.length_pos_of_mem (mem_standing hr hb ha)

/-- Who fails does not stand any more. -/
theorem standing_fail {b : Broadcast} {p : Place} {rest : List Place} (hr : Roster h)
    (hb : h.sending = some b) (ha : b.ahead = p :: rest) (now : Nat) (reason : Eviction) :
    (h.fail now b p rest reason).standing.length < h.standing.length := by
  have hsplit : (h.fail now b p rest reason).standing = h.standing.filter fun q => q != p := by
    rw [standing_some (h := h.fail now b p rest reason) rfl, standing_some hb, List.filter_filter]
    refine List.filter_congr fun q _ => ?_
    rw [List.map_append, List.contains_append]
    by_cases hq : q = p <;> simp [hq]
  rw [hsplit]
  exact List.length_filter_lt_length_iff_exists.2 ⟨p, mem_standing hr hb ha, by simp⟩

theorem Dispatched.standing {now : Nat} (hd : Dispatched now h h' ts) (hr : Roster h) :
    h'.standing.length ≤ h.standing.length ∧
      ∀ p t, h.WaitsFor p t → h.Stuck p → h'.standing.length < h.standing.length := by
  cases hd with
  | @finish b hs ha hf =>
    refine ⟨?_, fun p t hp => absurd ha (hp.serving.2 _ hs).1⟩
    rw [standing_some hs, standing_none rfl, hf]
    simp
  | @evict b members hs ha hf hm =>
    refine ⟨?_, fun p t hp => absurd ha (hp.serving.2 _ hs).1⟩
    rw [standing_some hs, standing_none (by rfl), ← hm]
    exact Nat.le_refl _
  | gone hs ha | overdue hs ha =>
    exact ⟨Nat.le_of_lt (standing_fail hr hs ha _ _), fun _ _ _ _ => standing_fail hr hs ha _ _⟩
  | @deliver b p rest hs ha hh hl =>
    refine ⟨?_, fun q t hq hstuck => ?_⟩
    · rw [standing_some hs]
      exact Nat.le_refl _
    · obtain ⟨c, rest', hc, ha', -⟩ := hq
      obtain rfl := Option.some.inj (hs.symm.trans hc)
      obtain ⟨rfl, -⟩ := List.cons.inj (ha.symm.trans ha')
      exact absurd (hstuck hh) (Nat.not_le.2 hl)
  | await hs ha _ _ hnone =>
    refine ⟨?_, fun p t hp => absurd hnone (hp.serving.2 _ hs).2⟩
    rw [standing_some hs]
    exact Nat.le_refl _
  | close hs =>
    refine ⟨?_, fun p t hp => absurd hs hp.serving.1⟩
    rw [standing_none hs, standing_none (h := h.closeInbound.1) hs]
    exact Nat.le_refl _
  | take hs | refill hs | drain hs =>
    refine ⟨?_, fun p t hp => absurd hs hp.serving.1⟩
    rw [standing_none hs]
    exact List.length_filter_le _ _
  | stop hs =>
    refine ⟨?_, fun p t hp => absurd hs hp.serving.1⟩
    rw [standing_none (h := h.stop _) hs]
    exact Nat.zero_le _

/-- Whatever happens in a hub that nobody enters or reads from, nobody begins to stand, and who is
    waited for does not stand any more when the wait ends. -/
theorem Moved.standing (hm : Moved h m h' ts) (hne : m ≠ .attach) (hr : Roster h) (hb : Bounds h)
    (hread : ∀ p, receivedFrom p h'.journal = receivedFrom p h.journal) :
    h'.standing.length ≤ h.standing.length ∧ ∀ p t, h.WaitsFor p t → h.Stuck p →
      h'.WaitsFor p t ∧ h'.Stuck p ∨ h'.standing.length < h.standing.length := by
  cases hm with
  | dispatch hd =>
    obtain ⟨hle, hlt⟩ := hd.standing hr
    exact ⟨hle, fun p t hp hstuck => Or.inr (hlt p t hp hstuck)⟩
  | attach | refuse => exact absurd rfl hne
  | @detach q hh =>
    refine ⟨Nat.le_refl _, fun p t hp hstuck => Or.inl ⟨hp, ?_⟩⟩
    by_cases hq : p = q
    · subst hq
      intro hh'
      rw [show (h.detach p).queue p = ⟨[], false⟩ from queue_setQueue_self (lt_of_held hh) _] at hh'
      cases hh'
    · show (h.setQueue q _).Stuck p
      rw [Stuck, queue_setQueue_ne hq]
      exact hstuck
  | @receive q e rest hh he =>
    have hlen := congrArg List.length (hread q)
    simp [note, setQueue] at hlen
  | @receiveAll q hh =>
    refine ⟨Nat.le_refl _, fun p t hp hstuck => Or.inl ⟨hp, ?_⟩⟩
    by_cases hq : p = q
    · -- who is waited for has a full queue, and has not taken all of it
      subst hq
      obtain ⟨-, -, -, -, hrec⟩ := readings_map_received p p (h.queue p).events
      have hlen := congrArg List.length (hread p)
      simp only [receivedFrom_append, hrec, if_true, List.length_append] at hlen
      have := hstuck hh
      have := hb.positive.2
      omega
    · show (h.setQueue q _).Stuck p
      rw [Stuck, queue_setQueue_ne hq]
      exact hstuck
  | _ => exact ⟨Nat.le_refl _, fun p t hp hstuck => Or.inl ⟨hp, hstuck⟩⟩

end

/-! ## Hubs that were told to close -/

section
variable {h₀ h h' : Hub} {limit n t₀ now : Nat}

/-- A hub that was told to close can only wait for somebody's queue. -/
theorem waitsFor_of_step? (hc : h.closing = true) (hst : h.stage ≠ .stopped)
    (hlimit : h.settings.limit = some limit) (hs : h.step? now = none) :
    ∃ p t, h.WaitsFor p t ∧ h.Stuck p ∧ now < t + limit ∧ h.deadline? = some (t + limit) := by
  rcases step?_eq_none_iff.1 hs with
    ⟨b, p, rest, t, hb, ha, ht, -, hl, ho⟩ | ⟨-, -, hn, -⟩ | ⟨-, hn⟩
  · have hd : h.deadline? = some (t + limit) :=
      deadline?_eq_some_iff.2 ⟨b, hb, t, ht, limit, hlimit, rfl⟩
    exact ⟨p, t, ⟨b, rest, hb, ha, ht⟩, fun _ => hl, lt_deadline?_of_step? hs hd, hd⟩
  · cases hc.symm.trans hn
  · exact absurd hn hst

theorem WaitsFor.timely {p : Place} {t : Nat} (hp : h.WaitsFor p t) (ht : Timely now h) :
    t ≤ now := by
  obtain ⟨b, rest, hb, -, hs⟩ := hp
  exact ht b t hb hs

theorem WaitsFor.waitsLeft_pos {p : Place} {t : Nat} (hp : h.WaitsFor p t) (n : Nat) :
    0 < h.waitsLeft n := by
  obtain ⟨b, rest, hb, ha, -⟩ := hp
  rw [waitsLeft, ahead_some hb, ha, List.length_cons]
  omega

/-- No broadcast has more subscribers ahead than there are. -/
theorem Roster.ahead_length_le (hr : Roster h) : h.ahead.length ≤ h.members.length := by
  cases hb : h.sending with
  | none => simp [ahead_none hb]
  | some b =>
    obtain ⟨hnd, hmem⟩ := hr.ahead b hb
    rw [ahead_some hb]
    exact (List.subperm_of_subset hnd fun p hp => (hmem p hp).1).length_le

/-- How a hub has come on, of `n` subscribers and told to close at the time `t₀`, when it was
    `h₀`: its waits are bounded by the events that it could accept, and, if nobody has read
    since, by its subscribers. -/
structure Patient (h₀ : Hub) (limit n t₀ now : Nat) (h : Hub) : Prop where
  roster : Roster h
  bounds : Bounds h
  closing : h.closing = true
  settings : h.settings = h₀.settings
  members : h.members.length ≤ n
  journal : h₀.journal <+: h.journal
  waits : h.stage ≠ .stopped → Within limit (t₀ + (h₀.settings.inbound + 1) * n * limit) now
    (h.waitsLeft n) (fun _ => True) h
  once : h.stage ≠ .stopped →
    (∀ p, receivedFrom p h.journal = receivedFrom p h₀.journal) →
    Within limit (t₀ + n * limit) now h.standing.length h.Stuck h

namespace Patient

theorem start (hr : Roster h) (hb : Bounds h) (hc : h.closing = true) (limit now : Nat) :
    Patient h limit h.members.length now now h where
  roster := hr
  bounds := hb
  closing := hc
  settings := rfl
  members := Nat.le_refl _
  journal := List.prefix_refl _
  waits := by
    intro _
    have hdrain : h.toDrain ≤ h.settings.inbound := by
      unfold toDrain
      split
      · exact Nat.le_refl _
      · exact hb.inbound
      · exact Nat.zero_le _
    have hleft : h.waitsLeft h.members.length ≤ (h.settings.inbound + 1) * h.members.length := by
      have hahead := hr.ahead_length_le
      have hmul := Nat.mul_le_mul_left h.members.length hdrain
      rw [waitsLeft, Nat.add_one_mul, Nat.mul_comm h.settings.inbound]
      omega
    have := Nat.mul_le_mul_right limit hleft
    rw [Nat.mul_comm _ limit] at this
    exact Or.inl (Nat.add_le_add_left this now)
  once := by
    intro _ _
    have hle : h.standing.length ≤ h.members.length := by
      unfold standing
      split
      · exact List.length_filter_le _ _
      · exact Nat.le_refl _
    have := Nat.mul_le_mul_right limit hle
    rw [Nat.mul_comm _ limit] at this
    exact Or.inl (Nat.add_le_add_left this now)

theorem moved {m : Move} {ts : List Ticket} (hp : Patient h₀ limit n t₀ now h)
    (hm : Moved h m h' ts) (hne : m ≠ .attach) : Patient h₀ limit n t₀ now h' where
  roster := hp.roster.moved hm
  bounds := hp.bounds.moved hm
  closing := hm.closing hp.closing
  settings := hm.settings.trans hp.settings
  members := by
    rcases hm.members.2 with hsub | ⟨hat, -⟩
    · exact Nat.le_trans hsub.length_le hp.members
    · exact absurd hat hne
  journal := by
    obtain ⟨k, hj, -⟩ := hm.journal_append
    exact hp.journal.trans (hj ▸ List.prefix_append _ k)
  waits := by
    intro hst
    obtain ⟨hle, hkeep⟩ := hm.waitsLeft hne hp.closing hp.bounds hp.members
    refine (hp.waits fun hs => hst (hm.stopped hs)).later hle fun p t hw _ => ?_
    exact (hkeep p t hw).imp_left fun hw' => ⟨hw', trivial⟩
  once := by
    intro hst hread
    -- what was not read in the whole was not read in this move
    obtain ⟨k, hj, -⟩ := hm.journal_append
    obtain ⟨l, hl⟩ := hp.journal
    have hnone : ∀ p, receivedFrom p l = [] ∧ receivedFrom p k = [] := by
      intro p
      have := hread p
      rw [hj, ← hl, receivedFrom_append, receivedFrom_append, List.append_assoc] at this
      exact List.append_eq_nil_iff.1 (List.append_right_eq_self.1 this)
    have hbefore : ∀ p, receivedFrom p h.journal = receivedFrom p h₀.journal := fun p => by
      rw [← hl, receivedFrom_append, (hnone p).1, List.append_nil]
    have hnow : ∀ p, receivedFrom p h'.journal = receivedFrom p h.journal := fun p => by
      rw [hj, receivedFrom_append, (hnone p).2, List.append_nil]
    obtain ⟨hle, hkeep⟩ := hm.standing hne hp.roster hp.bounds hnow
    exact (hp.once (fun hs => hst (hm.stopped hs)) hbefore).later hle hkeep

theorem clock {time : Nat} (hp : Patient h₀ limit n t₀ now h) (ht : Timely now h)
    (hlimit : h₀.settings.limit = some limit) (hs : h.step? now = none)
    (htime : ∀ d, h.deadline? = some d → time ≤ max now d) :
    Patient h₀ limit n t₀ time h where
  roster := hp.roster
  bounds := hp.bounds
  closing := hp.closing
  settings := hp.settings
  members := hp.members
  journal := hp.journal
  waits := by
    intro hst
    obtain ⟨p, t, hw, -, -, hd⟩ := waitsFor_of_step? hp.closing hst (hp.settings ▸ hlimit) hs
    exact (hp.waits hst).clock hw trivial (hw.waitsLeft_pos n) (hw.timely ht) (htime _ hd)
  once := by
    intro hst hread
    obtain ⟨p, t, hw, hstuck, -, hd⟩ :=
      waitsFor_of_step? hp.closing hst (hp.settings ▸ hlimit) hs
    exact (hp.once hst hread).clock hw hstuck (hw.standing_pos hp.roster) (hw.timely ht)
      (htime _ hd)

/-- When the last wait is over the hub has stopped. -/
theorem stopped (hp : Patient h₀ limit n t₀ now h) (ht : Timely now h)
    (hlimit : h₀.settings.limit = some limit) (hs : h.step? now = none) :
    (t₀ + (h₀.settings.inbound + 1) * n * limit ≤ now → h.stage = .stopped) ∧
    ((∀ p, receivedFrom p h.journal = receivedFrom p h₀.journal) → t₀ + n * limit ≤ now →
      h.stage = .stopped) := by
  refine ⟨fun hnow => ?_, fun hread hnow => ?_⟩ <;> by_contra hst <;>
    obtain ⟨p, t, hw, -, hlt, -⟩ := waitsFor_of_step? hp.closing hst (hp.settings ▸ hlimit) hs
  · have := (hp.waits hst).now_lt hw (hw.waitsLeft_pos n) (hw.timely ht) hlt
    omega
  · have := (hp.once hst hread).now_lt hw (hw.standing_pos hp.roster) (hw.timely ht) hlt
    omega

end Patient

end

end Hub

end CallFeed

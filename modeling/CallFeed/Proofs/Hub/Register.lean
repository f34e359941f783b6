/-
  CallFeed — the register of subscribers that a journal keeps.

  * `Register` is what a journal tells of the set of subscribers: who is in it, who was taken
    out, who was dropped at the end, and what became of the targets of every broadcast
    (`Round`);
  * `Recorded`: the set is the one that is told, every subscriber that ever attached is in one
    place of the register, and every target of a broadcast that is over was given the event or
    taken out; every move keeps this (`Recorded.moved`);
  * `members_accounted` is what follows for the numbers of the subscribers, for those who have
    left and for the metrics, at every moment of every run.
-/
import CallFeed.Journal.Line
import CallFeed.Journal.Metric
import CallFeed.Proofs.Hub.Situation
import Mathlib.Algebra.Ring.Nat
import Mathlib.Data.List.Induction
import Mathlib.Data.List.Sort

namespace CallFeed

/-! ## What a journal tells -/

/-- A broadcast, as a journal tells it. -/
structure Round where
  /-- The set of subscribers when the broadcast began. -/
  members : List Place
  targets : List Place
  delivered : List Place := []
  evicted : List (Place × Eviction) := []

/-- Each of the targets was given the event or taken out, and none was both. -/
def Round.IsOver (r : Round) : Prop :=
  (r.delivered ++ r.evicted.map Prod.fst).Perm r.targets

/-- What a journal tells of the set of subscribers. -/
structure Register where
  members : List Place := []
  /-- Those taken out, with the reasons. -/
  evicted : List (Place × Eviction) := []
  /-- Those dropped when the dispatcher stopped. -/
  dismissed : List Place := []
  /-- The broadcasts, the latest first. -/
  rounds : List Round := []

namespace Register

/-- Changes the latest broadcast. -/
def inRound (f : Round → Round) : List Round → List Round
  | [] => []
  | r :: rs => f r :: rs

/-- The register with one more occurrence entered. -/
def enter (x : Register) : Occurrence → Register
  | .attached p _ => { x with members := x.members ++ [p] }
  | .taken _ targets => { x with rounds := { members := x.members, targets } :: x.rounds }
  | .delivered p _ =>
    { x with rounds := inRound (fun r => { r with delivered := r.delivered ++ [p] }) x.rounds }
  | .evicted gone _ =>
    { x with
      members := x.members.filter fun p => !(gone.map Prod.fst).contains p
      evicted := x.evicted ++ gone
      rounds := inRound (fun r => { r with evicted := r.evicted ++ gone }) x.rounds }
  | .stopped _ _ => { x with members := [], dismissed := x.dismissed ++ x.members }
  | _ => x

end Register

/-- The register at the end of a journal. -/
def registerOf (j : List Occurrence) : Register := j.foldl Register.enter {}

/-- The place of the subscriber that is entered. -/
def Occurrence.attached? : Occurrence → Option Place
  | .attached p _ => some p
  | _ => none

/-- How many subscribers the dispatcher reports to have dropped when it stops. -/
def Occurrence.dismissed? : Occurrence → Option Nat
  | .stopped members _ => some members
  | _ => none

/-- The places of the subscribers that were entered, in that order. -/
def attachedIn (j : List Occurrence) : List Place := j.filterMap Occurrence.attached?

/-- How many subscribers the dispatcher has reported to have dropped when it stopped. -/
def dismissedCount (j : List Occurrence) : Nat := (j.filterMap Occurrence.dismissed?).sum

/-- Whether an occurrence has nothing to do with the set of subscribers. -/
def Occurrence.isAside : Occurrence → Bool
  | attached _ _ | taken _ _ | delivered _ _ | evicted _ _ | stopped _ _ => false
  | _ => true

section
variable (j : List Occurrence) (o : Occurrence)

theorem registerOf_concat : registerOf (j ++ [o]) = (registerOf j).enter o := List.foldl_append

@[simp] theorem reportedSize?_concat :
    reportedSize? (j ++ [o]) = o.size?.or (reportedSize? j) := by
  rw [reportedSize?, List.filterMap_append, List.getLast?_append, List.filterMap_cons]
  cases o.size? <;> rfl

@[simp] theorem attachedIn_concat : attachedIn (j ++ [o]) = attachedIn j ++ o.attached?.toList := by
  rw [attachedIn, List.filterMap_append, List.filterMap_cons]
  cases o.attached? <;> rfl

@[simp] theorem dismissedCount_concat :
    dismissedCount (j ++ [o]) = dismissedCount j + o.dismissed?.getD 0 := by
  rw [dismissedCount, List.filterMap_append, List.sum_append, List.filterMap_cons]
  cases o.dismissed? <;> rfl

@[simp] theorem deliveredCount_concat :
    deliveredCount (j ++ [o]) = deliveredCount j + if o.isDelivery then 1 else 0 := by
  rw [deliveredCount, List.countP_append, ← deliveredCount, List.countP_singleton]

end

section
variable {j k : List Occurrence}

theorem enter_aside (x : Register) {o : Occurrence} (ho : o.isAside = true) : x.enter o = x := by
  cases o with
  | attached | taken | delivered | evicted | stopped => cases ho
  | _ => rfl

theorem registerOf_aside (hk : ∀ o ∈ k, o.isAside = true) :
    registerOf (j ++ k) = registerOf j := by
  induction k generalizing j with
  | nil => rw [List.append_nil]
  | cons o k ih =>
    have hrest := ih (j := j ++ [o]) fun x hx => hk x (List.mem_cons_of_mem _ hx)
    rw [List.append_assoc, List.singleton_append] at hrest
    rw [hrest, registerOf_concat, enter_aside _ (hk o List.mem_cons_self)]

/-- Those that the register tells to be taken out are those that the metrics count. -/
theorem registerOf_evicted (j : List Occurrence) :
    (registerOf j).evicted = j.flatMap Occurrence.evictions := by
  induction j using List.reverseRecOn with
  | nil => rfl
  | append_singleton j o ih =>
    rw [registerOf_concat, List.flatMap_append, ← ih]
    cases o <;> simp [Register.enter, Occurrence.evictions]

/-- What has nothing to do with the set changes no reading of it. -/
theorem readings_aside (hk : ∀ o ∈ k, o.isAside = true) :
    reportedSize? (j ++ k) = reportedSize? j ∧ attachedIn (j ++ k) = attachedIn j ∧
      dismissedCount (j ++ k) = dismissedCount j ∧ deliveredCount (j ++ k) = deliveredCount j := by
  have hnone : ∀ o ∈ k, o.size? = none ∧ o.attached? = none ∧ o.dismissed? = none ∧
      ¬ o.isDelivery = true := by
    intro o ho
    have haside := hk o ho
    cases o with
    | attached | taken | delivered | evicted | stopped => cases haside
    | _ => exact ⟨rfl, rfl, rfl, Bool.false_ne_true⟩
  clear hk
  induction k generalizing j with
  | nil => simp
  | cons o k ih =>
    obtain ⟨hsize, hattached, hdismissed, hdelivered⟩ := hnone o List.mem_cons_self
    have hrest := ih (j := j ++ [o]) fun x hx => hnone x (List.mem_cons_of_mem _ hx)
    rw [List.append_assoc, List.singleton_append] at hrest
    simpa [hsize, hattached, hdismissed, hdelivered] using hrest

end

/-- Who is taken out is taken out for being slow or for being gone. -/
theorem evictedCount_add (j : List Occurrence) :
    evictedCount .timeout j + evictedCount .closed j =
      (j.flatMap Occurrence.evictions).length := by
  unfold evictedCount
  generalize j.flatMap Occurrence.evictions = gone
  induction gone with
  | nil => rfl
  | cons x gone ih =>
    obtain ⟨p, reason⟩ := x
    cases reason <;> simp <;> omega

namespace Hub

/-! ## The register of a hub -/

/-- The broadcast `b` is the latest of these, and the others are over. -/
def UnderWay (members : List Place) (b : Broadcast) (rounds : List Round) : Prop :=
  ∃ r rs, rounds = r :: rs ∧ (∀ x ∈ rs, x.IsOver) ∧ r.evicted = [] ∧
    (r.delivered ++ (b.failed.map Prod.fst ++ b.ahead)).Perm r.targets ∧
    ∀ p ∈ b.failed.map Prod.fst ++ b.ahead, p ∈ members

/-- What the journal tells of the set of subscribers is so. -/
structure Recorded (h : Hub) : Prop where
  members : (registerOf h.journal).members = h.members
  size : ∀ n, reportedSize? h.journal = some n → n = h.members.length
  numbered : attachedIn h.journal = List.range h.queues.length
  places : (h.members ++ (registerOf h.journal).evicted.map Prod.fst ++
    (registerOf h.journal).dismissed).Perm (List.range h.queues.length)
  dismissed : dismissedCount h.journal = (registerOf h.journal).dismissed.length
  present : h.stage ≠ .stopped → (registerOf h.journal).dismissed = []
  snapshots : ∀ r ∈ (registerOf h.journal).rounds, r.targets = r.members ∧ r.targets.Nodup
  delivered : deliveredCount h.journal =
    ((registerOf h.journal).rounds.map (·.delivered.length)).sum
  evicted : (registerOf h.journal).evicted.length =
    ((registerOf h.journal).rounds.map (·.evicted.length)).sum
  finished : h.sending = none → ∀ r ∈ (registerOf h.journal).rounds, r.IsOver
  underWay : ∀ b, h.sending = some b → UnderWay h.members b (registerOf h.journal).rounds

namespace Recorded
variable {h h' : Hub} {k : List Occurrence}

theorem start {feed : Feed} {settings : Settings} {senders : Nat}
    (h0 : start? feed settings senders = some h) : Recorded h := by
  obtain ⟨-, rfl⟩ := start?_eq_some h0
  have hreg : registerOf [.started] = {} := rfl
  refine ⟨rfl, ?_, rfl, ?_, rfl, fun _ => rfl, ?_, rfl, rfl, ?_, ?_⟩
  · rintro n ⟨⟩
  · rw [hreg]
    exact List.Perm.nil
  · rw [hreg]
    rintro r ⟨⟩
  · rw [hreg]
    rintro - r ⟨⟩
  · rintro b ⟨⟩

/-- Nobody enters or leaves, and nobody is given anything; deliveries may fail. -/
theorem frame (hr : Recorded h) (hlen : h'.queues.length = h.queues.length)
    (hmem : h'.members = h.members) (hstage : h'.stage ≠ .stopped → h.stage ≠ .stopped)
    (hnone : h'.sending = none → h.sending = none)
    (hsome : ∀ b', h'.sending = some b' → ∃ b, h.sending = some b ∧
      (b'.failed.map Prod.fst ++ b'.ahead).Perm (b.failed.map Prod.fst ++ b.ahead))
    (hj : h'.journal = h.journal ++ k) (hk : ∀ o ∈ k, o.isAside = true) : Recorded h' := by
  have hreg : registerOf h'.journal = registerOf h.journal := by rw [hj, registerOf_aside hk]
  obtain ⟨hsize, hattached, hdismissed, hdelivered⟩ := readings_aside (j := h.journal) hk
  rw [← hj] at hsize hattached hdismissed hdelivered
  refine ⟨?_, ?_, ?_, ?_, ?_, ?_, ?_, ?_, ?_, ?_, ?_⟩
  · rw [hreg, hmem]
    exact hr.members
  · rw [hsize, hmem]
    exact hr.size
  · rw [hattached, hlen]
    exact hr.numbered
  · rw [hreg, hmem, hlen]
    exact hr.places
  · rw [hdismissed, hreg]
    exact hr.dismissed
  · rw [hreg]
    exact fun hs => hr.present (hstage hs)
  · rw [hreg]
    exact hr.snapshots
  · rw [hdelivered, hreg]
    exact hr.delivered
  · rw [hreg]
    exact hr.evicted
  · rw [hreg]
    exact fun hn => hr.finished (hnone hn)
  · intro b' hb'
    obtain ⟨b, hb, hperm⟩ := hsome b' hb'
    obtain ⟨r, rs, hrounds, hover, hev, htargets, hin⟩ := hr.underWay b hb
    rw [hreg, hmem]
    exact ⟨r, rs, hrounds, hover, hev, (hperm.append_left _).trans htargets,
      fun p hp => hin p (hperm.mem_iff.1 hp)⟩

theorem attach (hr : Recorded h) :
    Recorded ({ h with
      queues := h.queues ++ [Queue.mk [] true], members := h.members ++ [h.queues.length] }.note
        (.attached h.queues.length (h.members.length + 1))) := by
  have hreg : registerOf (h.journal ++ [.attached h.queues.length (h.members.length + 1)]) =
      { registerOf h.journal with members := h.members ++ [h.queues.length] } := by
    rw [registerOf_concat, ← hr.members]
    rfl
  have hrange : List.range (h.queues ++ [Queue.mk [] true]).length =
      List.range h.queues.length ++ [h.queues.length] := by
    rw [List.length_append, List.length_singleton, List.range_succ]
  refine ⟨?_, ?_, ?_, ?_, ?_, ?_, ?_, ?_, ?_, ?_, ?_⟩ <;> simp only [note, hreg]
  · intro n hn
    simpa [Occurrence.size?, eq_comm] using hn
  · rw [hrange, ← hr.numbered, attachedIn_concat]
    rfl
  · rw [hrange]
    have hold := hr.places.append_right [h.queues.length]
    have hcomm : ∀ l : List Place, ([h.queues.length] ++ l).Perm (l ++ [h.queues.length]) :=
      fun l => List.perm_append_comm
    refine List.Perm.trans ?_ hold
    simp only [List.append_assoc]
    exact ((hcomm _).append_left _).trans (by simp)
  · simpa [Occurrence.dismissed?] using hr.dismissed
  · exact hr.present
  · exact hr.snapshots
  · simpa [Occurrence.isDelivery] using hr.delivered
  · exact hr.evicted
  · exact hr.finished
  · intro b hb
    obtain ⟨r, rs, hrounds, hover, hev, htargets, hin⟩ := hr.underWay b hb
    exact ⟨r, rs, hrounds, hover, hev, htargets, fun p hp => List.mem_append_left _ (hin p hp)⟩

/-- Beginning a broadcast: `g` is the hub that has taken the event off its queue. -/
theorem broadcast {g : Hub} (hr : Recorded h) (hro : Roster h) (e : Event)
    (hb : h.sending = none) (hq : g.queues = h.queues) (hm : g.members = h.members)
    (hj : g.journal = h.journal) (hst : h.stage ≠ .stopped) : Recorded (g.broadcast e) := by
  have hreg : registerOf (h.journal ++ [.taken e h.members]) =
      { registerOf h.journal with
        rounds := { members := h.members, targets := h.members } ::
          (registerOf h.journal).rounds } := by
    rw [registerOf_concat, ← hr.members]
    rfl
  refine ⟨?_, ?_, ?_, ?_, ?_, ?_, ?_, ?_, ?_, ?_, ?_⟩ <;>
    simp only [Hub.broadcast, note, hj, hm, hq, hreg]
  · exact hr.members
  · simpa [Occurrence.size?] using hr.size
  · simpa [Occurrence.attached?] using hr.numbered
  · exact hr.places
  · simpa [Occurrence.dismissed?] using hr.dismissed
  · exact fun _ => hr.present hst
  · intro r hin
    rcases List.mem_cons.1 hin with rfl | hin
    · exact ⟨rfl, hro.sorted.imp Nat.ne_of_lt⟩
    · exact hr.snapshots r hin
  · simpa [Occurrence.isDelivery] using hr.delivered
  · simpa using hr.evicted
  · rintro ⟨⟩
  · rintro b ⟨⟩
    exact ⟨_, _, rfl, hr.finished hb, rfl, List.Perm.refl _, fun p hp => hp⟩

/-- Giving the event to the subscriber being served. -/
theorem deliver (hr : Recorded h) {b : Broadcast} {p : Place} {rest : List Place}
    (hb : h.sending = some b) (ha : b.ahead = p :: rest) : Recorded (h.deliver b p rest) := by
  obtain ⟨r, rs, hrounds, hover, hev, htargets, hin⟩ := hr.underWay b hb
  have hreg : registerOf (h.journal ++ [.delivered p b.event]) =
      { registerOf h.journal with rounds := { r with delivered := r.delivered ++ [p] } :: rs } := by
    rw [registerOf_concat]
    simp only [Register.enter, hrounds, Register.inRound]
  have hsnap := hr.snapshots
  have hgiven := hr.delivered
  have hgone := hr.evicted
  rw [hrounds] at hsnap hgiven hgone
  have hlen : (h.queues.set p { h.queue p with events := (h.queue p).events ++ [b.event] }).length =
      h.queues.length := List.length_set
  refine ⟨?_, ?_, ?_, ?_, ?_, ?_, ?_, ?_, ?_, ?_, ?_⟩ <;>
    simp only [Hub.deliver, setQueue, note, hreg, hlen]
  · exact hr.members
  · simpa [Occurrence.size?] using hr.size
  · simpa [Occurrence.attached?] using hr.numbered
  · exact hr.places
  · simpa [Occurrence.dismissed?] using hr.dismissed
  · exact hr.present
  · intro x hx
    rcases List.mem_cons.1 hx with rfl | hx
    · exact hsnap r List.mem_cons_self
    · exact hsnap x (List.mem_cons_of_mem _ hx)
  · simp [Occurrence.isDelivery, hgiven]
    omega
  · simpa using hgone
  · rintro ⟨⟩
  · rintro c ⟨⟩
    have hperm : (p :: (b.failed.map Prod.fst ++ rest)).Perm (b.failed.map Prod.fst ++ b.ahead) :=
      ha ▸ List.perm_middle.symm
    refine ⟨_, rs, rfl, hover, hev, ?_, fun q hq => hin q ?_⟩
    · rw [List.append_assoc]
      exact (hperm.append_left _).trans htargets
    · exact hperm.mem_iff.1 (List.mem_cons_of_mem _ hq)

/-- Those who are taken out and those who stay were all in the set. -/
theorem perm_without {members : List Place} {gone : List Place} (hm : members.Nodup)
    (hg : gone.Nodup) (hin : ∀ p ∈ gone, p ∈ members) :
    (members.filter (fun p => !gone.contains p) ++ gone).Perm members := by
  have hsplit := List.filter_append_perm (fun p => gone.contains p) members
  have hgone : (members.filter fun p => gone.contains p).Perm gone := by
    refine (List.perm_ext_iff_of_nodup (hm.filter _) hg).2 fun p => ?_
    rw [List.mem_filter, List.contains_iff_mem]
    exact ⟨And.right, fun hp => ⟨hin p hp, hp⟩⟩
  exact ((List.perm_append_comm).trans (hgone.symm.append_right _)).trans hsplit

/-- Ending a broadcast: those to which a delivery has failed in it are taken out. -/
theorem evict (hr : Recorded h) (hro : Roster h) {b : Broadcast} (hb : h.sending = some b)
    (ha : b.ahead = []) {members : List Place}
    (hm : members = h.members.filter fun p => !(b.failed.map Prod.fst).contains p) :
    Recorded ({ h with sending := none, members }.note (.evicted b.failed members.length)) := by
  obtain ⟨r, rs, hrounds, hover, hev, htargets, hin⟩ := hr.underWay b hb
  rw [ha, List.append_nil] at htargets hin
  have hsnap := hr.snapshots
  have hgiven := hr.delivered
  have hgone := hr.evicted
  rw [hrounds] at hsnap hgiven hgone
  have hnodup : (b.failed.map Prod.fst).Nodup :=
    (List.nodup_append.1 (htargets.nodup_iff.2 (hsnap r List.mem_cons_self).2)).2.1
  have hreg : registerOf (h.journal ++ [.evicted b.failed members.length]) =
      { registerOf h.journal with
        members
        evicted := (registerOf h.journal).evicted ++ b.failed
        rounds := { r with evicted := b.failed } :: rs } := by
    rw [registerOf_concat]
    simp only [Register.enter, hrounds, Register.inRound, hr.members, ← hm, hev, List.nil_append]
  refine ⟨?_, ?_, ?_, ?_, ?_, ?_, ?_, ?_, ?_, ?_, ?_⟩ <;> simp only [note, hreg]
  · simp [Occurrence.size?, eq_comm]
  · simpa [Occurrence.attached?] using hr.numbered
  · have hperm := perm_without (hro.sorted.imp Nat.ne_of_lt) hnodup hin
    rw [← hm] at hperm
    refine List.Perm.trans ?_ hr.places
    refine List.Perm.append_right _ ?_
    rw [List.map_append]
    refine (List.perm_append_comm.append_left _).trans ?_
    rw [← List.append_assoc]
    exact hperm.append_right _
  · simpa [Occurrence.dismissed?] using hr.dismissed
  · exact hr.present
  · intro x hx
    rcases List.mem_cons.1 hx with rfl | hx
    · exact hsnap r List.mem_cons_self
    · exact hsnap x (List.mem_cons_of_mem _ hx)
  · simpa [Occurrence.isDelivery] using hgiven
  · simp only [List.map_cons, List.sum_cons, hev, List.length_nil, Nat.zero_add] at hgone
    simp [hgone, Nat.add_comm]
  · intro _ x hx
    rcases List.mem_cons.1 hx with rfl | hx
    · exact htargets
    · exact hover x hx
  · rintro c ⟨⟩

theorem stop (hr : Recorded h) (hb : h.sending = none) (hst : h.stage ≠ .stopped) (n : Nat) :
    Recorded (h.stop n) := by
  have hreg : registerOf (h.journal ++ [.stopped h.members.length n]) =
      { registerOf h.journal with members := [], dismissed := h.members } := by
    rw [registerOf_concat, Register.enter, hr.present hst, hr.members, List.nil_append]
  refine ⟨?_, ?_, ?_, ?_, ?_, ?_, ?_, ?_, ?_, ?_, ?_⟩ <;> simp only [Hub.stop, note, hreg]
  · simp [Occurrence.size?, eq_comm]
  · simpa [Occurrence.attached?] using hr.numbered
  · have hplaces := hr.places
    rw [hr.present hst, List.append_nil] at hplaces
    exact List.perm_append_comm.trans hplaces
  · have hdismissed := hr.dismissed
    rw [hr.present hst] at hdismissed
    simp [Occurrence.dismissed?, hdismissed]
  · exact fun hs => absurd rfl hs
  · exact hr.snapshots
  · simpa [Occurrence.isDelivery] using hr.delivered
  · exact hr.evicted
  · exact fun _ => hr.finished hb
  · exact fun c hc => by cases hb.symm.trans hc

theorem dispatched {now : Nat} {ts : List Ticket} (hr : Recorded h) (hro : Roster h)
    (hd : Dispatched now h h' ts) : Recorded h' := by
  have hfail : ∀ {b p rest reason}, h.sending = some b → b.ahead = p :: rest →
      Recorded (h.fail now b p rest reason) := by
    intro b p rest reason hb ha
    refine hr.frame (k := [.failed p reason now]) rfl rfl id (by rintro ⟨⟩) ?_ rfl
      (by simp [Occurrence.isAside])
    rintro c ⟨⟩
    exact ⟨b, hb, by simp [ha]⟩
  cases hd with
  | @finish b hb ha hf =>
    -- nobody was lost, hence everybody was given the event
    obtain ⟨r, rs, hrounds, hover, hev, htargets, -⟩ := hr.underWay b hb
    refine ⟨hr.members, hr.size, hr.numbered, hr.places, hr.dismissed, hr.present, hr.snapshots,
      hr.delivered, hr.evicted, fun _ x hx => ?_, by rintro c ⟨⟩⟩
    rcases List.mem_cons.1 (hrounds ▸ hx) with rfl | hx
    · rw [Round.IsOver, hev]
      simpa [ha, hf] using htargets
    · exact hover x hx
  | evict hb ha _ hm => exact hr.evict hro hb ha hm
  | gone hb ha | overdue hb ha => exact hfail hb ha
  | deliver hb ha => exact hr.deliver hb ha
  | @await b p rest hb =>
    refine hr.frame (k := [.waited p now]) rfl rfl id (by rintro ⟨⟩) ?_ rfl
      (by simp [Occurrence.isAside])
    rintro c ⟨⟩
    exact ⟨b, hb, List.Perm.refl _⟩
  | close hb hst =>
    refine hr.frame rfl rfl (fun _ => by simp [hst]) id
      (fun b' hb' => ⟨b', hb', List.Perm.refl _⟩) rfl fun o ho => ?_
    rcases List.mem_cons.1 ho with rfl | ho
    · rfl
    · obtain ⟨w, -, rfl⟩ := List.mem_map.1 ho
      rfl
  | take hb hst | refill hb hst | drain hb hst =>
    exact hr.broadcast hro _ hb rfl rfl rfl (by simp [hst])
  | stop hb hst => exact hr.stop hb (by simp [hst]) _

/-- Every move keeps the register. -/
theorem moved {m : Move} {ts : List Ticket} (hr : Recorded h) (hro : Roster h)
    (hm : Moved h m h' ts) : Recorded h' := by
  have haside : ∀ {g : Hub} {k : List Occurrence}, g.queues.length = h.queues.length →
      g.members = h.members → g.stage = h.stage → g.sending = h.sending →
      g.journal = h.journal ++ k → (∀ o ∈ k, o.isAside = true) → Recorded g := by
    intro g k hlen hmem hstage hsend hj hk
    refine hr.frame hlen hmem (by rw [hstage]; exact id) (by rw [hsend]; exact id) ?_ hj hk
    exact fun b' hb' => ⟨b', hsend ▸ hb', List.Perm.refl _⟩
  cases hm with
  | attach => exact hr.attach
  | dispatch hd => exact hr.dispatched hro hd
  | refuse | look => exact hr
  | drop =>
    exact haside rfl rfl rfl rfl (List.append_assoc _ _ _) (by simp [Occurrence.isAside])
  | @receiveAll p =>
    refine haside (List.length_set) rfl rfl rfl rfl fun o ho => ?_
    obtain ⟨e, -, rfl⟩ := List.mem_map.1 ho
    rfl
  | accept | queue => exact haside rfl rfl rfl rfl rfl (by simp [Occurrence.isAside])
  | detach | receive =>
    exact haside (List.length_set) rfl rfl rfl rfl (by simp [Occurrence.isAside])
  | requestClose | dropSender =>
    exact haside (k := []) rfl rfl rfl rfl (List.append_nil _).symm (by simp)

end Recorded

theorem recorded_follow {h₀ h : Hub} {ms : List Move} {ts : List Ticket} (hro : Roster h₀)
    (h0 : Recorded h₀) (hr : h₀.follow? ms = some (h, ts)) : Recorded h :=
  follow_induction (P := fun _ h _ => Recorded h) h0
    (fun _ _ _ _ _ _ hf ih hm => ih.moved (roster_follow hro hf) hm) hr

/-! ## Who has left -/

section
variable {h h' : Hub} {m : Move} {ts : List Ticket}

/-- Only by attaching anybody enters the set, at a place where nobody was. -/
theorem Moved.members (hm : Moved h m h' ts) : h.queues.length ≤ h'.queues.length ∧
    (h'.members.Sublist h.members ∨
      m = .attach ∧ h'.members = h.members ++ [h.queues.length] ∧
        h'.queues.length = h.queues.length + 1) := by
  have hsame : h'.queues.length = h.queues.length → h'.members = h.members →
      h.queues.length ≤ h'.queues.length ∧ (h'.members.Sublist h.members ∨
        m = .attach ∧ h'.members = h.members ++ [h.queues.length] ∧
          h'.queues.length = h.queues.length + 1) := fun hlen hmem =>
    ⟨Nat.le_of_eq hlen.symm, Or.inl (hmem ▸ List.Sublist.refl _)⟩
  cases hm with
  | attach => exact ⟨by simp [note], Or.inr ⟨rfl, rfl, by simp [note]⟩⟩
  | detach | receive | receiveAll => exact hsame List.length_set rfl
  | dispatch hd =>
    cases hd with
    | evict _ _ _ hmem =>
      subst hmem
      exact ⟨Nat.le_refl _, Or.inl List.filter_sublist⟩
    | stop => exact ⟨Nat.le_refl _, Or.inl (List.nil_sublist _)⟩
    | deliver => exact hsame List.length_set rfl
    | _ => exact hsame rfl rfl
  | _ => exact hsame rfl rfl

/-- A hub that has stopped stays so. -/
theorem Moved.stopped (hm : Moved h m h' ts) (hst : h.stage = .stopped) :
    h'.stage = .stopped := by
  cases hm with
  | dispatch hd =>
    cases hd with
    | close _ hs | take _ hs | refill _ hs | drain _ hs | stop _ hs => cases hst.symm.trans hs
    | finish | evict | gone | deliver | await | overdue => exact hst
  | _ => exact hst

/-- Who has left the set does not return, and a hub that has stopped stays so. -/
theorem follow?_left {ms : List Move} (hr : h.follow? ms = some (h', ts)) :
    h.queues.length ≤ h'.queues.length ∧
      (∀ p < h.queues.length, p ∉ h.members → p ∉ h'.members) ∧
      (h.stage = .stopped → h'.stage = .stopped) := by
  refine follow_induction (P := fun _ g _ => h.queues.length ≤ g.queues.length ∧
    (∀ p < h.queues.length, p ∉ h.members → p ∉ g.members) ∧
    (h.stage = .stopped → g.stage = .stopped)) ⟨Nat.le_refl _, fun _ _ hp => hp, id⟩ ?_ hr
  intro _ g _ m g' _ _ ⟨hlen, hleft, hstopped⟩ hm
  obtain ⟨hle, hmem⟩ := hm.members
  refine ⟨Nat.le_trans hlen hle, fun p hp hnot hin => hleft p hp hnot ?_,
    fun hs => hm.stopped (hstopped hs)⟩
  rcases hmem with hsub | ⟨-, hmem, -⟩
  · exact hsub.subset hin
  · rcases List.mem_append.1 (hmem ▸ hin) with hin | hin
    · exact hin
    · cases List.mem_singleton.1 hin
      exact absurd hp (Nat.not_lt.2 hlen)

end

/-! ## Metrics -/

/-- The value that a hub reports of a metric, if it reports one. -/
def reading? (h : Hub) (m : Metric) : Option Nat := (metricsOf h.feed h.journal).lookup m

/-- The value of a counter of a hub; one that is not reported is zero. -/
def count (h : Hub) (m : Metric) : Nat := (h.reading? m).getD 0

/-- The number that the next subscriber is given. -/
def nextNumber (h : Hub) : Nat := Place.number h.queues.length

section
variable (h : Hub)

theorem reading?_active : h.reading? (.active h.feed) = reportedSize? h.journal := by
  simp [reading?, metricsOf, List.lookup_append, lookup_counter, lookup_reported]

theorem count_delivered : h.count (.delivered h.feed) = deliveredCount h.journal := by
  by_cases hn : deliveredCount h.journal = 0 <;>
    simp [count, reading?, metricsOf, List.lookup_append, lookup_counter, lookup_reported, hn]

theorem count_evicted (reason : Eviction) :
    h.count (.evicted h.feed reason) = evictedCount reason h.journal := by
  by_cases hn : evictedCount reason h.journal = 0 <;> cases reason <;>
    simp [count, reading?, metricsOf, List.lookup_append, lookup_counter, lookup_reported, hn]

theorem count_evicted_add : h.count (.evicted h.feed .timeout) +
    h.count (.evicted h.feed .closed) = (registerOf h.journal).evicted.length := by
  rw [count_evicted, count_evicted, evictedCount_add, registerOf_evicted]

end

/-! ## The accounts -/

/-- The accounts of the set of subscribers. -/
structure Attendance (h : Hub) : Prop where
  /-- Subscribers are numbered from one on, in the order in which they attach. -/
  numbers : (attachedIn h.journal).map Place.number = (List.range h.queues.length).map (· + 1)
  /-- The set is in that order, too. -/
  order : h.members.Sublist (attachedIn h.journal)
  increasing : (h.members.map Place.number).Pairwise (· < ·)
  below : ∀ p ∈ h.members, Place.number p < h.nextNumber
  emptied : h.stage = .stopped → h.members = []
  told : (registerOf h.journal).members = h.members
  gauge : (∃ o ∈ h.journal, o.size? ≠ none) →
    h.reading? (.active h.feed) = some h.members.length
  /-- Whoever attached is in the set, was taken out for one reason, or was dropped when the
      dispatcher stopped. -/
  ways : (h.members ++ (registerOf h.journal).evicted.map Prod.fst ++
    (registerOf h.journal).dismissed).Perm (attachedIn h.journal)
  total : h.nextNumber - 1 = h.members.length + h.count (.evicted h.feed .timeout) +
    h.count (.evicted h.feed .closed) + dismissedCount h.journal
  present : h.stage ≠ .stopped → dismissedCount h.journal = 0
  /-- A broadcast goes to those who are in the set when it begins, each once. -/
  snapshots : ∀ r ∈ (registerOf h.journal).rounds, r.targets = r.members ∧ r.targets.Nodup
  finished : h.sending = none → ∀ r ∈ (registerOf h.journal).rounds, r.IsOver
  shares : h.sending = none → h.count (.delivered h.feed) + h.count (.evicted h.feed .timeout) +
    h.count (.evicted h.feed .closed) =
      ((registerOf h.journal).rounds.map (·.members.length)).sum

namespace Recorded
variable {h : Hub}

theorem gauge (hr : Recorded h) (ho : ∃ o ∈ h.journal, o.size? ≠ none) :
    h.reading? (.active h.feed) = some h.members.length := by
  rw [reading?_active]
  cases hn : reportedSize? h.journal with
  | some n => rw [hr.size n hn]
  | none =>
    obtain ⟨o, ho, hsome⟩ := ho
    rw [reportedSize?, List.getLast?_eq_none_iff, List.filterMap_eq_nil_iff] at hn
    exact absurd (hn o ho) hsome

/-- The shares of the broadcasts add up. -/
theorem shares (hr : Recorded h) (hb : h.sending = none) :
    h.count (.delivered h.feed) + h.count (.evicted h.feed .timeout) +
      h.count (.evicted h.feed .closed) =
        ((registerOf h.journal).rounds.map (·.members.length)).sum := by
  have hsizes : ∀ r ∈ (registerOf h.journal).rounds,
      r.members.length = r.delivered.length + r.evicted.length := by
    intro r hin
    have hlen := (hr.finished hb r hin).length_eq
    rw [← (hr.snapshots r hin).1, ← hlen, List.length_append, List.length_map]
  rw [Nat.add_assoc, count_evicted_add, count_delivered, hr.delivered, hr.evicted,
    List.map_congr_left hsizes]
  generalize (registerOf h.journal).rounds = rounds
  induction rounds with
  | nil => rfl
  | cons r rounds ih =>
    simp only [List.map_cons, List.sum_cons]
    omega

theorem attendance (hr : Recorded h) (hro : Roster h) : Attendance h where
  numbers := by
    rw [hr.numbered]
    rfl
  order := by
    have hsub : h.members.Subperm (List.range h.queues.length) :=
      ((List.sublist_append_left _ _).trans (List.sublist_append_left _ _)).subperm.trans
        hr.places.subperm
    rw [hr.numbered]
    exact List.sublist_of_subperm_of_pairwise hsub hro.sorted List.pairwise_lt_range
  increasing := List.pairwise_map.2 (hro.sorted.imp Nat.succ_lt_succ)
  below p hp := Nat.succ_lt_succ (hro.below p hp)
  emptied hst := (hro.ended hst).1
  told := hr.members
  gauge := hr.gauge
  ways := hr.numbered ▸ hr.places
  total := by
    have hlen := hr.places.length_eq
    simp only [List.length_append, List.length_map, List.length_range] at hlen
    rw [Nat.add_assoc h.members.length, count_evicted_add, hr.dismissed, hlen]
    rfl
  present hst := by
    rw [hr.dismissed, hr.present hst]
    rfl
  snapshots := hr.snapshots
  finished := hr.finished
  shares := hr.shares

end Recorded

/-- **The set of subscribers is accounted for.** At every moment of a run the members are in the
    order in which they attached, with increasing numbers below the next one; whoever attached is
    in the set, was taken out once and for one reason, or was dropped when the dispatcher stopped;
    and between broadcasts every target of every broadcast so far was given the event or taken
    out. The metrics say so. Whoever has left does not return, and a set that is closed is empty
    and stays so. -/
theorem members_accounted {feed : Feed} {settings : Settings} {senders : Nat} {h₀ h : Hub}
    {ms : List Move} {returned : List Ticket} (h0 : start? feed settings senders = some h₀)
    (hr : h₀.follow? ms = some (h, returned)) :
    Attendance h ∧ ∀ ns h' returned', h.follow? ns = some (h', returned') →
      (∀ p ∈ attachedIn h.journal, p ∉ h.members → p ∉ h'.members) ∧
      (h.stage = .stopped → h'.stage = .stopped ∧ h'.members = []) := by
  have hro := Roster.start h0
  have hrec := recorded_follow hro (Recorded.start h0) hr
  have hroster := roster_follow hro hr
  refine ⟨hrec.attendance hroster, fun ns h' returned' hr' => ?_⟩
  obtain ⟨-, hleft, hstopped⟩ := follow?_left hr'
  refine ⟨fun p hp => hleft p ?_, fun hst => ?_⟩
  · rw [hrec.numbered] at hp
    exact List.mem_range.1 hp
  · exact ⟨hstopped hst, ((roster_follow hroster hr').ended (hstopped hst)).1⟩

/-- Of three subscribers one gives up its queue, one is slow, and one attaches when the broadcast
    that finds this out has begun, and is dropped at the end. -/
theorem members_accounted_three : ∃ h₀ h returned, start? .log ⟨4, 1, some 5⟩ 1 = some h₀ ∧
    h₀.follow? [.attach, .attach, .emit 0 ⟨"a", "/m", none⟩, .dispatch 0, .dispatch 0, .detach 1,
      .attach, .dispatch 0, .dispatch 0, .emit 1 ⟨"b", "/m", none⟩, .dispatch 0, .dispatch 0,
      .dispatch 5, .dispatch 5, .dispatch 5, .requestClose, .dispatch 5, .dispatch 5] =
        some (h, returned) ∧
    h.stage = .stopped ∧ h.members = [] ∧ h.nextNumber = 4 ∧
    h.count (.evicted .log .timeout) = 1 ∧ h.count (.evicted .log .closed) = 1 ∧
    dismissedCount h.journal = 1 ∧ h.reading? (.active .log) = some 0 ∧
    h.count (.delivered .log) + 1 + 1 = 2 + 2 := by
  have h0 : start? .log ⟨4, 1, some 5⟩ 1 =
      some ⟨.log, ⟨4, 1, some 5⟩, 1, false, .running, [], [], [], [], none, [.started]⟩ := rfl
  have hr : follow? [.attach, .attach, .emit 0 ⟨"a", "/m", none⟩, .dispatch 0, .dispatch 0,
      .detach 1, .attach, .dispatch 0, .dispatch 0, .emit 1 ⟨"b", "/m", none⟩, .dispatch 0,
      .dispatch 0, .dispatch 5, .dispatch 5, .dispatch 5, .requestClose, .dispatch 5, .dispatch 5]
      ⟨.log, ⟨4, 1, some 5⟩, 1, false, .running, [], [], [], [], none, [.started]⟩ =
        some (_, _) := rfl
  obtain ⟨hat, -⟩ := members_accounted h0 hr
  have hshares := hat.shares rfl
  exact ⟨_, _, _, h0, hr, rfl, hat.emptied rfl, rfl, by decide, by decide, by decide,
    hat.gauge ⟨.attached 0 1, by decide, by decide⟩, hshares⟩

end Hub

end CallFeed

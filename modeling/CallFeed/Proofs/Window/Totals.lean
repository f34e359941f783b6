/-
  CallFeed — what the counts of a window add up to.

  * `Snapshot.Step` is what is done to the counts: an event is recorded, or the counts are taken.
    `Snapshot.follow` does steps and keeps what is taken. A look at a stat subscription does such
    steps (`StatFeed.follow_steps`);
  * `history` is the list of steps in which these groups of events are recorded, each followed by
    a take; any steps are of this form (`exists_history`);
  * `AddsUp x es`: all that is read of the snapshot `x` agrees with the number of the events `es`.
    This follows from its counts (`Counts.addsUp`), as the sum of a table depends on nothing but
    what it tallies (`Tallies.sumRows_eq`);
  * `counters_agree` is all of this for every snapshot that is ever taken.
-/
import CallFeed.Proofs.Window.Counts
import Mathlib.Data.List.Induction
import Mathlib.Data.List.Nodup

namespace CallFeed

/-! ## Tables of counts -/

namespace Table

theorem mem_rows_iff {α : Type} {t : Table α} {key : String} {value : α} :
    (key, value) ∈ t.rows ↔ t.get? key = some value := by
  obtain ⟨rows, hdistinct⟩ := t
  show (key, value) ∈ rows ↔ lookupRows key rows = some value
  induction rows with
  | nil => simp [lookupRows]
  | cons row rows ih =>
    obtain ⟨hhead, hdistinct⟩ := List.nodup_cons.1 hdistinct
    rw [List.mem_cons, lookupRows]
    by_cases hk : row.1 = key
    · -- the key is in no other row
      have hno : (key, value) ∉ rows := by
        rintro hmem
        exact hhead (hk ▸ List.mem_map_of_mem hmem)
      rw [if_pos hk, Option.some.injEq, or_iff_left hno, ← hk, Prod.ext_iff]
      exact ⟨fun h => h.2.symm, fun h => ⟨rfl, h.symm⟩⟩
    · have hne : (key, value) ≠ row := by
        rintro rfl
        exact hk rfl
      rw [if_neg hk, or_iff_right hne, ih hdistinct]

theorem sumRows_alterRows (key : String) (rows : List (String × Nat)) :
    sumRows (alterRows key Snapshot.succ rows) = sumRows rows + 1 := by
  induction rows with
  | nil => rfl
  | cons row rows ih =>
    obtain ⟨k, n⟩ := row
    by_cases hk : k = key
    · simp only [alterRows, if_pos hk, sumRows, Snapshot.succ, Option.getD_some]
      omega
    · simp only [alterRows, if_neg hk, sumRows, ih]
      omega

theorem sumRows_eq_of_perm {rows rows' : List (String × Nat)} (h : rows.Perm rows') :
    sumRows rows = sumRows rows' := by
  induction h with
  | nil => rfl
  | cons row _ ih => rw [sumRows, sumRows, ih]
  | swap row row' rows =>
    simp only [sumRows]
    omega
  | trans _ _ ih ih' => exact ih.trans ih'

end Table

namespace Tallies

variable {t t' : Table Nat} {keys keys' : List String}

/-- The rows of a table of counts are the keys with their numbers. -/
theorem mem_rows_iff (ht : Tallies t keys) {row : String × Nat} :
    row ∈ t.rows ↔ row.2 = keys.count row.1 ∧ row.2 ≠ 0 := by
  obtain ⟨key, n⟩ := row
  rw [Table.mem_rows_iff, ht key]
  show _ ↔ n = keys.count key ∧ n ≠ 0
  by_cases hc : keys.count key = 0
  · rw [if_pos hc]
    constructor
    · intro h
      cases h
    · rintro ⟨rfl, hn⟩
      exact absurd hc hn
  · rw [if_neg hc, Option.some.injEq]
    constructor
    · rintro rfl
      exact ⟨rfl, hc⟩
    · exact fun h => h.1.symm

theorem bounds (ht : Tallies t keys) {row : String × Nat} (hrow : row ∈ t.rows) :
    1 ≤ row.2 ∧ row.2 ≤ keys.length := by
  obtain ⟨hn, hne⟩ := ht.mem_rows_iff.1 hrow
  refine ⟨Nat.one_le_iff_ne_zero.2 hne, ?_⟩
  rw [hn]
  exact List.count_le_length

theorem rows_eq_nil_iff (ht : Tallies t keys) : t.rows = [] ↔ keys = [] := by
  constructor
  · intro h
    refine List.eq_nil_iff_forall_not_mem.2 fun key hkey => ?_
    have hrow : (key, keys.count key) ∈ t.rows :=
      ht.mem_rows_iff.2 ⟨rfl, Nat.ne_of_gt (List.count_pos_iff.2 hkey)⟩
    rw [h] at hrow
    cases hrow
  · rintro rfl
    refine List.eq_nil_iff_forall_not_mem.2 fun row hrow => ?_
    obtain ⟨hn, hne⟩ := ht.mem_rows_iff.1 hrow
    exact hne hn

/-- Tables are the same that count the same keys, in whatever order. -/
theorem perm (ht : Tallies t keys) (ht' : Tallies t' keys') (hkeys : keys.Perm keys') :
    t.rows.Perm t'.rows := by
  have hrows : t.rows.Nodup := List.Nodup.of_map Prod.fst t.distinct
  have hrows' : t'.rows.Nodup := List.Nodup.of_map Prod.fst t'.distinct
  refine (List.perm_ext_iff_of_nodup hrows hrows').2 fun row => ?_
  rw [ht.mem_rows_iff, ht'.mem_rows_iff, hkeys.count_eq]

/-- A table of counts can be made by counting, which adds one to the sum for each key. -/
theorem exists_table (keys : List String) :
    ∃ t, Tallies t keys ∧ Table.sumRows t.rows = keys.length := by
  induction keys using List.reverseRecOn with
  | nil => exact ⟨.empty, tallies_empty, rfl⟩
  | append_singleton keys key ih =>
    obtain ⟨t, ht, hsum⟩ := ih
    refine ⟨t.alter key Snapshot.succ, ht.alter key, ?_⟩
    rw [Table.alter, Table.sumRows_alterRows, hsum, List.length_append, List.length_singleton]

/-- The counts add up to the number of keys. -/
theorem sumRows_eq (ht : Tallies t keys) : Table.sumRows t.rows = keys.length := by
  obtain ⟨t', ht', hsum⟩ := exists_table keys
  rw [← hsum]
  exact Table.sumRows_eq_of_perm (ht.perm ht' (.refl _))

end Tallies

/-! ## Snapshots -/

/-- All that is read of the snapshot agrees with the number of these events. -/
structure AddsUp (x : Snapshot) (es : List Event) : Prop where
  counts : Counts x es
  total : x.total = es.length
  byMethod : Table.sumRows x.byMethod.rows = x.total
  byConsumer : Table.sumRows x.byConsumer.rows = x.total
  /-- No key is counted that has no event, and none outgrows the number of events. -/
  bounded : ∀ row ∈ x.byMethod.rows ++ x.byConsumer.rows, 1 ≤ row.2 ∧ row.2 ≤ es.length
  isEmpty : x.isEmpty = true ↔ x.total = 0
  noMethod : x.byMethod.rows = [] ↔ x.total = 0
  noConsumer : x.byConsumer.rows = [] ↔ x.total = 0

/-- The snapshots have the same rows, and nobody can tell them from each other. -/
structure Snapshot.Same (x y : Snapshot) : Prop where
  byMethod : x.byMethod.rows.Perm y.byMethod.rows
  byConsumer : x.byConsumer.rows.Perm y.byConsumer.rows
  total : x.total = y.total
  isEmpty : x.isEmpty = y.isEmpty

namespace Counts

variable {x y : Snapshot} {es es' : List Event}

theorem addsUp (hx : Counts x es) : AddsUp x es := by
  obtain ⟨hmethod, hconsumer⟩ := hx
  have htotal : x.total = es.length := by
    rw [Snapshot.total, hconsumer.sumRows_eq, List.length_map]
  have hzero : x.total = 0 ↔ es = [] := by
    rw [htotal, List.length_eq_zero_iff]
  have hnoMethod : x.byMethod.rows = [] ↔ x.total = 0 := by
    rw [hmethod.rows_eq_nil_iff, hzero, List.map_eq_nil_iff]
  have hnoConsumer : x.byConsumer.rows = [] ↔ x.total = 0 := by
    rw [hconsumer.rows_eq_nil_iff, hzero, List.map_eq_nil_iff]
  refine ⟨⟨hmethod, hconsumer⟩, htotal, ?_, rfl, fun row hrow => ?_, ?_, hnoMethod, hnoConsumer⟩
  · rw [hmethod.sumRows_eq, List.length_map, htotal]
  · rcases List.mem_append.1 hrow with hrow | hrow
    · rw [← List.length_map Event.method]
      exact hmethod.bounds hrow
    · rw [← List.length_map Event.consumer]
      exact hconsumer.bounds hrow
  · rw [Snapshot.isEmpty, Bool.and_eq_true, List.isEmpty_iff, List.isEmpty_iff, hnoMethod,
      hnoConsumer, and_self]

/-- A snapshot depends on which events there are, and not on their order. -/
theorem same (hx : Counts x es) (hy : Counts y es') (hes : es.Perm es') : x.Same y := by
  have htotal : x.total = y.total := by
    rw [hx.addsUp.total, hy.addsUp.total, hes.length_eq]
  refine ⟨hx.byMethod.perm hy.byMethod (hes.map _), hx.byConsumer.perm hy.byConsumer (hes.map _),
    htotal, ?_⟩
  rw [Bool.eq_iff_iff, hx.addsUp.isEmpty, hy.addsUp.isEmpty, htotal]

end Counts

/-! ## Recording and taking -/

namespace Snapshot

/-- What is done to the counts of a window. -/
inductive Step where
  | record (e : Event)
  /-- The counts are taken, and counting begins anew. -/
  | take

/-- Does steps one after the other, and tells what was taken and what is left. -/
def follow : List Step → Snapshot → List Snapshot × Snapshot
  | [], x => ([], x)
  | .record e :: steps, x => follow steps (x.record e)
  | .take :: steps, x => (x :: (follow steps .empty).1, (follow steps .empty).2)

/-- The steps in which the groups of events are recorded, with a take after each, and then the
    last events. -/
def history (groups : List (List Event)) (last : List Event) : List Step :=
  (groups.flatMap fun es => es.map .record ++ [.take]) ++ last.map .record

theorem history_cons (es : List Event) (groups : List (List Event)) (last : List Event) :
    history (es :: groups) last = es.map .record ++ .take :: history groups last := by
  simp [history]

/-- Any steps record some groups of events, with takes between them. -/
theorem exists_history (steps : List Step) : ∃ groups last, steps = history groups last := by
  induction steps with
  | nil => exact ⟨[], [], rfl⟩
  | cons step steps ih =>
    obtain ⟨groups, last, rfl⟩ := ih
    cases step with
    | take => exact ⟨[] :: groups, last, rfl⟩
    | record e =>
      cases groups with
      | nil => exact ⟨[], e :: last, rfl⟩
      | cons es groups => exact ⟨(e :: es) :: groups, last, rfl⟩

theorem follow_records (es : List Event) (steps : List Step) (x : Snapshot) :
    follow (es.map .record ++ steps) x = follow steps (x.recordAll es) := by
  induction es generalizing x with
  | nil => rfl
  | cons e es ih => exact ih (x.record e)

/-- What is taken counts the events since the take before, and what is left those since the
    last. -/
theorem follow_history (groups : List (List Event)) (last : List Event) :
    List.Forall₂ Counts (follow (history groups last) .empty).1 groups ∧
      Counts (follow (history groups last) .empty).2 last := by
  have hrecorded : ∀ es, Counts (recordAll .empty es) es := counts_empty.recordAll
  induction groups with
  | nil =>
    have hfollow : follow (history [] last) .empty = ([], recordAll .empty last) := by
      simpa [history, follow] using follow_records last [] .empty
    rw [hfollow]
    exact ⟨.nil, hrecorded last⟩
  | cons es groups ih =>
    rw [history_cons, follow_records]
    exact ⟨.cons (hrecorded es) ih.1, ih.2⟩

end Snapshot

/-- The snapshot that a look yields, if it does. -/
def Poll.taken : Poll → List Snapshot
  | snapshot x => [x]
  | pending | closed => []

/-- What a look does to the counts: it records what is queued, and takes the counts if the window
    is over. -/
def StatFeed.steps (f : StatFeed) (now : Nat) (h : Hub) : List Snapshot.Step :=
  (h.queue f.place).events.map .record ++ if f.ticker.due ≤ now then [.take] else []

theorem StatFeed.follow_steps (f : StatFeed) (now : Nat) (h : Hub) :
    Snapshot.follow (f.steps now h) f.counts =
      ((f.poll now h).2.2.taken, (f.poll now h).1.counts) := by
  rw [steps, Snapshot.follow_records]
  by_cases hdue : f.ticker.due ≤ now
  · simp only [poll, if_pos hdue]
    rfl
  · cases hfed : (h.receiveAll f.place).1.feedsPlace f.place <;>
      (simp only [poll, if_neg hdue, hfed]; rfl)

open Snapshot (follow history)

/-- **The two counters of a window never disagree.** Whatever is recorded, and whenever the counts
    are taken: each snapshot, and what is counted at the end, has for each method and for each
    consumer the number of its events since the take before. Both tables add up to the number of
    these events, no key has no event, and a snapshot is empty just if there was none. Two
    snapshots are the same if they were taken after the same events, in whatever order these were
    recorded, and whatever was recorded before. A look at a stat subscription records what is
    queued, and a snapshot that it yields is taken in this way. -/
theorem counters_agree :
    (∀ steps, ∃ groups last, steps = history groups last) ∧
    (∀ groups last, List.Forall₂ AddsUp (follow (history groups last) .empty).1 groups ∧
      AddsUp (follow (history groups last) .empty).2 last) ∧
    (∀ groups last groups' last',
      ∀ p ∈ (follow (history groups last) .empty).1.zip groups,
      ∀ q ∈ (follow (history groups' last') .empty).1.zip groups',
      p.2.Perm q.2 → p.1.Same q.1) ∧
    ∀ (f : StatFeed) now h, follow (f.steps now h) f.counts =
      ((f.poll now h).2.2.taken, (f.poll now h).1.counts) := by
  refine ⟨Snapshot.exists_history, fun groups last => ?_,
    fun groups last groups' last' p hp q hq hperm => ?_, StatFeed.follow_steps⟩
  · obtain ⟨htaken, hleft⟩ := Snapshot.follow_history groups last
    exact ⟨htaken.imp fun _ _ => Counts.addsUp, hleft.addsUp⟩
  · have hcounts : ∀ {groups last}, ∀ p ∈ (follow (history groups last) .empty).1.zip groups,
        Counts p.1 p.2 := by
      intro groups last p hp
      exact (List.forall₂_iff_zip.1 (Snapshot.follow_history groups last).1).2 hp
    exact (hcounts p hp).same (hcounts q hq) hperm

/-- Three calls, of which two have the same consumer, and others the same method. -/
def threeCalls : List Event := [⟨"a", "/m", none⟩, ⟨"b", "/n", none⟩, ⟨"a", "/n", none⟩]

/-- The calls are counted in the first window of one run, and in reverse in the second of
    another. -/
theorem counters_agree_three : ∃ x y : Snapshot,
    (follow (history [threeCalls] []) .empty).1 = [x] ∧
    (follow (history [[⟨"c", "/m", none⟩], threeCalls.reverse] []) .empty).1[1]? = some y ∧
    AddsUp x threeCalls ∧ x.total = 3 ∧ x.Same y ∧
    x.byMethod.rows = [("/m", 1), ("/n", 2)] ∧ y.byMethod.rows = [("/n", 2), ("/m", 1)] := by
  obtain ⟨-, hadds, hsame, -⟩ := counters_agree
  obtain ⟨hx, -⟩ := List.forall₂_cons.1 (hadds [threeCalls] []).1
  have hxy := hsame [threeCalls] [] [[⟨"c", "/m", none⟩], threeCalls.reverse] []
    _ List.mem_cons_self _ (List.mem_cons_of_mem _ List.mem_cons_self)
    (List.reverse_perm threeCalls).symm
  exact ⟨_, _, rfl, rfl, hx, hx.total, hxy, rfl, rfl⟩

end CallFeed

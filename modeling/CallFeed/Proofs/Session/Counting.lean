/-
  CallFeed — how calls are counted.

  * `Session.reading?` is the value that a session reports of a metric, and `Session.count` that
    of a counter; of calls with an outcome it is the number of their notices (`count_calls`);
  * `Session.tally` are these numbers, and all commands but those that make calls leave them as
    they are (`count_calls_perform`).
-/
import CallFeed.Proofs.Session.Driven
import CallFeed.Session.Observe

namespace CallFeed

/-- Whether a command makes calls. -/
def Command.isCall {α : Type} : Command α → Bool
  | .call .. => true
  | _ => false

theorem Metric.name_calls (outcome : String) : (Metric.calls outcome).name =
    "telemetry_calls_total\x7boutcome=" ++ outcome ++ "\x7d" := by
  show "telemetry_calls_total" ++ "\x7b" ++ ("outcome" ++ "=" ++ outcome) ++ "\x7d" = _
  rw [← String.append_assoc, ← String.append_assoc]
  rfl

/-- Of the counters of calls with some outcomes, the one of an outcome is found. -/
theorem lookup_calls (outcome : String) (n : String → Nat) (os : List String) :
    (os.flatMap fun o => counter (.calls o) (n o)).lookup (.calls outcome) =
      if outcome ∈ os ∧ n outcome ≠ 0 then some (n outcome) else none := by
  induction os with
  | nil => simp
  | cons o os ih =>
    rw [List.flatMap_cons, List.lookup_append, lookup_counter, ih]
    by_cases ho : outcome = o
    · subst ho
      by_cases hn : n outcome = 0 <;> simp [hn]
    · simp [ho]

/-- A hub counts no calls. -/
theorem lookup_calls_metricsOf (feed : Feed) (j : List Occurrence) (outcome : String) :
    (metricsOf feed j).lookup (.calls outcome) = none := by
  simp [metricsOf, List.lookup_append, lookup_counter, lookup_reported]

namespace Session

variable {α : Type} {s s' : Session α}

/-! ## Counters -/

/-- The value that is reported of a metric, if one is. -/
def reading? (s : Session α) (m : Metric) : Option Nat := s.metrics.lookup m

/-- The value of a counter; one that is not reported is zero. -/
def count (s : Session α) (m : Metric) : Nat := (s.reading? m).getD 0

theorem count_calls (s : Session α) (outcome : String) : s.count (.calls outcome) =
    if outcome ∈ outcomes then callCount outcome s.notices else 0 := by
  have hwindows : (counter .windows (s.notices.countP Notice.isWindow)).lookup
      (.calls outcome) = none := by
    simp [lookup_counter]
  simp only [count, reading?, metrics, metricsOfNotices, List.lookup_append, hwindows,
    lookup_calls_metricsOf, Option.or_none]
  rw [lookup_calls outcome (callCount · s.notices)]
  by_cases ho : outcome ∈ outcomes <;> by_cases hn : callCount outcome s.notices = 0 <;>
    simp [ho, hn]

/-! ## What counts no call -/

/-- How many calls have had an outcome. -/
def tally (s : Session α) (outcome : String) : Nat := callCount outcome s.notices

theorem tally_of_append {k : List Notice} (hs : s'.notices = s.notices ++ k)
    (hk : ∀ n ∈ k, n.outcome? = none) : s'.tally = s.tally := by
  funext outcome
  have hnone : callCount outcome k = 0 := by
    refine List.countP_eq_zero.2 fun n hn => ?_
    simp [hk n hn]
  rw [tally, hs, callCount_append, hnone, Nat.add_zero, tally]

theorem tally_aside (ha : Aside s s') : s'.tally = s.tally := by
  funext outcome
  rw [tally, ha.notices, tally]

theorem tally_note {n : Notice} (hn : n.outcome? = none) : (s.note n).tally = s.tally :=
  tally_of_append rfl (by simpa using hn)

theorem tally_giveUp (s : Session α) (id : Nat) (x : Subscription) :
    (s.giveUp id x).tally = s.tally := by
  cases x <;> rfl

theorem tally_shutDown (s : Session α) : s.shutDown.1.tally = s.tally := by
  unfold shutDown
  exact tally_note (by split <;> rfl)

theorem tally_fireWatchers (n : Nat) (s : Session α) : (s.fireWatchers n).tally = s.tally :=
  fireWatchers_keeps (P := fun s' => s'.tally = s.tally)
    (fun s' hs => s'.tally_shutDown.trans hs) n rfl

theorem tally_advanceBy (time n : Nat) (s : Session α) : (advanceBy time n s).tally = s.tally := by
  induction n generalizing s with
  | zero => rfl
  | succ n ih =>
    unfold advanceBy
    split
    · rename_i d hd
      have hset := tally_aside (aside_settle { s with now := max s.now d })
      split
      · exact (ih _).trans hset
      · rfl
    · rfl

theorem tally_drainLog (p : Place) (n : Nat) (s : Session α) :
    (drainLog p n s).1.tally = s.tally :=
  drainLog_keeps (P := fun s' => s'.tally = s.tally) (fun _ hs => hs)
    (fun s' hs => (tally_aside (aside_settle s')).trans hs) n rfl

theorem tally_pollStat (s : Session α) (i : Nat) (f : StatFeed) :
    (s.pollStat i f).1.tally = s.tally := by
  have hnone : ∀ r, ∀ n ∈ pollNotices f.seconds r, n.outcome? = none := by
    intro r n hn
    cases r with
    | pending => cases hn
    | snapshot | closed =>
      cases List.mem_singleton.1 hn
      rfl
  exact tally_of_append rfl (hnone _)

theorem tally_awaitSnapshotBy (i n : Nat) (s : Session α) (f : StatFeed) :
    (s.awaitSnapshotBy i n f).1.tally = s.tally :=
  awaitSnapshotBy_keeps (P := fun s' => s'.tally = s.tally)
    (fun s' f' hs => (s'.tally_pollStat i f').trans hs)
    (fun s' hs => (tally_aside (aside_settle s')).trans hs) (fun _ _ hs => hs) n f rfl

theorem tally_streamStat (i n : Nat) (s : Session α) (f : StatFeed) :
    (streamStat i n s f).1.tally = s.tally :=
  streamStat_keeps (P := fun s' => s'.tally = s.tally)
    (fun s' f' hs => (tally_awaitSnapshotBy i _ s' f').trans hs)
    (fun s' hs => (tally_aside (aside_settle s')).trans hs) n f rfl

/-! ## Commands -/

theorem tally_withService {f : Session α → Session α × Reply α} (hf : (f s).1.tally = s.tally) :
    (s.withService f).1.tally = s.tally :=
  withService_keeps (P := fun s' => s'.tally = s.tally) rfl hf

theorem tally_withFound {β : Type} {found : Except Refusal β} {f : β → Session α × Reply α}
    (hf : ∀ x, (f x).1.tally = s.tally) : (s.withFound found f).1.tally = s.tally :=
  withFound_keeps (P := fun s' => s'.tally = s.tally) rfl fun x _ => hf x

theorem tally_act (s : Session α) {c : Command α} (hc : c.isCall = false) :
    (s.act c).1.tally = s.tally := by
  cases c with
  | call => cases hc
  | authorize | watchers => rfl
  | check | isShutDown | reauthorize | release => exact tally_withService rfl
  | attachLog | attachStat => exact tally_withService (by split <;> rfl)
  | detach => exact tally_withFound fun x => tally_giveUp _ _ x
  | receive =>
    refine tally_withFound fun p => ?_
    have hnext : (s.receiveLog p).1.tally = s.tally := rfl
    split <;> rename_i he <;> rw [he] at hnext
    · exact (tally_note rfl).trans hnext
    · exact hnext
  | drain =>
    refine tally_withFound fun p => ?_
    have hnext : (s.drainAllLog p).1.tally = s.tally := tally_drainLog p _ s
    split <;> rename_i he <;> rw [he] at hnext
    · exact (tally_note rfl).trans hnext
    · exact hnext
  | poll => exact tally_withFound fun f => tally_pollStat s _ f
  | snapshot id =>
    refine tally_withFound fun f => ?_
    have hnext : (s.awaitSnapshot (id - 1) f).1.tally = s.tally := tally_awaitSnapshotBy _ _ s f
    split <;> rename_i he <;> rw [he] at hnext <;> exact hnext
  | stream =>
    refine tally_withFound fun x => ?_
    cases x with
    | log p => exact (tally_giveUp _ _ _).trans (tally_drainLog p _ s)
    | stat f => exact (tally_giveUp _ _ _).trans (tally_streamStat _ _ s f)
  | advance => exact (tally_aside (aside_settle _)).trans (tally_advanceBy _ _ s)
  | shutDown => exact tally_withService s.tally_shutDown
  | awaitClosed =>
    refine tally_withService ?_
    split
    · exact tally_note rfl
    · rfl
  | watch =>
    refine tally_withService ?_
    simp only
    split
    · exact tally_fireWatchers 1 _
    · rfl
  | signal =>
    simp only [act]
    split
    · rfl
    · exact tally_fireWatchers _ _

/-- Only a command that makes calls counts any. -/
theorem count_calls_perform (s : Session α) {c : Command α} (hc : c.isCall = false)
    (outcome : String) : (s.perform c).1.count (.calls outcome) = s.count (.calls outcome) := by
  have hact : (s.act c).1.settle.tally = s.tally :=
    (tally_aside (aside_settle _)).trans (s.tally_act hc)
  have hcount : callCount outcome (s.perform c).1.notices = callCount outcome s.notices :=
    congrFun hact outcome
  rw [count_calls, count_calls, hcount]

end Session

end CallFeed

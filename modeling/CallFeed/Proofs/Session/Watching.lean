/-
  CallFeed — stat subscriptions of sessions.

  Every stat subscription that a client of a reached session holds is one that was watched
  from its entry on (`Reached.watched`), so that its snapshots are those of a partition of
  what was put into its queue. What a new subscription has and every look keeps, it has
  (`Reached.stat_induction`); its windows are no shorter than a second
  (`Reached.period`).
-/
import CallFeed.Proofs.Session.Driven
import CallFeed.Proofs.Window.Partition

namespace CallFeed

namespace Session

variable {α : Type} {s s' : Session α} {g g' : List Telling} {who : Option Nat}

/-- The stat subscriptions were watched from their entries on. -/
def StatWatched (s : Session α) : Prop :=
  ∀ (i : Nat) (f : StatFeed), s.subscriptions[i]? = some (some (.stat f)) →
    ∃ opened ws, Watched s.service.stat f opened ws

/-- What is not done by a subscription leaves it watched. -/
theorem watched_of_leads (ho : Owned s) {i : Nat} {f : StatFeed} {h : Hub} {opened : Nat}
    {ws : List Window} (hi : s.subscriptions[i]? = some (some (.stat f))) (hne : who ≠ some i)
    (hl : s.service.stat.Leads (s.MayMove who .stat) h) (hw : Watched s.service.stat f opened ws) :
    Watched h f opened ws := by
  obtain ⟨ms, ts, hr, hms⟩ := hl
  have hlt : f.place < s.service.stat.queues.length := Hub.lt_of_held (ho.held i _ hi)
  have hother : s.service.stat.queues.length ≤ f.place ∨ (∃ j, ∃ x : Subscription, who = some j ∧
      s.subscriptions[j]? = some (some x) ∧ x.feed = .stat ∧ x.place = f.place) → False := by
    rintro (hle | ⟨j, x, hj, hx, hfeed, hplace⟩)
    · exact Nat.not_lt.2 hle hlt
    · exact hne (hj.trans (by rw [ho.apart j i x _ hx hi hfeed hplace]))
  refine hw.follow hr fun m hm hp => ?_
  have hmay := hms m hm
  cases m with
  | detach p | receive p | receiveAll p =>
    obtain rfl := Option.some.inj hp
    exact hother hmay
  | _ => cases hp

theorem Stepped.statWatched (hd : Sound s) (hw : StatWatched s) (hs : Stepped s g who s' g') :
    StatWatched s' := by
  intro i f hi
  rcases hs.subscription hi with ⟨y, hy, -, -, hsame⟩ | ⟨-, -, -, hnew⟩
  · by_cases hne : who = some i
    · -- a subscription of the stat feed that acts looks, or is given up
      cases hs with
      | @giveUp _ j x hj =>
        cases hne
        exact absurd hi (not_mem_giveUp hj)
      | @receive _ j p hj =>
        cases hne
        cases hj.symm.trans hi
      | @poll _ j f₀ hj =>
        cases hne
        obtain ⟨opened, ws, hw₀⟩ := hw i f₀ hj
        have hset : (s.subscriptions.set i (some (.stat (f₀.poll s.now s.service.stat).1)))[i]? =
            some (some (.stat f)) := hi
        rw [List.getElem?_set_self', hj] at hset
        cases hset
        show ∃ opened ws, Watched (f₀.poll s.now s.service.stat).2.1
          (f₀.poll s.now s.service.stat).1 opened ws
        rcases hp : f₀.poll s.now s.service.stat with ⟨f', h', r⟩
        cases r with
        | snapshot x => exact ⟨_, _, hw₀.snapshot hp⟩
        | pending | closed => exact ⟨_, _, hw₀.look hp (by simp)⟩
      | _ => cases hne
    · obtain rfl := hsame hne
      obtain ⟨opened, ws, hw₀⟩ := hw i f hy
      exact ⟨opened, ws, watched_of_leads hd.owned hy hne (hs.leads hd.owned .stat) hw₀⟩
  · obtain ⟨p, seconds, hat, rfl⟩ := hnew f rfl
    exact ⟨_, _, .attach (hd.arises .stat) hat⟩

/-- The stat subscriptions of a reached session were watched from their entries on. -/
theorem Reached.watched (hr : Reached s g) : StatWatched s := by
  induction hr with
  | start => exact fun i f hi => by cases hi
  | step hr hs ih => exact hs.statWatched hr.sound ih

/-! ## What stat subscriptions have -/

/-- What holds of a subscription with a window of a second at least when it is entered, and is
    kept by every look, holds of the stat subscriptions of a reached session. -/
theorem Reached.stat_induction {P : StatFeed → Prop}
    (start : ∀ p now seconds, shortestWindow ≤ seconds → P (.start p now seconds))
    (look : ∀ (f : StatFeed) now h, P f → P (f.poll now h).1) (hr : Reached s g) {i : Nat}
    {f : StatFeed} (hi : s.subscriptions[i]? = some (some (.stat f))) : P f := by
  induction hr generalizing i f with
  | start => cases hi
  | @step s g who s' g' hr hs ih =>
    -- a subscription that was there before is as it was, but for a look of its own
    have hold : ∀ x, s.subscriptions[i]? = some (some x) → x = .stat f → P f := by
      rintro _ hx rfl
      exact ih hx
    have hnew : ∀ x, (s.subscriptions ++ [some x])[i]? = some (some (.stat f)) →
        (x = .stat f → P f) → P f := by
      intro x hx hp
      rcases Nat.lt_trichotomy i s.subscriptions.length with hlt | rfl | hgt
      · rw [List.getElem?_append_left hlt] at hx
        exact ih hx
      · simp only [List.getElem?_concat_length, Option.some.injEq] at hx
        exact hp hx
      · rw [List.getElem?_eq_none (by rw [List.length_append]; exact hgt)] at hx
        cases hx
    cases hs with
    | attachLog hat => exact hnew _ hi (by rintro ⟨⟩)
    | @attachStat _ service seconds f' hat =>
      obtain ⟨h, p, -, -, rfl⟩ := Service.attachStat_eq_ok hat
      refine hnew _ hi ?_
      rintro ⟨⟩
      exact start p s.now seconds (Service.attachStat_seconds hat)
    | @giveUp _ j x hj =>
      rw [subscriptions_giveUp, List.getElem?_set] at hi
      split at hi
      · split at hi <;> cases hi
      · exact ih hi
    | @poll _ j f' hj =>
      have hset : (s.subscriptions.set j (some (.stat (f'.poll s.now s.service.stat).1)))[i]? =
          some (some (.stat f)) := hi
      rw [List.getElem?_set] at hset
      split at hset
      · split at hset
        · cases hset
          exact look f' s.now s.service.stat (ih hj)
        · cases hset
      · exact ih hset
    | _ => exact ih hi

/-- The windows of a subscription are no shorter than a second. -/
theorem Reached.period (hr : Reached s g) {i : Nat} {f : StatFeed}
    (hi : s.subscriptions[i]? = some (some (.stat f))) : 1000 ≤ f.ticker.period := by
  refine hr.stat_induction (P := fun f => 1000 ≤ f.ticker.period) ?_ ?_ hi
  · intro p now seconds hle
    have hlong : longestPeriod = 946080000000 := rfl
    simp only [StatFeed.start, Ticker.start, shortestWindow] at hle ⊢
    omega
  · intro f now h hp
    simp only [StatFeed.poll]
    split <;> exact hp

end Session

end CallFeed

/-
  CallFeed — what comes of a session does not depend on how it is paced.

  * `perform_advance_add`: moving the clock on in two goes is the same as in one, so that what
    happens in between can be seen at every time;
  * `perform_stream_succ`: a stream of snapshots is read one snapshot after the other.
-/
import CallFeed.Proofs.Session.Prompt

namespace CallFeed

namespace Hub

/-- Who can only wait can do so until the limit of its delivery. -/
theorem step?_eq_none_later {h : Hub} {now time : Nat} (hs : h.step? now = none)
    (hd : ∀ d, h.deadline? = some d → time < d) : h.step? time = none := by
  rcases step?_eq_none_iff.1 hs with
    ⟨b, p, rest, since, hb, ha, hsince, hh, hl, -⟩ | hidle | hstopped
  · refine step?_eq_none_iff.2 (Or.inl ⟨b, p, rest, since, hb, ha, hsince, hh, hl, ?_⟩)
    unfold isOverdue
    split
    · rename_i limit hlimit
      have hlt := hd _ (deadline?_eq_some_iff.2 ⟨b, hb, since, hsince, limit, hlimit, rfl⟩)
      simpa using hlt
    · rfl
  · exact step?_eq_none_iff.2 (Or.inr (Or.inl hidle))
  · exact step?_eq_none_iff.2 (Or.inr (Or.inr hstopped))

end Hub

namespace Session

variable {α : Type} {s : Session α} {time : Nat}

/-! ## The clock -/

theorem Settled.clock (hs : Settled s) (hd : ∀ d, s.deadline? = some d → time < d) :
    Settled { s with now := time } := by
  intro feed
  refine Hub.step?_eq_none_later (hs feed) fun d hfeed => ?_
  cases hnext : s.deadline? with
  | none => cases (deadline?_eq_none hnext feed).symm.trans hfeed
  | some d₀ => exact Nat.lt_of_lt_of_le (hd d₀ hnext) ((deadline?_eq_some hnext).2 feed d hfeed)

theorem now_advanceBy (time n : Nat) (s : Session α) : (s.advanceBy time n).now = time := by
  induction n generalizing s with
  | zero => rfl
  | succ n ih =>
    unfold advanceBy
    split
    · split
      · exact ih _
      · rfl
    · rfl

theorem now_advanceTo (time : Nat) (s : Session α) : (s.advanceTo time).now = time :=
  (aside_settle _).now.trans (now_advanceBy time _ s)

/-- The clock moves on at once to a time before every limit. -/
theorem advanceBy_of_lt (hd : ∀ d, s.deadline? = some d → time < d) (n : Nat) :
    s.advanceBy time n = { s with now := time } := by
  cases n with
  | zero => rfl
  | succ n =>
    unfold advanceBy
    split
    · rename_i d hnext
      rw [if_neg (Nat.not_le.2 (hd d hnext))]
    · rfl

/-- The clock moves on by way of a limit. -/
theorem advanceBy_of_le (hs : Settled s) {d : Nat} (hd : s.deadline? = some d) (hle : d ≤ time)
    (n : Nat) : s.advanceBy time (n + 1) = { s with now := d }.settle.advanceBy time n := by
  have hlt := hs.lt_deadline? hd
  rw [advanceBy, hd]
  simp only
  rw [if_pos hle, Nat.max_eq_right (Nat.le_of_lt hlt)]

/-- The state at a limit of a delivery. -/
theorem at_limit (hr : Reached s []) (hs : Settled s) {d : Nat} (hd : s.deadline? = some d) :
    Reached { s with now := d }.settle [] ∧ Settled { s with now := d }.settle ∧
      { s with now := d }.settle.now = d := by
  have hr' : Reached { s with now := d } [] := hr.step (.clock (Nat.le_of_lt (hs.lt_deadline? hd)))
  exact ⟨(onward_settle hr').reached hr', settled_settle hr', (aside_settle _).now⟩

/-- There are no more limits than milliseconds to go. -/
theorem advanceBy_fuel {m n : Nat} (hr : Reached s []) (hs : Settled s) (hm : time ≤ s.now + m)
    (hn : time ≤ s.now + n) : s.advanceBy time m = s.advanceBy time n := by
  induction m generalizing s n with
  | zero =>
    have hd : ∀ d, s.deadline? = some d → time < d := fun d hd =>
      Nat.lt_of_le_of_lt hm (hs.lt_deadline? hd)
    rw [advanceBy_of_lt hd, advanceBy_of_lt hd]
  | succ m ih =>
    by_cases hlimit : ∃ d, s.deadline? = some d ∧ d ≤ time
    · obtain ⟨d, hd, hle⟩ := hlimit
      have hlt := hs.lt_deadline? hd
      obtain ⟨k, rfl⟩ := Nat.exists_eq_succ_of_ne_zero (n := n) (by omega)
      obtain ⟨hr', hs', hnow⟩ := at_limit hr hs hd
      rw [advanceBy_of_le hs hd hle, advanceBy_of_le hs hd hle]
      exact ih hr' hs' (by omega) (by omega)
    · have hd : ∀ d, s.deadline? = some d → time < d := fun d hd =>
        Nat.not_le.1 fun hle => hlimit ⟨d, hd, hle⟩
      rw [advanceBy_of_lt hd, advanceBy_of_lt hd]

theorem advanceTo_of_lt (hs : Settled s) (hd : ∀ d, s.deadline? = some d → time < d) :
    s.advanceTo time = { s with now := time } := by
  rw [advanceTo, advanceBy_of_lt hd, settle_of_settled (hs.clock hd)]

theorem advanceTo_of_le (hr : Reached s []) (hs : Settled s) {d : Nat} (hd : s.deadline? = some d)
    (hle : d ≤ time) : s.advanceTo time = { s with now := d }.settle.advanceTo time := by
  have hlt := hs.lt_deadline? hd
  obtain ⟨hr', hs', hnow⟩ := at_limit hr hs hd
  rw [advanceTo, advanceTo, hnow, advanceBy_fuel (n := time - s.now - 1 + 1) hr hs (by omega)
    (by omega), advanceBy_of_le hs hd hle]
  exact congrArg settle (advanceBy_fuel hr' hs' (by omega) (by omega))

/-- The clock can stop on its way. -/
theorem advanceTo_advanceTo {t : Nat} (hr : Reached s []) (hs : Settled s) (hfrom : s.now ≤ t)
    (hle : t ≤ time) :
    (s.advanceTo t).advanceTo time = s.advanceTo time := by
  induction hk : t - s.now using Nat.strongRecOn generalizing s with
  | ind k ih =>
    by_cases hlimit : ∃ d, s.deadline? = some d ∧ d ≤ t
    · obtain ⟨d, hd, hdt⟩ := hlimit
      have hlt := hs.lt_deadline? hd
      obtain ⟨hr', hs', hnow⟩ := at_limit hr hs hd
      rw [advanceTo_of_le hr hs hd hdt, advanceTo_of_le hr hs hd (Nat.le_trans hdt hle)]
      exact ih (t - d) (by omega) hr' hs' (by omega) (by rw [hnow])
    · have hd : ∀ d, s.deadline? = some d → t < d := fun d hd =>
        Nat.not_le.1 fun hle => hlimit ⟨d, hd, hle⟩
      have hr' : Reached { s with now := t } [] := hr.step (.clock hfrom)
      rw [advanceTo_of_lt hs hd]
      by_cases hlater : ∃ d, s.deadline? = some d ∧ d ≤ time
      · obtain ⟨d, hd', hdt⟩ := hlater
        rw [advanceTo_of_le hr hs hd' hdt]
        exact advanceTo_of_le hr' (hs.clock hd) hd' hdt
      · have hd' : ∀ d, s.deadline? = some d → time < d := fun d hd' =>
          Nat.not_le.1 fun hle => hlater ⟨d, hd', hle⟩
        rw [advanceTo_of_lt hs hd']
        exact advanceTo_of_lt (hs.clock hd) hd'

theorem perform_advance (hr : Reached s []) (ms : Nat) :
    (s.perform (.advance ms)).1 = s.advanceTo (s.now + ms) := by
  have hby := onward_advanceBy (s.now + ms + 1 - s.now) hr (Nat.le_add_right s.now ms)
    (Or.inl (by omega))
  have hsettled : Settled (s.advanceTo (s.now + ms)) := by
    rw [advanceTo]
    exact settled_settle (hby.reached hr)
  simp only [perform, act, settle_of_settled hsettled]

/-- Moving the clock on in two goes is the same as in one. -/
theorem perform_advance_add (hr : Reached s []) (hs : Settled s) (a b : Nat) :
    ((s.perform (.advance a)).1.perform (.advance b)).1 = (s.perform (.advance (a + b))).1 := by
  have hr' := reached_perform (.advance a) hr
  rw [perform_advance hr', perform_advance hr, perform_advance hr, now_advanceTo, Nat.add_assoc]
  exact advanceTo_advanceTo hr hs (Nat.le_add_right _ _) (by omega)

/-! ## Streams of snapshots -/

/-- A stream begins with the first snapshot that is waited for. -/
theorem perform_stream_succ {id n : Nat} {z : Snapshot} (hr : Reached s [])
    (hz : (s.perform (.snapshot id)).2 = .polled (.snapshot z)) :
    (s.perform (.stream id (n + 1))).1 = ((s.perform (.snapshot id)).1.perform (.stream id n)).1 ∧
      ∀ zs stop, ((s.perform (.snapshot id)).1.perform (.stream id n)).2 = .snapshots zs stop →
        (s.perform (.stream id (n + 1))).2 = .snapshots (z :: zs) stop := by
  cases hf : s.findStat id with
  | error r =>
    simp only [perform, act, hf, withFound] at hz
    cases hz
  | ok f =>
    obtain ⟨i, rfl, hi⟩ := findStat_eq_ok hf
    obtain ⟨-, hi', hplace⟩ := onward_awaitSnapshot hr hi
    have hfind : s.find (i + 1) = .ok (.stat f) := by simp [find, hi]
    simp only [perform, act, hf, hfind, withFound, Nat.add_sub_cancel, streamStat] at hz ⊢
    generalize s.awaitSnapshot i f = r at hz hi' hplace ⊢
    obtain ⟨t, f', y⟩ := r
    cases y with
    | none => cases hz
    | some z' =>
      cases hz
      have hi'' : t.settle.subscriptions[i]? = some (some (.stat f')) := by
        rw [(aside_settle t).subscriptions]
        exact hi'
      have hfind' : t.settle.find (i + 1) = .ok (.stat f') := by simp [find, hi'']
      simp only [hfind']
      have hplace' : f'.place = f.place := hplace
      have hgive : ∀ u : Session α, u.giveUp (i + 1) (.stat f) = u.giveUp (i + 1) (.stat f') :=
        fun u => by simp only [giveUp, hplace']
      refine ⟨by rw [hgive], ?_⟩
      rintro zs stop ⟨⟩
      rfl

end Session

end CallFeed

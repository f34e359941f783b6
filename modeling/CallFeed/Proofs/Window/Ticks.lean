/-
  CallFeed — the ticks of a stat subscription.

  A tick that is taken is followed by the next one period later, counted from the tick or, if it
  was taken late by more than `Ticker.grace`, from the moment at which it was taken.

  * `Return` is a call for a snapshot that has returned, and `Ticks` are those calls that have
    taken a tick, one after the other;
  * `Ticks.succ`: one tick is due a period after the one before at least, and is taken no sooner
    than a period after that was taken, less `Ticker.grace`;
  * `Ticks.le_due` and `Ticks.length_le` bound when ticks are due and how many there are, and
    `Ticks.time_eq` tells when they are taken by who is never late.
-/
import CallFeed.Window
import Mathlib.Tactic.Common

namespace CallFeed

/-- A call for a snapshot that has returned. -/
structure Return where
  /-- When it was made. -/
  asked : Nat
  /-- The end of the window that it found. -/
  due : Nat
  /-- When it returned. -/
  time : Nat

/-- Calls that took the ticks of a ticker, which was `t₀` at first, and what the ticker has
    become. -/
inductive Ticks (t₀ : Ticker) : List Return → Ticker → Prop
  | nil : Ticks t₀ [] t₀
  | take {rs t asked now} : Ticks t₀ rs t → t.due ≤ now →
      Ticks t₀ (rs ++ [⟨asked, t.due, now⟩]) (t.tick now)

/-- When a tick is due that comes after these calls. -/
def dueAfter (t₀ : Ticker) (rs : List Return) : Nat :=
  match rs.getLast? with
  | none => t₀.due
  | some r => ({ t₀ with due := r.due }.tick r.time).due

namespace Ticks
variable {t₀ t : Ticker} {rs : List Return} {r r' : Return} {k : Nat}

theorem period (ht : Ticks t₀ rs t) : t.period = t₀.period := by
  induction ht with
  | nil => rfl
  | take _ _ ih => exact ih

theorem due (ht : Ticks t₀ rs t) : t.due = dueAfter t₀ rs := by
  cases ht with
  | nil => rfl
  | take ht => simp only [dueAfter, List.getLast?_concat, Ticker.tick, ht.period]

/-- A tick comes after those before it. -/
theorem due_eq (ht : Ticks t₀ rs t) (hr : rs[k]? = some r) :
    r.due = dueAfter t₀ (rs.take k) ∧ r.due ≤ r.time := by
  induction ht with
  | nil => simp at hr
  | @take rs t asked now ht hdue ih =>
    rcases Nat.lt_trichotomy k rs.length with hlt | rfl | hgt
    · rw [List.getElem?_append_left hlt] at hr
      rw [List.take_append_of_le_length (Nat.le_of_lt hlt)]
      exact ih hr
    · rw [List.getElem?_concat_length] at hr
      cases hr
      rw [List.take_left]
      exact ⟨ht.due, hdue⟩
    · rw [List.getElem?_eq_none (by rw [List.length_append]; exact hgt)] at hr
      cases hr

/-- The first tick is the one that was due at first. -/
theorem first (ht : Ticks t₀ rs t) (hr : rs[0]? = some r) : r.due = t₀.due :=
  (ht.due_eq hr).1

/-- From one tick to the next. -/
theorem due_succ (ht : Ticks t₀ rs t) (hr : rs[k]? = some r) (hr' : rs[k + 1]? = some r') :
    r'.due = if r.time ≤ r.due + Ticker.grace then r.due + t₀.period
      else r.time + t₀.period := by
  have hlast : (rs.take (k + 1)).getLast? = some r := by
    rw [List.getLast?_take, if_neg (Nat.succ_ne_zero k), Nat.add_sub_cancel, hr, Option.some_or]
  rw [(ht.due_eq hr').1, dueAfter, hlast]
  rfl

/-- Ticks are a period apart, and are taken no closer to each other than that, less
    `Ticker.grace`. -/
theorem succ (ht : Ticks t₀ rs t) (hr : rs[k]? = some r) (hr' : rs[k + 1]? = some r') :
    r.due + t₀.period ≤ r'.due ∧ r.time + t₀.period ≤ r'.time + Ticker.grace := by
  have hnext := ht.due_succ hr hr'
  have hle := (ht.due_eq hr).2
  have hle' := (ht.due_eq hr').2
  split at hnext <;> omega

/-- What comes before a tick. -/
theorem exists_pred (hr : rs[k + 1]? = some r') : ∃ r, rs[k]? = some r := by
  obtain ⟨hlt, -⟩ := List.getElem?_eq_some_iff.1 hr
  exact ⟨_, List.getElem?_eq_getElem (Nat.lt_of_succ_lt hlt)⟩

/-- No tick is due before its turn. -/
theorem le_due (ht : Ticks t₀ rs t) (hr : rs[k]? = some r) :
    t₀.due + k * t₀.period ≤ r.due := by
  induction k generalizing r with
  | zero => simp [ht.first hr]
  | succ k ih =>
    obtain ⟨x, hx⟩ := exists_pred hr
    have hbefore := ih hx
    have hstep := (ht.succ hx hr).1
    rw [Nat.succ_mul]
    omega

/-- Who takes each tick when it is due takes one each period. -/
theorem time_eq (ht : Ticks t₀ rs t) (hr : rs[k]? = some r)
    (hprompt : ∀ j ≤ k, ∀ x, rs[j]? = some x → x.time = x.due) :
    r.time = t₀.due + k * t₀.period := by
  induction k generalizing r with
  | zero =>
    rw [hprompt 0 (Nat.le_refl _) r hr, ht.first hr, Nat.zero_mul, Nat.add_zero]
  | succ k ih =>
    obtain ⟨x, hx⟩ := exists_pred hr
    have hbefore := ih hx fun j hj => hprompt j (Nat.le_succ_of_le hj)
    have hnow := hprompt k (Nat.le_succ k) x hx
    have hstep := ht.due_succ hx hr
    rw [if_pos (by omega)] at hstep
    rw [hprompt (k + 1) (Nat.le_refl _) r hr, Nat.succ_mul]
    omega

/-- There are no more ticks than periods have passed, if the first comes after one. -/
theorem length_le {a now : Nat} (ht : Ticks t₀ rs t) (hfirst : a + t₀.period ≤ t₀.due)
    (hpos : 0 < t₀.period) (hnow : ∀ r ∈ rs, r.time ≤ now) :
    rs.length ≤ (now - a) / t₀.period := by
  rw [Nat.le_div_iff_mul_le hpos]
  cases hlen : rs.length with
  | zero => simp
  | succ k =>
    obtain ⟨r, hlast⟩ : ∃ r, rs[k]? = some r :=
      ⟨_, List.getElem?_eq_getElem (Nat.lt_of_lt_of_eq (Nat.lt_succ_self k) hlen.symm)⟩
    have hle := ht.le_due hlast
    have hdue := (ht.due_eq hlast).2
    have htime := hnow r (List.mem_of_getElem? hlast)
    rw [Nat.succ_mul]
    omega

end Ticks

end CallFeed

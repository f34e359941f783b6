/-
  CallFeed — sessions in which everybody acts at once.

  Time passes in a session only when nobody has anything left to do.

  * `Prompt` leads from one state to another by such steps; punctual steps that take no time are
    prompt (`Onward.prompt`);
  * `prompt_perform`: doing a command in a session that has settled is a run of prompt steps.
-/
import CallFeed.Proofs.Session.Driven

namespace CallFeed

/-- Whether a command waits for something that comes with time only. -/
def Command.takesTime {α : Type} : Command α → Bool
  | .advance _ | .snapshot _ | .stream _ _ => true
  | _ => false

namespace Session

variable {α : Type}

/-- From `s₀`, where the calls `g₀` go on, punctual steps lead to these states, and time passes
    only when no dispatcher has anything to do. -/
inductive Prompt (s₀ : Session α) (g₀ : List Telling) : Session α → List Telling → Prop
  | refl : Prompt s₀ g₀ s₀ g₀
  | step {s g who s' g'} : Prompt s₀ g₀ s g → Stepped s g who s' g' → Punctual s s' →
      (s'.now = s.now ∨ Settled s) → Prompt s₀ g₀ s' g'

section
variable {s s' s'' : Session α} {g g' g'' : List Telling}

namespace Prompt

theorem trans (h1 : Prompt s g s' g') (h2 : Prompt s' g' s'' g'') : Prompt s g s'' g'' := by
  induction h2 with
  | refl => exact h1
  | step _ hs hp ht ih => exact ih.step hs hp ht

theorem reached (ho : Prompt s g s' g') (hr : Reached s g) : Reached s' g' := by
  induction ho with
  | refl => exact hr
  | step _ hs _ _ ih => exact ih.step hs

end Prompt

theorem Onward.now_le (ho : Onward s g s' g') : s.now ≤ s'.now := by
  induction ho with
  | refl => exact Nat.le_refl _
  | step _ hs _ ih => exact Nat.le_trans ih hs.now_le

/-- Steps that take no time are prompt. -/
theorem Onward.prompt (ho : Onward s g s' g') (hnow : s'.now = s.now) : Prompt s g s' g' := by
  induction ho with
  | refl => exact .refl
  | step ho hs hp ih =>
    have hle := ho.now_le
    have hle' := hs.now_le
    exact (ih (by omega)).step hs hp (Or.inl (by omega))

end

variable {s : Session α}

theorem prompt_settle (hr : Reached s []) : Prompt s [] s.settle [] :=
  (onward_settle hr).prompt (aside_settle s).now

/-! ## The clock -/

theorem prompt_clock {g : List Telling} {time : Nat} (hs : Settled s) (hle : s.now ≤ time)
    (hd : ∀ d, s.deadline? = some d → time ≤ max s.now d) :
    Prompt s g { s with now := time } g :=
  .step .refl (.clock hle) (punctual_clock hd) (Or.inr hs)

theorem prompt_advanceBy {time : Nat} (n : Nat) (hr : Reached s []) (hs : Settled s)
    (hle : s.now ≤ time) (hn : time ≤ s.now + n) : Prompt s [] (s.advanceBy time n) [] := by
  induction n generalizing s with
  | zero =>
    refine prompt_clock hs hle fun d _ => ?_
    have := Nat.le_max_left s.now d
    omega
  | succ n ih =>
    unfold advanceBy
    split
    · rename_i d hd
      split
      · rename_i hdle
        have hclock : Prompt s [] { s with now := max s.now d } [] :=
          prompt_clock hs (Nat.le_max_left _ _) fun d' hd' =>
            Option.some.inj (hd.symm.trans hd') ▸ Nat.le_refl _
        have hr' := hclock.reached hr
        have hnow := (aside_settle { s with now := max s.now d }).now
        refine (hclock.trans (prompt_settle hr')).trans
          (ih ((prompt_settle hr').reached hr') (settled_settle hr') ?_ ?_) <;> rw [hnow]
        · exact Nat.max_le.2 ⟨hle, hdle⟩
        · have hlt := hs.lt_deadline? hd
          show time ≤ max s.now d + n
          omega
      · rename_i hdle
        refine prompt_clock hs hle fun d' hd' => ?_
        cases hd.symm.trans hd'
        exact Nat.le_trans (Nat.le_of_not_le hdle) (Nat.le_max_right _ _)
    · rename_i hd
      refine prompt_clock hs hle fun d hd' => ?_
      cases hd.symm.trans hd'

theorem prompt_advanceTo {time : Nat} (hr : Reached s []) (hs : Settled s) (hle : s.now ≤ time) :
    Prompt s [] (s.advanceTo time) [] := by
  have hby := prompt_advanceBy (time + 1 - s.now) hr hs hle (by omega)
  exact hby.trans (prompt_settle (hby.reached hr))

/-! ## Waiting for snapshots -/

theorem prompt_awaitSnapshotBy {i : Nat} {f : StatFeed} (n : Nat) (hr : Reached s [])
    (hi : s.subscriptions[i]? = some (some (.stat f))) :
    Prompt s [] (awaitSnapshotBy i n s f).1 [] := by
  induction n generalizing s f with
  | zero => exact .refl
  | succ n ih =>
    have hnext : Prompt s [] (s.pollStat i f).1 [] := (Onward.one (.poll hi) rfl).prompt rfl
    unfold awaitSnapshotBy
    split
    · rename_i s' f' x hp
      rwa [hp] at hnext
    · rename_i s' f' hp
      rwa [hp] at hnext
    · rename_i s' f' hp
      obtain ⟨hi', -, hdue⟩ := pollStat_subscription hi hp
      rw [hp] at hnext
      have hr' := hnext.reached hr
      have hset := hnext.trans (prompt_settle hr')
      have haside := aside_settle s'
      have hi'' : s'.settle.subscriptions[i]? = some (some (.stat f')) := by
        rwa [haside.subscriptions]
      simp only
      split
      · exact hset.trans (ih (hset.reached hr) hi'')
      · have hle : s'.settle.now ≤ s'.settle.nextTime f' :=
          now_le_nextTime (haside.now.symm ▸ hdue rfl)
        have hclock := hset.trans (prompt_clock (settled_settle hr') hle fun d hd => nextTime_le hd)
        exact hclock.trans (ih (hclock.reached hr) hi'')

theorem prompt_awaitSnapshot {i : Nat} {f : StatFeed} (hr : Reached s [])
    (hi : s.subscriptions[i]? = some (some (.stat f))) :
    Prompt s [] (s.awaitSnapshot i f).1 [] :=
  prompt_awaitSnapshotBy _ hr hi

theorem prompt_streamStat {i : Nat} {f : StatFeed} (n : Nat) (hr : Reached s [])
    (hi : s.subscriptions[i]? = some (some (.stat f))) :
    Prompt s [] (streamStat i n s f).1 [] := by
  induction n generalizing s f with
  | zero => exact .refl
  | succ n ih =>
    have hnext := prompt_awaitSnapshot hr hi
    obtain ⟨-, hi', -⟩ := onward_awaitSnapshot hr hi
    unfold streamStat
    split
    · rename_i s' f' x hp
      rw [hp] at hnext hi'
      have hset := hnext.trans (prompt_settle (hnext.reached hr))
      refine hset.trans (ih (hset.reached hr) ?_)
      rw [(aside_settle s').subscriptions]
      exact hi'
    · rename_i s' f' hp
      rwa [hp] at hnext

/-! ## Commands -/

theorem now_makeCalls (r : Request α) (n : Nat) (s : Session α) :
    (s.makeCalls r n).1.now = s.now := by
  induction n generalizing s with
  | zero => rfl
  | succ n ih => exact (ih (s.makeCall r)).trans (aside_makeCall s r).now

theorem now_drainLog (p : Place) (n : Nat) (s : Session α) : (drainLog p n s).1.now = s.now :=
  drainLog_keeps (P := fun s' => s'.now = s.now) (fun _ hnow => hnow)
    (fun s' hnow => (aside_settle s').now.trans hnow) n rfl

theorem now_fireWatchers (n : Nat) (s : Session α) : (s.fireWatchers n).now = s.now :=
  fireWatchers_keeps (P := fun s' => s'.now = s.now) (fun _ hnow => hnow) n rfl

theorem now_giveUp (s : Session α) (id : Nat) (x : Subscription) : (s.giveUp id x).now = s.now := by
  cases x <;> rfl

theorem now_withService {f : Session α → Session α × Reply α} (hf : (f s).1.now = s.now) :
    (s.withService f).1.now = s.now :=
  withService_keeps (P := fun s' => s'.now = s.now) rfl hf

theorem now_withFound {β : Type} {found : Except Refusal β} {f : β → Session α × Reply α}
    (hf : ∀ x, (f x).1.now = s.now) : (s.withFound found f).1.now = s.now :=
  withFound_keeps (P := fun s' => s'.now = s.now) rfl fun x _ => hf x

theorem now_act (s : Session α) {c : Command α} (hc : c.takesTime = false) :
    (s.act c).1.now = s.now := by
  cases c with
  | call times r =>
    cases times with
    | none => exact (aside_makeCall s r).now
    | some n => exact now_makeCalls r n s
  | authorize | watchers => rfl
  | check | isShutDown | reauthorize | shutDown | release => exact now_withService rfl
  | attachLog | attachStat => exact now_withService (by split <;> rfl)
  | detach => exact now_withFound fun x => now_giveUp _ _ x
  | receive =>
    refine now_withFound fun p => ?_
    have hnow : (s.receiveLog p).1.now = s.now := rfl
    split <;> rename_i he <;> rw [he] at hnow <;> exact hnow
  | drain =>
    refine now_withFound fun p => ?_
    have hnow : (s.drainAllLog p).1.now = s.now := now_drainLog p _ s
    split <;> rename_i he <;> rw [he] at hnow <;> exact hnow
  | poll => exact now_withFound fun f => rfl
  | awaitClosed => exact now_withService (by split <;> rfl)
  | watch =>
    refine now_withService ?_
    simp only
    split
    · exact now_fireWatchers 1 _
    · rfl
  | signal =>
    simp only [act]
    split
    · rfl
    · exact now_fireWatchers _ _
  | advance | snapshot | stream => cases hc

theorem prompt_withFound {β : Type} {found : Except Refusal β} {f : β → Session α × Reply α}
    (hf : ∀ x, found = .ok x → Prompt s [] (f x).1 []) :
    Prompt s [] (s.withFound found f).1 [] :=
  withFound_keeps (P := fun s' => Prompt s [] s' []) .refl hf

/-- Doing a command in a session that has settled is a run of prompt steps. -/
theorem prompt_act (c : Command α) (hr : Reached s []) (hs : Settled s) :
    Prompt s [] (s.act c).1 [] := by
  cases hc : c.takesTime with
  | false => exact (onward_act c hr).prompt (now_act s hc)
  | true =>
    cases c with
    | advance ms => exact prompt_advanceTo hr hs (Nat.le_add_right _ _)
    | snapshot id =>
      refine prompt_withFound fun f hf => ?_
      obtain ⟨i, rfl, hi⟩ := findStat_eq_ok hf
      have hnext := prompt_awaitSnapshot hr hi
      rw [Nat.add_sub_cancel]
      split <;>
      · rename_i he
        rw [he] at hnext
        exact hnext
    | stream id n =>
      refine prompt_withFound fun x hx => ?_
      obtain ⟨i, rfl, hi⟩ := find_eq_ok hx
      cases x with
      | log p =>
        obtain ⟨hnext, hi'⟩ := onward_drainLog n hr hi
        exact (hnext.trans (.one (.giveUp hi') rfl)).prompt (now_drainLog p n s)
      | stat f =>
        obtain ⟨-, f', hplace, hi'⟩ := onward_streamStat n hr hi
        have hgive : Prompt _ [] ((streamStat i n s f).1.giveUp (i + 1) (.stat f')) [] :=
          (Onward.one (.giveUp hi') rfl).prompt rfl
        simp only [giveUp, hplace] at hgive
        exact (prompt_streamStat n hr hi).trans hgive
    | _ => cases hc

theorem prompt_perform (c : Command α) (hr : Reached s []) (hs : Settled s) :
    Prompt s [] (s.perform c).1 [] := by
  have hact := prompt_act c hr hs
  exact hact.trans (prompt_settle (hact.reached hr))

end Session

end CallFeed

/-
  CallFeed — sessions driven by commands.

  Doing a command is a run of punctual steps (`onward_perform`), so that sessions that were
  begun with `Session.open?` and driven by `Session.perform` are reached states, in which
  nothing is left to do (`reached_perform`, `settled_perform`). As the clock passes no limit,
  what happens to each hub meanwhile is a timeline of it (`Timed.onward`, `timed_perform`).
  What every turn of a reading keeps is there when it ends (`drainLog_keeps`,
  `awaitSnapshotBy_keeps`, `streamStat_keeps`).
-/
import CallFeed.Proofs.Hub.Timeline
import CallFeed.Proofs.Session.Settling
import Mathlib.Data.List.ReduceOption

namespace CallFeed

namespace Session

variable {α : Type} {s : Session α}

/-! ## Calls -/

theorem makeCall_eq (s : Session α) (r : Request α) : s.makeCall r =
    match (s.service.consider r).event with
    | some e => ((s.enterCall r).tell s.calls.length e (s.service.rules.feedsOf e.method)).settle
    | none => s.enterCall r := rfl

/-- A call that is decided on tells its feeds, and everything settles. -/
theorem onward_enterCall (r : Request α) (hr : Reached s []) :
    Onward (s.enterCall r) (s.toTell r) (s.makeCall r) [] := by
  have hcall : Reached (s.enterCall r) (s.toTell r) := hr.step (.call r)
  unfold toTell at hcall ⊢
  rw [makeCall_eq]
  cases he : (s.service.consider r).event with
  | none => exact .refl
  | some e =>
    rw [he] at hcall
    obtain ⟨m, htold⟩ := works_tell (fun _ => False) s.calls.length e
      (s.service.rules.feedsOf e.method) (s.enterCall r) []
    exact htold.onward.trans (onward_settle (htold.reached hcall))

theorem onward_makeCall (r : Request α) (hr : Reached s []) : Onward s [] (s.makeCall r) [] :=
  (Onward.one (.call r) rfl).trans (onward_enterCall r hr)

theorem aside_makeCall (s : Session α) (r : Request α) :
    Aside (s.enterCall r) (s.makeCall r) := by
  rw [makeCall_eq]
  split
  · exact (aside_tell _ _ _ _).trans (aside_settle _)
  · exact .refl _

theorem onward_makeCalls (r : Request α) (n : Nat) (hr : Reached s []) :
    Onward s [] (s.makeCalls r n).1 [] := by
  induction n generalizing s with
  | zero => exact .refl
  | succ n ih =>
    have hcall := onward_makeCall r hr
    exact hcall.trans (ih (hcall.reached hr))

/-! ## The clock -/

/-- The next delivery that is given up is the first to be given up of both hubs. -/
theorem deadline?_eq_some {d : Nat} (hd : s.deadline? = some d) :
    (∃ feed, (s.service.hub feed).deadline? = some d) ∧
      ∀ feed d', (s.service.hub feed).deadline? = some d' → d ≤ d' := by
  obtain ⟨hmem, hle⟩ := List.min?_eq_some_iff.1 hd
  rw [List.reduceOption_mem_iff] at hmem
  refine ⟨?_, fun feed d' hd' => hle d' (List.reduceOption_mem_iff.2 ?_)⟩
  · rcases List.mem_pair.1 hmem with h | h
    · exact ⟨.log, h.symm⟩
    · exact ⟨.stat, h.symm⟩
  · rw [← hd']
    cases feed
    · exact List.mem_cons_self
    · exact List.mem_cons_of_mem _ List.mem_cons_self

theorem deadline?_eq_none (hd : s.deadline? = none) (feed : Feed) :
    (s.service.hub feed).deadline? = none := by
  have hnil := List.min?_eq_none_iff.1 hd
  rw [Option.eq_none_iff_forall_ne_some]
  intro d hd'
  have hmem : d ∈ [s.service.log.deadline?, s.service.stat.deadline?].reduceOption := by
    rw [List.reduceOption_mem_iff, ← hd']
    cases feed
    · exact List.mem_cons_self
    · exact List.mem_cons_of_mem _ List.mem_cons_self
  rw [hnil] at hmem
  cases hmem

/-- Nobody who can only wait has reached the limit of a delivery. -/
theorem Settled.lt_deadline? (hs : Settled s) {d : Nat} (hd : s.deadline? = some d) :
    s.now < d := by
  obtain ⟨⟨feed, hd⟩, -⟩ := deadline?_eq_some hd
  exact Hub.lt_deadline?_of_step? (hs feed) hd

/-- The clock moves to a time that is not behind the next limit. -/
theorem punctual_clock {time : Nat} (hd : ∀ d, s.deadline? = some d → time ≤ max s.now d) :
    Punctual s { s with now := time } := by
  intro feed d hfeed
  cases hnext : s.deadline? with
  | none => cases (deadline?_eq_none hnext feed).symm.trans hfeed
  | some d₀ =>
    have htime := hd d₀ hnext
    have hfirst := (deadline?_eq_some hnext).2 feed d hfeed
    show time ≤ max s.now d
    omega

theorem onward_clock {g : List Telling} {time : Nat} (hle : s.now ≤ time)
    (hd : ∀ d, s.deadline? = some d → time ≤ max s.now d) :
    Onward s g { s with now := time } g :=
  .step .refl (.clock hle) (punctual_clock hd)

/-- Every limit passed but the first takes the clock on by a millisecond at least. -/
theorem onward_advanceBy {time : Nat} (n : Nat) (hr : Reached s []) (hle : s.now ≤ time)
    (hn : time < s.now + n ∨ time ≤ s.now + n ∧ Settled s) :
    Onward s [] (s.advanceBy time n) [] := by
  induction n generalizing s with
  | zero =>
    refine onward_clock hle fun d _ => ?_
    have := Nat.le_max_left s.now d
    omega
  | succ n ih =>
    unfold advanceBy
    split
    · rename_i d hd
      split
      · rename_i hdle
        have hclock : Onward s [] { s with now := max s.now d } [] :=
          onward_clock (Nat.le_max_left _ _) fun d' hd' =>
            Option.some.inj (hd.symm.trans hd') ▸ Nat.le_refl _
        have hclock' := hclock.trans (onward_settle (hclock.reached hr))
        have hset := settled_settle (hclock.reached hr)
        have hnow := (aside_settle { s with now := max s.now d }).now
        refine hclock'.trans (ih (hclock'.reached hr) ?_ (Or.inr ⟨?_, hset⟩))
        · rw [hnow]
          exact Nat.max_le.2 ⟨hle, hdle⟩
        · rw [hnow]
          show time ≤ max s.now d + n
          have hmax := Nat.le_max_left s.now d
          rcases hn with hn | ⟨hn, hs⟩
          · omega
          · have hlt := hs.lt_deadline? hd
            omega
      · rename_i hdle
        refine onward_clock hle fun d' hd' => ?_
        cases hd.symm.trans hd'
        exact Nat.le_trans (Nat.le_of_not_le hdle) (Nat.le_max_right _ _)
    · rename_i hd
      refine onward_clock hle fun d hd' => ?_
      cases hd.symm.trans hd'

theorem onward_advanceTo {time : Nat} (hr : Reached s []) (hle : s.now ≤ time) :
    Onward s [] (s.advanceTo time) [] := by
  have hby := onward_advanceBy (time + 1 - s.now) hr hle (Or.inl (by omega))
  exact hby.trans (onward_settle (hby.reached hr))

/-- What has happened to each hub up to now is a timeline. -/
def Timed (s : Session α) : Prop :=
  ∀ feed, ∃ past, Hub.Timeline ⟨s.now, s.service.hub feed⟩ past

/-- Nothing but the clock takes time, and it moves no hub. -/
theorem Stepped.now_or_service {s' : Session α} {g g' : List Telling} {who : Option Nat}
    (hs : Stepped s g who s' g') :
    s'.now = s.now ∨ s.now ≤ s'.now ∧ s'.service = s.service := by
  cases hs with
  | clock hle => exact Or.inr ⟨hle, rfl⟩
  | @giveUp _ _ x => cases x <;> exact Or.inl rfl
  | _ => exact Or.inl rfl

theorem Timed.onward {s' : Session α} {g g' : List Telling} (ht : Timed s) (hr : Reached s g)
    (ho : Onward s g s' g') : Timed s' := by
  induction ho with
  | refl => exact ht
  | @step s g who s' g' ho hs hp ih =>
    intro feed
    obtain ⟨past, hpast⟩ := ih feed
    rcases hs.now_or_service with hnow | ⟨hle, hsame⟩
    · obtain ⟨ms, ts, hms, hmay⟩ := hs.leads (ho.reached hr).sound.owned feed
      rw [hnow]
      exact hpast.follow hms fun time hmem => hmay _ hmem
    · rw [hsame]
      exact ⟨_, hpast.clock hle fun d hd => hp feed d hd⟩

/-! ## Subscriptions -/

theorem find_eq_ok {id : Nat} {x : Subscription} (hf : s.find id = .ok x) :
    ∃ i, id = i + 1 ∧ s.subscriptions[i]? = some (some x) := by
  unfold find at hf
  split at hf
  · cases hf
  · rename_i i
    split at hf
    · cases hf
    · cases hf
    · rename_i y hy
      cases hf
      exact ⟨i, rfl, hy⟩

theorem findLog_eq_ok {id : Nat} {p : Place} (hf : s.findLog id = .ok p) :
    ∃ i, id = i + 1 ∧ s.subscriptions[i]? = some (some (.log p)) := by
  unfold findLog at hf
  split at hf
  · rename_i hx
    cases hf
    exact find_eq_ok hx
  · cases hf
  · cases hf

theorem findStat_eq_ok {id : Nat} {f : StatFeed} (hf : s.findStat id = .ok f) :
    ∃ i, id = i + 1 ∧ s.subscriptions[i]? = some (some (.stat f)) := by
  unfold findStat at hf
  split at hf
  · rename_i hx
    cases hf
    exact find_eq_ok hx
  · cases hf
  · cases hf

theorem onward_drainLog {i : Nat} {p : Place} (n : Nat) (hr : Reached s [])
    (hi : s.subscriptions[i]? = some (some (.log p))) :
    Onward s [] (drainLog p n s).1 [] ∧
      (drainLog p n s).1.subscriptions[i]? = some (some (.log p)) := by
  induction n generalizing s with
  | zero => exact ⟨.refl, hi⟩
  | succ n ih =>
    have hnext : Onward s [] (s.receiveLog p).1 [] := .one (.receive hi) rfl
    have hsub : (s.receiveLog p).1.subscriptions = s.subscriptions := rfl
    unfold drainLog
    split
    · rename_i s' e he
      rw [he] at hnext hsub
      have hset := hnext.trans (onward_settle (hnext.reached hr))
      obtain ⟨h1, h2⟩ := ih (hset.reached hr) (by
        rw [(aside_settle s').subscriptions, hsub]
        exact hi)
      exact ⟨hset.trans h1, h2⟩
    · rename_i s' he
      rw [he] at hnext hsub
      exact ⟨hnext, hsub ▸ hi⟩
    · rename_i s' he
      rw [he] at hnext hsub
      exact ⟨hnext, hsub ▸ hi⟩

theorem pollStat_subscription {i : Nat} {f f' : StatFeed} {s' : Session α} {r : Poll}
    (hi : s.subscriptions[i]? = some (some (.stat f))) (hp : s.pollStat i f = (s', f', r)) :
    s'.subscriptions[i]? = some (some (.stat f')) ∧ f'.place = f.place ∧
      (r = .pending → s'.now < f'.ticker.due) := by
  unfold pollStat at hp
  split at hp
  rename_i f'' h r' hpoll
  cases hp
  obtain ⟨hlt, -⟩ := List.getElem?_eq_some_iff.1 hi
  refine ⟨?_, ?_, fun hr => ?_⟩
  · simp [List.getElem?_set_self hlt]
  · have hplace := StatFeed.poll_place f s.now s.service.stat
    rwa [hpoll] at hplace
  · have hdue := @StatFeed.lt_due_of_poll f s.now s.service.stat
    rw [hpoll] at hdue
    exact hdue hr

theorem nextTime_le {f : StatFeed} {d : Nat} (hd : s.deadline? = some d) :
    s.nextTime f ≤ max s.now d := by
  unfold nextTime
  rw [hd]
  show max s.now (min d f.ticker.due) ≤ max s.now d
  omega

theorem now_le_nextTime {f : StatFeed} (hdue : s.now < f.ticker.due) : s.now ≤ s.nextTime f := by
  unfold nextTime
  split
  · exact Nat.le_max_left _ _
  · exact Nat.le_of_lt hdue

theorem onward_awaitSnapshotBy {i : Nat} {f : StatFeed} (n : Nat) (hr : Reached s [])
    (hi : s.subscriptions[i]? = some (some (.stat f))) :
    Onward s [] (awaitSnapshotBy i n s f).1 [] ∧
      (awaitSnapshotBy i n s f).1.subscriptions[i]? =
        some (some (.stat (awaitSnapshotBy i n s f).2.1)) ∧
      (awaitSnapshotBy i n s f).2.1.place = f.place := by
  induction n generalizing s f with
  | zero => exact ⟨.refl, hi, rfl⟩
  | succ n ih =>
    have hnext : Onward s [] (s.pollStat i f).1 [] := .one (.poll hi) rfl
    unfold awaitSnapshotBy
    split
    · rename_i s' f' x hp
      obtain ⟨hi', hplace, -⟩ := pollStat_subscription hi hp
      rw [hp] at hnext
      exact ⟨hnext, hi', hplace⟩
    · rename_i s' f' hp
      obtain ⟨hi', hplace, -⟩ := pollStat_subscription hi hp
      rw [hp] at hnext
      exact ⟨hnext, hi', hplace⟩
    · rename_i s' f' hp
      obtain ⟨hi', hplace, hdue⟩ := pollStat_subscription hi hp
      rw [hp] at hnext
      have hset := hnext.trans (onward_settle (hnext.reached hr))
      have haside := aside_settle s'
      have hi'' : s'.settle.subscriptions[i]? = some (some (.stat f')) := by
        rwa [haside.subscriptions]
      simp only
      split
      · obtain ⟨h1, h2, h3⟩ := ih (hset.reached hr) hi''
        exact ⟨hset.trans h1, h2, h3.trans hplace⟩
      · have hle : s'.settle.now ≤ s'.settle.nextTime f' :=
          now_le_nextTime (haside.now.symm ▸ hdue rfl)
        have hclock := hset.trans (onward_clock hle fun d hd => nextTime_le hd)
        obtain ⟨h1, h2, h3⟩ := ih (hclock.reached hr) hi''
        exact ⟨hclock.trans h1, h2, h3.trans hplace⟩

theorem onward_awaitSnapshot {i : Nat} {f : StatFeed} (hr : Reached s [])
    (hi : s.subscriptions[i]? = some (some (.stat f))) :
    Onward s [] (s.awaitSnapshot i f).1 [] ∧
      (s.awaitSnapshot i f).1.subscriptions[i]? =
        some (some (.stat (s.awaitSnapshot i f).2.1)) ∧
      (s.awaitSnapshot i f).2.1.place = f.place :=
  onward_awaitSnapshotBy _ hr hi

theorem onward_streamStat {i : Nat} {f : StatFeed} (n : Nat) (hr : Reached s [])
    (hi : s.subscriptions[i]? = some (some (.stat f))) :
    Onward s [] (streamStat i n s f).1 [] ∧ ∃ f', f'.place = f.place ∧
      (streamStat i n s f).1.subscriptions[i]? = some (some (.stat f')) := by
  induction n generalizing s f with
  | zero => exact ⟨.refl, f, rfl, hi⟩
  | succ n ih =>
    obtain ⟨hnext, hi', hplace⟩ := onward_awaitSnapshot hr hi
    unfold streamStat
    split
    · rename_i s' f' x hp
      rw [hp] at hnext hi' hplace
      have hset := hnext.trans (onward_settle (hnext.reached hr))
      have hi'' : s'.settle.subscriptions[i]? = some (some (.stat f')) := by
        rw [(aside_settle s').subscriptions]
        exact hi'
      obtain ⟨h1, f'', h2, h3⟩ := ih (hset.reached hr) hi''
      exact ⟨hset.trans h1, f'', h2.trans hplace, h3⟩
    · rename_i s' f' hp
      rw [hp] at hnext hi' hplace
      exact ⟨hnext, f', hplace, hi'⟩

/-! ## What is kept at every turn -/

section
variable {P : Session α → Prop}

theorem drainLog_keeps {p : Place} (receive : ∀ s, P s → P (s.receiveLog p).1)
    (settle : ∀ s, P s → P s.settle) (n : Nat) (hs : P s) : P (drainLog p n s).1 := by
  induction n generalizing s with
  | zero => exact hs
  | succ n ih =>
    have hnext := receive s hs
    unfold drainLog
    split <;> rename_i he <;> rw [he] at hnext
    · exact ih (settle _ hnext)
    · exact hnext
    · exact hnext

theorem awaitSnapshotBy_keeps {i : Nat} (poll : ∀ s f, P s → P (s.pollStat i f).1)
    (settle : ∀ s, P s → P s.settle) (clock : ∀ s time, P s → P { s with now := time }) (n : Nat)
    (f : StatFeed) (hs : P s) : P (awaitSnapshotBy i n s f).1 := by
  induction n generalizing s f with
  | zero => exact hs
  | succ n ih =>
    have hnext := poll s f hs
    unfold awaitSnapshotBy
    split <;> rename_i he <;> rw [he] at hnext
    · exact hnext
    · exact hnext
    · have hset := settle _ hnext
      simp only
      split
      · exact ih _ hset
      · exact ih _ (clock _ _ hset)

theorem streamStat_keeps {i : Nat} (snapshot : ∀ s f, P s → P (s.awaitSnapshot i f).1)
    (settle : ∀ s, P s → P s.settle) (n : Nat) (f : StatFeed) (hs : P s) :
    P (streamStat i n s f).1 := by
  induction n generalizing s f with
  | zero => exact hs
  | succ n ih =>
    have hnext := snapshot s f hs
    unfold streamStat
    split <;> rename_i he <;> rw [he] at hnext
    · exact ih _ (settle _ hnext)
    · exact hnext

theorem fireWatchers_keeps (shutDown : ∀ s, P s → P s.shutDown.1) (n : Nat) (hs : P s) :
    P (s.fireWatchers n) := by
  induction n generalizing s with
  | zero => exact hs
  | succ n ih =>
    unfold fireWatchers
    split
    · exact hs
    · exact ih (shutDown s hs)

theorem withService_keeps {f : Session α → Session α × Reply α} (hs : P s) (hf : P (f s).1) :
    P (s.withService f).1 := by
  unfold withService
  split
  · exact hs
  · exact hf

theorem withFound_keeps {β : Type} {found : Except Refusal β} {f : β → Session α × Reply α}
    (hs : P s) (hf : ∀ x, found = .ok x → P (f x).1) : P (s.withFound found f).1 := by
  unfold withFound
  split
  · exact hf _ rfl
  · exact hs

end

/-! ## Commands -/

theorem onward_fireWatchers (n : Nat) (s : Session α) : Onward s [] (s.fireWatchers n) [] :=
  fireWatchers_keeps (P := fun s' => Onward s [] s' [])
    (fun _ ho => ho.trans (.one .shutDown rfl)) n .refl

theorem onward_withService {f : Session α → Session α × Reply α} (hf : Onward s [] (f s).1 []) :
    Onward s [] (s.withService f).1 [] :=
  withService_keeps (P := fun s' => Onward s [] s' []) .refl hf

theorem onward_withFound {β : Type} {found : Except Refusal β} {f : β → Session α × Reply α}
    (hf : ∀ x, found = .ok x → Onward s [] (f x).1 []) :
    Onward s [] (s.withFound found f).1 [] :=
  withFound_keeps (P := fun s' => Onward s [] s' []) .refl hf

/-- Doing a command is a run of steps. -/
theorem onward_act (c : Command α) (hr : Reached s []) : Onward s [] (s.act c).1 [] := by
  cases c with
  | call times r =>
    cases times with
    | none => exact onward_makeCall r hr
    | some n => exact onward_makeCalls r n hr
  | authorize | watchers => exact .refl
  | check | isShutDown | reauthorize => exact onward_withService .refl
  | attachLog =>
    refine onward_withService ?_
    split
    · rename_i service p hat
      exact .one (.attachLog hat) rfl
    · rename_i service f hat
      obtain rfl := Service.attachLog_eq_error hat
      exact .refl
  | attachStat seconds =>
    refine onward_withService ?_
    split
    · rename_i service f hat
      exact .one (.attachStat hat) rfl
    · rename_i service f hat
      exact .one (.refuseStat hat) rfl
  | detach id =>
    refine onward_withFound fun x hx => ?_
    obtain ⟨i, rfl, hi⟩ := find_eq_ok hx
    exact .one (.giveUp hi) (by cases x <;> rfl)
  | receive id =>
    refine onward_withFound fun p hp => ?_
    obtain ⟨i, rfl, hi⟩ := findLog_eq_ok hp
    have hnext : Onward s [] (s.receiveLog p).1 [] := .one (.receive hi) rfl
    split
    · rename_i s' he
      rw [he] at hnext
      exact hnext.trans (.one (.note _) rfl)
    · rename_i s' r _ he
      rw [he] at hnext
      exact hnext
  | drain id =>
    refine onward_withFound fun p hp => ?_
    obtain ⟨i, rfl, hi⟩ := findLog_eq_ok hp
    have hnext := (onward_drainLog (s.service.log.upcoming p + 1) hr hi).1
    split
    · rename_i s' es he
      unfold drainAllLog at he
      rw [he] at hnext
      exact hnext.trans (.one (.note _) rfl)
    · rename_i s' es stop _ he
      unfold drainAllLog at he
      rw [he] at hnext
      exact hnext
  | poll id =>
    refine onward_withFound fun f hf => ?_
    obtain ⟨i, rfl, hi⟩ := findStat_eq_ok hf
    exact .one (.poll hi) rfl
  | snapshot id =>
    refine onward_withFound fun f hf => ?_
    obtain ⟨i, rfl, hi⟩ := findStat_eq_ok hf
    have hnext := (onward_awaitSnapshot hr hi).1
    rw [Nat.add_sub_cancel]
    split <;>
    · rename_i he
      rw [he] at hnext
      exact hnext
  | stream id n =>
    refine onward_withFound fun x hx => ?_
    obtain ⟨i, rfl, hi⟩ := find_eq_ok hx
    cases x with
    | log p =>
      obtain ⟨hnext, hi'⟩ := onward_drainLog n hr hi
      exact hnext.trans (.one (.giveUp hi') rfl)
    | stat f =>
      obtain ⟨hnext, f', hplace, hi'⟩ := onward_streamStat n hr hi
      have hgive := hnext.trans (.one (.giveUp hi') rfl)
      simp only [giveUp, hplace] at hgive
      exact hgive
  | advance ms => exact onward_advanceTo hr (Nat.le_add_right _ _)
  | shutDown => exact onward_withService (.one .shutDown rfl)
  | awaitClosed =>
    refine onward_withService ?_
    split
    · exact .one (.note _) rfl
    · exact .refl
  | watch =>
    refine onward_withService ?_
    have hnext : Onward s [] { s with watchers := s.watchers + 1 } [] := .one .watch rfl
    simp only
    split
    · exact hnext.trans (onward_fireWatchers 1 _)
    · exact hnext
  | signal =>
    have hnext : Onward s [] { s with signalled := true } [] := .one .signal rfl
    simp only [act]
    split
    · exact hnext
    · exact hnext.trans (onward_fireWatchers _ _)
  | release => exact onward_withService (.one .release rfl)

theorem onward_perform (c : Command α) (hr : Reached s []) : Onward s [] (s.perform c).1 [] := by
  have hact := onward_act c hr
  exact hact.trans (onward_settle (hact.reached hr))

/-- Driving a session leads to reached states. -/
theorem reached_perform (c : Command α) (hr : Reached s []) : Reached (s.perform c).1 [] :=
  (onward_perform c hr).reached hr

/-- After a command nothing is left to do. -/
theorem settled_perform (c : Command α) (hr : Reached s []) : Settled (s.perform c).1 :=
  settled_settle ((onward_act c hr).reached hr)

/-- The course of a session that is driven is a timeline of each of its hubs. -/
theorem timed_perform (c : Command α) (hr : Reached s []) (ht : Timed s) :
    Timed (s.perform c).1 :=
  ht.onward hr (onward_perform c hr)

theorem timed_open? {access : AccessList} {settings : Settings} {rules : DispatchRules}
    (ho : open? access settings rules = some s) : Timed s := by
  obtain ⟨service, hs, rfl⟩ := Option.map_eq_some_iff.1 ho
  obtain ⟨-, -, hhub⟩ := Service.start?_eq_some hs
  exact Timed.onward (fun feed => ⟨[], .start (hhub feed)⟩) (.start hs) (onward_settle (.start hs))

theorem reached_open? {access : AccessList} {settings : Settings} {rules : DispatchRules}
    (ho : open? access settings rules = some s) : Reached s [] ∧ Settled s := by
  obtain ⟨service, hs, rfl⟩ := Option.map_eq_some_iff.1 ho
  exact ⟨(onward_settle (.start hs)).reached (.start hs), settled_settle (.start hs)⟩

end Session

end CallFeed

/-
  CallFeed — a stat subscription and the calls for its snapshots.

  A client calls for a snapshot, waits, and looks at its subscription until it has one, is told
  the end, or gives up; meanwhile anything can happen in the session, but the clock stands
  still while the client has something to find.

  * `Diary` is what the client has done, and `Followed` a subscription with its diary;
  * `Return.IsTimely`: when a call returns a snapshot, and when it is told the end;
  * `OnTime` is what every step keeps (`Followed.onTime`);
  * `Followed.worked`: a client that waits can let dispatchers and calls work; one that does not
    wait is followed through every command (`Followed.perform`).
-/
import CallFeed.Proofs.Session.Watching
import CallFeed.Proofs.Hub.Delivery
import CallFeed.Proofs.Window.Ticks

namespace CallFeed

/-! ## Calls for snapshots -/

/-- What a client has done with a stat subscription. -/
structure Diary where
  /-- Since when it waits for a snapshot. -/
  since : Option Nat
  /-- The calls that returned a snapshot, the first one first. -/
  snapshots : List Return
  /-- The calls that were told the end. -/
  ends : List Return

/-- The diary of a subscription that was never used. -/
def Diary.empty : Diary := ⟨none, [], []⟩

/-- The call `r` has returned a snapshot, or was told the end. -/
def Diary.returned (D : Diary) (r : Return) : Option Snapshot → Diary
  | some _ => ⟨none, D.snapshots ++ [r], D.ends⟩
  | none => ⟨none, D.snapshots, D.ends ++ [r]⟩

/-- A call that waits looks; it returns as `r` unless the look yields nothing. -/
def Diary.look (D : Diary) (r : Return) : Poll → Diary
  | .snapshot x => D.returned r (some x)
  | .closed => D.returned r none
  | .pending => D

/-- The diary `D` goes on as `D'`. -/
structure Diary.Continues (D D' : Diary) : Prop where
  snapshots : D.snapshots <+: D'.snapshots
  ends : D.ends <+: D'.ends

namespace Diary.Continues

theorem refl (D : Diary) : D.Continues D := ⟨List.prefix_refl _, List.prefix_refl _⟩

theorem trans {D D' D'' : Diary} (h1 : D.Continues D') (h2 : D'.Continues D'') :
    D.Continues D'' :=
  ⟨h1.snapshots.trans h2.snapshots, h1.ends.trans h2.ends⟩

theorem look (D : Diary) (r : Return) (x : Poll) : D.Continues (D.look r x) := by
  cases x with
  | snapshot => exact ⟨List.prefix_append _ _, List.prefix_refl _⟩
  | closed => exact ⟨List.prefix_refl _, List.prefix_append _ _⟩
  | pending => exact refl D

end Diary.Continues

/-- When a call returns a snapshot, if the feed was closed at the time `closed`: when it is made
    or when the window ends, whichever comes last, unless the feed is closed while it waits. -/
def Return.IsSnapshot (closed : Option Nat) (r : Return) : Prop :=
  r.time = max r.asked r.due ∧ (r.asked < r.due → ∀ o ∈ closed, r.due ≤ o)

/-- When a call is told the end: when it is made or when the feed is closed, whichever comes
    last, if both come before the end of the window. -/
def Return.IsEnd (closed : Option Nat) (r : Return) : Prop :=
  r.asked < r.due ∧ ∃ o ∈ closed, o < r.due ∧ r.time = max r.asked o

/-- When a call returns what it returns. -/
def Return.IsTimely (closed : Option Nat) (r : Return) : Option Snapshot → Prop
  | some _ => r.IsSnapshot closed
  | none => r.IsEnd closed

namespace Session

variable {α : Type}

/-- Since when a subscriber is not fed any more, as is seen in the state `s`. -/
def closedSince (closed : Option Nat) (s : Session α) (p : Place) : Option Nat :=
  closed.or (if s.service.stat.feedsPlace p then none else some s.now)

/-- The `i`-th subscription is `f`, a stat subscription entered at the time `a` with windows of
    `w` seconds. It is not fed any more since the time `closed`, and `D` is what its client has
    done since. Time passes while the client waits only if it would find nothing, and not
    beyond the end of its window. -/
inductive Followed : Nat → Nat → Nat → Session α → List Telling → StatFeed → Option Nat →
    Diary → Prop
  | attach {s : Session α} {g service w f} : Reached s g →
      s.service.attachStat s.now w = (service, .ok f) →
      Followed s.subscriptions.length s.now w ({ s with service }.keep (.stat f)).1 g f none
        .empty
  /-- Something happens, but nothing that the client does. -/
  | aside {i a w s g f closed D who s' g'} : Followed i a w s g f closed D →
      Stepped s g who s' g' → who ≠ some i →
      (s'.now = s.now ∨ D.since = none ∨
        s.service.stat.hasNews f.place = false ∧ s'.now ≤ f.ticker.due) →
      Followed i a w s' g' f (closedSince closed s' f.place) D
  /-- The client calls for a snapshot. -/
  | ask {i a w s g f closed D} : Followed i a w s g f closed D → D.since = none →
      Followed i a w s g f closed { D with since := some s.now }
  /-- The client looks, as long as it waits. -/
  | look {i a w s g f closed D c} : Followed i a w s g f closed D → D.since = some c →
      Followed i a w (s.pollStat i f).1 g (s.pollStat i f).2.1 closed
        (D.look ⟨c, f.ticker.due, s.now⟩ (s.pollStat i f).2.2)
  /-- The client waits no longer. -/
  | leave {i a w s g f closed D} : Followed i a w s g f closed D →
      Followed i a w s g f closed { D with since := none }

/-! ## What is followed -/

variable {s s' : Session α} {g g' : List Telling} {who : Option Nat} {i a w : Nat} {f : StatFeed}
  {closed : Option Nat} {D : Diary}

/-- A subscription stays what it is while others act, and so does one that was given up. -/
theorem Stepped.subscription_stays (hs : Stepped s g who s' g') (hne : who ≠ some i)
    {x : Option Subscription} (hi : s.subscriptions[i]? = some x) :
    s'.subscriptions[i]? = some x := by
  have hlt := (List.getElem?_eq_some_iff.1 hi).1
  cases hs with
  | attachLog | attachStat => exact (List.getElem?_append_left hlt).trans hi
  | @giveUp _ j =>
    rw [subscriptions_giveUp, List.getElem?_set_ne fun he => hne (congrArg some he)]
    exact hi
  | @poll _ j => exact (List.getElem?_set_ne fun he => hne (congrArg some he)).trans hi
  | _ => exact hi

/-- Who is not fed any more will not be. -/
theorem Stepped.unfed (ho : Owned s) (hs : Stepped s g who s' g') {p : Place}
    (hu : s.service.stat.Unfed p) : s'.service.stat.Unfed p :=
  (hs.leads ho .stat).induction (Q := fun h => h.Unfed p) hu fun _ _ _ _ _ hu hm =>
    (hu.moved hm).1

namespace Followed

theorem reached_and_subscription (hf : Followed i a w s g f closed D) :
    Reached s g ∧ s.subscriptions[i]? = some (some (.stat f)) := by
  induction hf with
  | attach hr hat => exact ⟨hr.step (.attachStat hat), List.getElem?_concat_length⟩
  | aside _ hs hne _ ih => exact ⟨ih.1.step hs, hs.subscription_stays hne ih.2⟩
  | ask _ _ ih | leave _ ih => exact ih
  | look _ _ ih => exact ⟨ih.1.step (.poll ih.2), (pollStat_subscription ih.2 rfl).1⟩

theorem reached (hf : Followed i a w s g f closed D) : Reached s g :=
  hf.reached_and_subscription.1

theorem subscription (hf : Followed i a w s g f closed D) :
    s.subscriptions[i]? = some (some (.stat f)) := hf.reached_and_subscription.2

theorem known (hf : Followed i a w s g f closed D) :
    f.place < s.service.stat.queues.length :=
  Hub.lt_of_held (hf.reached.sound.owned.held i _ hf.subscription)

end Followed

/-! ## On time -/

/-- What holds of a subscription and its diary at every time. -/
structure OnTime (a w : Nat) (s : Session α) (f : StatFeed) (closed : Option Nat)
    (D : Diary) : Prop where
  ticks : Ticks (.start a w) D.snapshots f.ticker
  fed : closed = none → s.service.stat.feedsPlace f.place = true
  unfed : ∀ o ∈ closed, o ≤ s.now ∧ s.service.stat.feedsPlace f.place = false
  waits : ∀ c ∈ D.since, c ≤ s.now ∧ s.now ≤ max c f.ticker.due ∧ ∀ o ∈ closed, s.now ≤ max c o
  snapshots : ∀ r ∈ D.snapshots, r.time ≤ s.now ∧ r.IsSnapshot closed
  ends : ∀ r ∈ D.ends, r.IsEnd closed

namespace OnTime

/-- A call that has just returned did so in time. -/
theorem isTimely {r : Return} {x : Option Snapshot}
    (ht : OnTime a w s f closed (D.returned r x)) : r.IsTimely closed x := by
  cases x with
  | some x =>
    exact (ht.snapshots r (List.mem_append_right D.snapshots (List.mem_singleton_self r))).2
  | none => exact ht.ends r (List.mem_append_right D.ends (List.mem_singleton_self r))

theorem attach {service : Service} (hat : s.service.attachStat s.now w = (service, .ok f)) :
    OnTime s.now w ({ s with service }.keep (.stat f)).1 f none .empty := by
  obtain ⟨h, p, hstat, rfl, rfl⟩ := Service.attachStat_eq_ok hat
  obtain ⟨-, rfl, rfl⟩ := Hub.attach_eq_ok hstat
  refine ⟨.nil, fun _ => ?_, by simp, by simp [Diary.empty], by simp [Diary.empty],
    by simp [Diary.empty]⟩
  have hmem : s.service.stat.queues.length ∈
      s.service.stat.members ++ [s.service.stat.queues.length] :=
    List.mem_append_right _ (List.mem_singleton_self _)
  exact Bool.or_eq_true_iff.2 (Or.inl (List.contains_iff_mem.2 hmem))

theorem mem_closedSince {p : Place} {o : Nat} : o ∈ closedSince closed s p ↔
    o ∈ closed ∨ closed = none ∧ s.service.stat.feedsPlace p = false ∧ o = s.now := by
  cases closed with
  | some _ => simp [closedSince]
  | none => cases hf : s.service.stat.feedsPlace p <;> simp [closedSince, hf, eq_comm]

theorem closedSince_eq_none {p : Place} : closedSince closed s p = none ↔
    closed = none ∧ s.service.stat.feedsPlace p = true := by
  cases closed with
  | some _ => simp [closedSince]
  | none => cases hf : s.service.stat.feedsPlace p <;> simp [closedSince, hf]

/-- Whatever others do, a subscription stays on time. -/
theorem aside (ht : OnTime a w s f closed D) (ho : Owned s)
    (hknown : f.place < s.service.stat.queues.length) (hs : Stepped s g who s' g')
    (htime : s'.now = s.now ∨ D.since = none ∨
      s.service.stat.hasNews f.place = false ∧ s'.now ≤ f.ticker.due) :
    OnTime a w s' f (closedSince closed s' f.place) D where
  ticks := ht.ticks
  fed := fun he => (closedSince_eq_none.1 he).2
  unfed := by
    intro o hm
    rcases mem_closedSince.1 hm with hold | ⟨-, hunfed, rfl⟩
    · obtain ⟨hle, hunfed⟩ := ht.unfed o hold
      have hu := hs.unfed ho ((Hub.unfed_iff hknown).2 hunfed)
      exact ⟨Nat.le_trans hle hs.now_le, (Hub.unfed_iff hu.known).1 hu⟩
    · exact ⟨Nat.le_refl _, hunfed⟩
  waits := by
    intro c hc
    obtain ⟨hle, hmax, hend⟩ := ht.waits c hc
    refine ⟨Nat.le_trans hle hs.now_le, ?_, fun o hm => ?_⟩
    · rcases htime with hnow | hnone | ⟨-, hdue⟩
      · rwa [hnow]
      · cases hnone.symm.trans hc
      · exact Nat.le_trans hdue (Nat.le_max_right _ _)
    · rcases mem_closedSince.1 hm with hold | ⟨-, -, rfl⟩
      · rcases htime with hnow | hnone | ⟨hnews, -⟩
        · rw [hnow]
          exact hend o hold
        · cases hnone.symm.trans hc
        · -- a closed feed is news, for which the clock would have waited
          simp [Hub.hasNews, (ht.unfed o hold).2] at hnews
      · exact Nat.le_max_right _ _
  snapshots := by
    intro r hr
    obtain ⟨hle, htime, hend⟩ := ht.snapshots r hr
    refine ⟨Nat.le_trans hle hs.now_le, htime, fun hlt o hm => ?_⟩
    rcases mem_closedSince.1 hm with hold | ⟨-, -, rfl⟩
    · exact hend hlt o hold
    · have := hs.now_le
      omega
  ends := by
    intro r hr
    obtain ⟨hlt, o, hm, hend⟩ := ht.ends r hr
    exact ⟨hlt, o, mem_closedSince.2 (Or.inl hm), hend⟩

/-- A client that looks is given a snapshot, or told the end, when it is time. -/
theorem look {c : Nat} (ht : OnTime a w s f closed D) (hc : D.since = some c) (i : Nat) :
    OnTime a w (s.pollStat i f).1 (s.pollStat i f).2.1 closed
      (D.look ⟨c, f.ticker.due, s.now⟩ (s.pollStat i f).2.2) := by
  unfold pollStat
  rcases hp : f.poll s.now s.service.stat with ⟨f', h, r⟩
  obtain ⟨hplace, hfeeds, hcases⟩ := StatFeed.poll_cases hp
  obtain ⟨hle, hmax, hend⟩ := ht.waits c hc
  have hfed : closed = none → h.feedsPlace f'.place = true := by
    rw [hplace, hfeeds]
    exact ht.fed
  have hunfed : ∀ o ∈ closed, o ≤ s.now ∧ h.feedsPlace f'.place = false := by
    rw [hplace, hfeeds]
    exact ht.unfed
  rcases hcases with ⟨hdue, ⟨x, rfl⟩, hticker⟩ | ⟨hlt, hticker, hr⟩
  · refine ⟨?_, hfed, hunfed, by rintro _ ⟨⟩, fun r hr => ?_, ht.ends⟩
    · rw [hticker]
      exact ht.ticks.take hdue
    · rcases List.mem_append.1 hr with hr | hr
      · exact ht.snapshots r hr
      · rw [List.mem_singleton.1 hr]
        refine ⟨Nat.le_refl _, ?_, fun hlt o ho => ?_⟩
        · show s.now = max c f.ticker.due
          omega
        · have := hend o ho
          simp only at hlt ⊢
          omega
  · cases hf : s.service.stat.feedsPlace f.place with
    | true =>
      rw [hf] at hr
      subst hr
      refine ⟨hticker ▸ ht.ticks, hfed, hunfed, fun c' hc' => ?_, ht.snapshots, ht.ends⟩
      rw [hticker]
      exact ht.waits c' hc'
    | false =>
      rw [hf] at hr
      subst hr
      refine ⟨hticker ▸ ht.ticks, hfed, hunfed, by rintro _ ⟨⟩, ht.snapshots, fun r hr => ?_⟩
      rcases List.mem_append.1 hr with hr | hr
      · exact ht.ends r hr
      · rw [List.mem_singleton.1 hr]
        cases closed with
        | none => exact absurd (ht.fed rfl) (by simp [hf])
        | some o =>
          have ho := (ht.unfed o rfl).1
          have hmax' := hend o rfl
          refine ⟨?_, o, rfl, ?_, ?_⟩ <;> simp only <;> omega

end OnTime

theorem Followed.onTime (hf : Followed i a w s g f closed D) : OnTime a w s f closed D := by
  induction hf with
  | attach _ hat => exact .attach hat
  | aside hf hs _ htime ih => exact ih.aside hf.reached.sound.owned hf.known hs htime
  | @ask i a w s g f closed D _ _ ih =>
    refine { ih with waits := ?_ }
    rintro c ⟨⟩
    exact ⟨Nat.le_refl _, Nat.le_max_left _ _, fun o _ => Nat.le_max_left _ _⟩
  | look _ hc ih => exact ih.look hc _
  | leave _ ih => exact { ih with waits := by rintro c ⟨⟩ }

/-! ## Where a subscription is followed to -/

/-- While dispatchers and calls work the subscription is only watched. -/
theorem Followed.worked {n : Nat} (hf : Followed i a w s g f closed D)
    (hw : WorksFor (fun _ => False) s g n s' g') :
    ∃ closed', Followed i a w s' g' f closed' D := by
  induction hw with
  | none => exact ⟨_, hf⟩
  | more _ hstep ih =>
    obtain ⟨closed', hf'⟩ := ih
    obtain ⟨who, hs, hno⟩ := hstep.stepped
    exact ⟨_, hf'.aside hs (fun he => hno i he) (Or.inl hstep.now)⟩

/-- What was given up is not taken again. -/
theorem Stepped.given_up (hs : Stepped s g who s' g') (hi : s.subscriptions[i]? = some none) :
    s'.subscriptions[i]? = some none := by
  refine hs.subscription_stays ?_ hi
  rintro rfl
  cases hs with
  | giveUp hx | receive hx | poll hx => cases hi.symm.trans hx

/-- A client that does not wait can look at any time. -/
theorem Followed.stepped (hf : Followed i a w s g f closed D) (hidle : D.since = none)
    (hs : Stepped s g who s' g') :
    (∃ f' closed' D', Followed i a w s' g' f' closed' D' ∧ D'.since = none ∧ D.Continues D') ∨
      s'.subscriptions[i]? = some none := by
  by_cases hne : who = some i
  · subst hne
    cases hs with
    | giveUp hx =>
      rw [subscriptions_giveUp, List.getElem?_set_self', hx]
      exact Or.inr rfl
    | receive hx => cases hf.subscription.symm.trans hx
    | poll hx =>
      cases hf.subscription.symm.trans hx
      have hlook := (hf.ask hidle).look rfl
      have hcont := Diary.Continues.look { D with since := some s.now }
        ⟨s.now, f.ticker.due, s.now⟩ (s.pollStat i f).2.2
      exact Or.inl ⟨_, _, _, hlook.leave, rfl, hcont.snapshots, hcont.ends⟩
  · exact Or.inl ⟨f, _, D, hf.aside hs hne (Or.inr (Or.inl hidle)), hidle, .refl D⟩

theorem Followed.onward (hf : Followed i a w s g f closed D) (hidle : D.since = none)
    (ho : Onward s g s' g') :
    (∃ f' closed' D', Followed i a w s' g' f' closed' D' ∧ D'.since = none ∧ D.Continues D') ∨
      s'.subscriptions[i]? = some none := by
  induction ho with
  | refl => exact Or.inl ⟨f, closed, D, hf, hidle, .refl D⟩
  | step _ hs _ ih =>
    rcases ih with ⟨f', closed', D', hf', hidle', hD'⟩ | hgone
    · rcases hf'.stepped hidle' hs with ⟨f'', closed'', D'', hf'', hidle'', hD''⟩ | hgone
      · exact Or.inl ⟨f'', closed'', D'', hf'', hidle'', hD'.trans hD''⟩
      · exact Or.inr hgone
    · exact Or.inr (hs.given_up hgone)

/-- A client that does not wait is followed through every command, but for those that give up
    its subscription. -/
theorem Followed.perform (hf : Followed i a w s [] f closed D) (hidle : D.since = none)
    (c : Command α) :
    (∃ f' closed' D', Followed i a w (s.perform c).1 [] f' closed' D' ∧ D'.since = none ∧
        D.Continues D') ∨
      (s.perform c).1.subscriptions[i]? = some none :=
  hf.onward hidle (onward_perform c hf.reached)

end Session

end CallFeed

/-
  CallFeed — what can happen in a session, one thing at a time.

  A session is changed by its dispatchers, by the calls that go on, by its clients and by
  the clock, in whatever order. A call that goes on has some feeds still to be told
  (`Telling`); one that waits goes on when a dispatcher lets it go.

  * `Stepped` has one rule for each thing that can happen; `Reached` are the states that a
    service and its clients can come to, and `Onward` leads from one to another without
    the clock passing a limit of a delivery;
  * `Stepped.leads`: each step moves each hub by moves that are its own to make (`MayMove`);
  * `Owned`: the subscriptions hold their queues, each its own; `Reached.sound` adds
    that both hubs have arisen from their runs, and that a shutdown has told both to close.
-/
import CallFeed.Proofs.Hub.Situation
import CallFeed.Proofs.Window.Counts
import CallFeed.Session.Perform

namespace CallFeed

/-- A call that goes on: the feeds that it has still to tell of its event. -/
structure Telling where
  ticket : Ticket
  event : Event
  feeds : List Feed

/-- The feed of a subscription. -/
def Subscription.feed : Subscription → Feed
  | .log _ => .log
  | .stat _ => .stat

/-- The place of a subscription at the hub of its feed. -/
def Subscription.place : Subscription → Place
  | .log p => p
  | .stat f => f.place

namespace Service

theorem start?_eq_some {access : AccessList} {settings : Settings} {rules : DispatchRules}
    {service : Service} (hs : start? access settings rules = some service) :
    service.isShutDown = false ∧ service.released = false ∧
      ∀ feed, Hub.start? feed settings 2 = some (service.hub feed) := by
  simp only [start?, Option.bind_eq_bind, Option.bind_eq_some_iff, Option.pure_def,
    Option.some.injEq] at hs
  obtain ⟨log, hlog, stat, hstat, rfl⟩ := hs
  refine ⟨rfl, rfl, fun feed => ?_⟩
  cases feed
  · exact hlog
  · exact hstat

/-! ## Attaching -/

theorem attachLog_eq_ok {s service : Service} {p : Place} (hat : s.attachLog = (service, .ok p)) :
    ∃ h, s.log.attach = .ok (h, p) ∧ service = { s with log := h } := by
  unfold attachLog at hat
  split at hat
  · cases hat
  · split at hat
    · rename_i h p' hlog
      cases hat
      exact ⟨h, hlog, rfl⟩
    · cases hat

theorem attachLog_eq_error {s service : Service} {f : Failure}
    (hat : s.attachLog = (service, .error f)) : service = s := by
  unfold attachLog at hat
  split at hat
  · cases hat
    rfl
  · split at hat <;> cases hat
    rfl

theorem attachStat_eq_ok {s service : Service} {now seconds : Nat} {f : StatFeed}
    (hat : s.attachStat now seconds = (service, .ok f)) :
    ∃ h p, s.stat.attach = .ok (h, p) ∧ service = { s with stat := h } ∧
      f = .start p now seconds := by
  unfold attachStat windowOf at hat
  split at hat
  · cases hat
  · rename_i n hn
    split at hn
    · cases hn
    · cases hn
      split at hat
      · cases hat
      · split at hat
        · cases hat
        · rename_i h p hstat
          split at hat
          · cases hat
          · cases hat
            exact ⟨h, p, hstat, rfl, rfl⟩

theorem attachStat_seconds {s service : Service} {now seconds : Nat} {f : StatFeed}
    (hat : s.attachStat now seconds = (service, .ok f)) : shortestWindow ≤ seconds := by
  unfold attachStat windowOf at hat
  split at hat
  · cases hat
  · rename_i hn
    split at hn
    · cases hn
    · rename_i hle
      exact Nat.not_lt.1 hle

/-- A request that is refused enters nobody, or a subscriber that is gone at once. -/
theorem attachStat_eq_error {s service : Service} {now seconds : Nat} {f : Failure}
    (hat : s.attachStat now seconds = (service, .error f)) :
    service = s ∨ ∃ h p, s.stat.attach = .ok (h, p) ∧ service = { s with stat := h.detach p } := by
  unfold attachStat at hat
  split at hat
  · cases hat
    exact Or.inl rfl
  · split at hat
    · cases hat
      exact Or.inl rfl
    · split at hat
      · cases hat
        exact Or.inl rfl
      · rename_i h p hstat
        split at hat
        · cases hat
          exact Or.inr ⟨h, p, hstat, rfl⟩
        · cases hat

end Service

namespace Session

variable {α : Type}

/-- What a call waits for. -/
def pending? (s : Session α) (t : Ticket) : Option (Event × List Feed) :=
  (s.calls[t]?).bind Call.pending

/-- A call that is let go has told the feed that it waited for. -/
def letGo? (s : Session α) (t : Ticket) : Option Telling :=
  match s.pending? t with
  | some (e, _ :: feeds) => some ⟨t, e, feeds⟩
  | _ => none

/-- A call is decided on. -/
def enterCall (s : Session α) (r : Request α) : Session α :=
  { s with
    calls := s.calls ++ [Call.mk none (s.service.consider r).answer]
    notices := s.notices ++ (s.service.consider r).notices }

/-- What a call has to tell when it is decided on. -/
def toTell (s : Session α) (r : Request α) : List Telling :=
  match (s.service.consider r).event with
  | some e => [⟨s.calls.length, e, s.service.rules.feedsOf e.method⟩]
  | none => []

/-- One thing happens: `s`, where the calls `g` go on, becomes `s'`, where `g'` go on. If it
    is done by a subscriber, `who` is the index of its subscription. -/
inductive Stepped (s : Session α) : List Telling → Option Nat → Session α → List Telling → Prop
  /-- The dispatcher of a feed does one thing. -/
  | dispatch {g h ts} (feed) : (s.service.hub feed).step? s.now = some (h, ts) →
      Stepped s g none (s.setHub feed h) (g ++ ts.filterMap s.letGo?)
  /-- A call tells a feed, and goes on. -/
  | tell {g k t e feed feeds h r} : (s.service.hub feed).emit t e = (h, r) → r ≠ .waiting →
      Stepped s (g ++ ⟨t, e, feed :: feeds⟩ :: k) none (s.setHub feed h)
        (g ++ ⟨t, e, feeds⟩ :: k)
  /-- A call has to wait to tell a feed. -/
  | wait {g k t e feed feeds h} : (s.service.hub feed).emit t e = (h, .waiting) →
      Stepped s (g ++ ⟨t, e, feed :: feeds⟩ :: k) none
        ((s.setHub feed h).setPending t (some (e, feed :: feeds))) (g ++ k)
  /-- A call has told all feeds. -/
  | finish {g k t e} : Stepped s (g ++ ⟨t, e, []⟩ :: k) none (s.setPending t none) (g ++ k)
  | call {g} (r) : Stepped s g none (s.enterCall r) (g ++ s.toTell r)
  | attachLog {g service p} : s.service.attachLog = (service, .ok p) →
      Stepped s g none ({ s with service }.keep (.log p)).1 g
  | attachStat {g service seconds f} : s.service.attachStat s.now seconds = (service, .ok f) →
      Stepped s g none ({ s with service }.keep (.stat f)).1 g
  /-- A request for a subscription of the stat feed breaks down. -/
  | refuseStat {g service seconds f} :
      s.service.attachStat s.now seconds = (service, .error f) →
      Stepped s g none { s with service } g
  | giveUp {g i x} : s.subscriptions[i]? = some (some x) →
      Stepped s g (some i) (s.giveUp (i + 1) x) g
  | receive {g i p} : s.subscriptions[i]? = some (some (.log p)) →
      Stepped s g (some i) (s.receiveLog p).1 g
  | poll {g i f} : s.subscriptions[i]? = some (some (.stat f)) →
      Stepped s g (some i) (s.pollStat i f).1 g
  | shutDown {g} : Stepped s g none s.shutDown.1 g
  | release {g} : Stepped s g none { s with service := s.service.release } g
  | clock {g time} : s.now ≤ time → Stepped s g none { s with now := time } g
  | note {g} (n) : Stepped s g none (s.note n) g
  | watch {g} : Stepped s g none { s with watchers := s.watchers + 1 } g
  | signal {g} : Stepped s g none { s with signalled := true } g

/-- The states that a service and its clients can come to, with the calls that go on. -/
inductive Reached : Session α → List Telling → Prop
  | start {access settings rules service notices} :
      Service.start? access settings rules = some service →
      Reached
        { service, now := 0, calls := [], subscriptions := [], signalled := false, watchers := 0
          notices } []
  | step {s g who s' g'} : Reached s g → Stepped s g who s' g' → Reached s' g'

/-- The clock passes no limit of a delivery that waits. -/
def Punctual (s s' : Session α) : Prop :=
  ∀ feed d, (s.service.hub feed).deadline? = some d → s'.now ≤ max s.now d

/-- From `s₀`, where the calls `g₀` go on, punctual steps lead to these states. -/
inductive Onward (s₀ : Session α) (g₀ : List Telling) : Session α → List Telling → Prop
  | refl : Onward s₀ g₀ s₀ g₀
  | step {s g who s' g'} : Onward s₀ g₀ s g → Stepped s g who s' g' → Punctual s s' →
      Onward s₀ g₀ s' g'

namespace Onward
variable {s s' s'' : Session α} {g g' g'' : List Telling} {who : Option Nat}

/-- A step that takes no time. -/
theorem one (hs : Stepped s g who s' g') (hnow : s'.now = s.now) : Onward s g s' g' :=
  .step .refl hs fun _ _ _ => hnow ▸ Nat.le_max_left _ _

theorem trans (h1 : Onward s g s' g') (h2 : Onward s' g' s'' g'') : Onward s g s'' g'' := by
  induction h2 with
  | refl => exact h1
  | step _ hs hp ih => exact .step ih hs hp

theorem reached (ho : Onward s g s' g') (hr : Reached s g) : Reached s' g' := by
  induction ho with
  | refl => exact hr
  | step _ hs _ ih => exact ih.step hs

end Onward

/-! ## Hubs -/

@[simp] theorem service_setHub_hub_self (s : Session α) (feed : Feed) (h : Hub) :
    (s.setHub feed h).service.hub feed = h := by
  cases feed <;> rfl

theorem service_setHub_hub_ne (s : Session α) {feed feed' : Feed} (hne : feed' ≠ feed) (h : Hub) :
    (s.setHub feed h).service.hub feed' = s.service.hub feed' := by
  cases feed <;> cases feed' <;> first | rfl | exact absurd rfl hne

/-- The moves that may be made on the hub of a feed when one thing happens in a session:
    dispatchers go by the clock, and queues are taken from or given up by their holders. -/
def MayMove (s : Session α) (who : Option Nat) (feed : Feed) : Hub.Move → Prop
  | .dispatch time => time = s.now
  | .detach p | .receive p | .receiveAll p =>
    (s.service.hub feed).queues.length ≤ p ∨
      ∃ i, ∃ x : Subscription, who = some i ∧ s.subscriptions[i]? = some (some x) ∧
        x.feed = feed ∧ x.place = p
  | _ => True

theorem subscriptions_giveUp (s : Session α) (i : Nat) (x : Subscription) :
    (s.giveUp (i + 1) x).subscriptions = s.subscriptions.set i none := by
  cases x <;> rfl

/-- Who has given up its queue has no subscription any more. -/
theorem not_mem_giveUp {s : Session α} {i : Nat} {x y : Subscription}
    (hi : s.subscriptions[i]? = some (some x)) :
    (s.giveUp (i + 1) x).subscriptions[i]? ≠ some (some y) := by
  rw [subscriptions_giveUp, List.getElem?_set_self', hi]
  simp

theorem leads_setHub {s : Session α} {P : Feed → Hub.Move → Prop} {feed : Feed} {h : Hub}
    (hl : (s.service.hub feed).Leads (P feed) h) (feed' : Feed) :
    (s.service.hub feed').Leads (P feed') ((s.setHub feed h).service.hub feed') := by
  by_cases hf : feed' = feed
  · subst hf
    rwa [service_setHub_hub_self]
  · rw [service_setHub_hub_ne s hf]
    exact .refl _ _

/-- A subscription moves the hub of its feed at its own place. -/
theorem leads_own {s : Session α} {i : Nat} {x : Subscription} {m : Hub.Move} {h : Hub}
    (hi : s.subscriptions[i]? = some (some x)) (hp : m.place? = some x.place)
    (hm : (s.service.hub x.feed).move? m = some (h, [])) (feed : Feed) :
    (s.service.hub feed).Leads (s.MayMove (some i) feed)
      ((s.setHub x.feed h).service.hub feed) := by
  refine leads_setHub (P := s.MayMove (some i)) (.single hm ?_) feed
  cases m with
  | detach p | receive p | receiveAll p =>
    exact Or.inr ⟨i, x, rfl, hi, rfl, (Option.some.inj hp).symm⟩
  | _ => cases hp

/-- The subscriptions hold their queues, and no two have the same. -/
structure Owned (s : Session α) : Prop where
  held : ∀ (i : Nat) (x : Subscription), s.subscriptions[i]? = some (some x) →
    ((s.service.hub x.feed).queue x.place).held = true
  apart : ∀ (i j : Nat) (x y : Subscription), s.subscriptions[i]? = some (some x) →
    s.subscriptions[j]? = some (some y) → x.feed = y.feed → x.place = y.place → i = j

theorem hub_attached {h h' : Hub} {p : Place} (hat : h.attach = .ok (h', p)) :
    p = h.queues.length ∧ (h'.queue p).held = true := by
  obtain ⟨-, rfl, rfl⟩ := Hub.attach_eq_ok hat
  exact ⟨rfl, by simp [Hub.queue, Hub.note]⟩

/-- Each step moves each hub by moves of its own. -/
theorem Stepped.leads {s s' : Session α} {g g' : List Telling} {who : Option Nat} (ho : Owned s)
    (hs : Stepped s g who s' g') (feed : Feed) :
    (s.service.hub feed).Leads (s.MayMove who feed) (s'.service.hub feed) := by
  cases hs with
  | @dispatch _ h ts feed' hstep =>
    refine leads_setHub (P := s.MayMove none) ?_ feed
    exact .single (m := .dispatch s.now) hstep rfl
  | @tell _ _ t e feed' _ h r hemit =>
    refine leads_setHub (P := s.MayMove none) ?_ feed
    have hm : (s.service.hub feed').move? (.emit t e) =
        some (h, if r = .waiting then [] else [t]) := by
      rw [Hub.move?, hemit]
    exact .single hm trivial
  | @wait _ _ t e feed' _ h hemit =>
    refine leads_setHub (s := s) (P := s.MayMove none) ?_ feed
    have hm : (s.service.hub feed').move? (.emit t e) = some (h, []) := by
      rw [Hub.move?, hemit]
      rfl
    exact .single hm trivial
  | @attachLog _ service p hat =>
    obtain ⟨h, hlog, rfl⟩ := Service.attachLog_eq_ok hat
    cases feed with
    | log =>
      have hm : s.service.log.move? .attach = some (h, []) := by simp [Hub.move?, hlog]
      exact .single hm trivial
    | stat => exact .refl _ _
  | @attachStat _ service seconds f hat =>
    obtain ⟨h, p, hstat, rfl, rfl⟩ := Service.attachStat_eq_ok hat
    cases feed with
    | log => exact .refl _ _
    | stat =>
      have hm : s.service.stat.move? .attach = some (h, []) := by simp [Hub.move?, hstat]
      exact .single hm trivial
  | @refuseStat _ service seconds f hat =>
    obtain rfl | ⟨h, p, hstat, rfl⟩ := Service.attachStat_eq_error hat
    · exact .refl _ _
    · cases feed with
      | log => exact .refl _ _
      | stat =>
        have hm : s.service.stat.move? .attach = some (h, []) := by simp [Hub.move?, hstat]
        obtain ⟨rfl, hh⟩ := hub_attached hstat
        have hm' : h.move? (.detach s.service.stat.queues.length) = some (h.detach _, []) :=
          if_pos hh
        exact (Hub.Leads.single hm trivial).trans (.single hm' (Or.inl (Nat.le_refl _)))
  | @giveUp _ i x hi =>
    have hh := ho.held i x hi
    cases x with
    | log p =>
      have hm : s.service.log.move? (.detach p) = some (s.service.log.detach p, []) := if_pos hh
      exact leads_own hi rfl hm feed
    | stat f =>
      have hm : s.service.stat.move? (.detach f.place) = some (s.service.stat.detach f.place, []) :=
        if_pos hh
      exact leads_own hi rfl hm feed
  | @receive _ i p hi =>
    have hh := ho.held i _ hi
    have hm : s.service.log.move? (.receive p) = some ((s.service.log.receive p).1, []) := if_pos hh
    exact leads_own hi rfl hm feed
  | @poll _ i f hi =>
    exact leads_own hi rfl (StatFeed.move?_of_poll s.now (ho.held i _ hi)) feed
  | shutDown =>
    show (s.service.hub feed).Leads _ (s.service.shutDown.1.hub feed)
    unfold Service.shutDown
    split
    · exact .refl _ _
    · cases feed <;> exact .single (m := .requestClose) rfl trivial
  | release =>
    cases feed <;>
      exact (Hub.Leads.single (m := .requestClose) rfl trivial).trans
        (.single (m := .dropSender) rfl trivial)
  | finish | call | clock | note | watch | signal => exact .refl _ _

/-! ## Subscriptions -/

/-- A subscription was there before, or was just made; only by a look of its own it
    changes, in what it has counted. -/
theorem Stepped.subscription {s s' : Session α} {g g' : List Telling} {who : Option Nat}
    (hs : Stepped s g who s' g') {j : Nat} {x : Subscription}
    (hj : s'.subscriptions[j]? = some (some x)) :
    (∃ y, s.subscriptions[j]? = some (some y) ∧ y.feed = x.feed ∧ y.place = x.place ∧
      (who ≠ some j → y = x)) ∨
    (j = s.subscriptions.length ∧ x.place = (s.service.hub x.feed).queues.length ∧
      ((s'.service.hub x.feed).queue x.place).held = true ∧
      ∀ f, x = .stat f → ∃ p seconds, s.service.stat.attach = .ok (s'.service.stat, p) ∧
        f = .start p s.now seconds) := by
  -- what a new subscription adds to those that were there
  have hnew : ∀ y, (s.subscriptions ++ [some y])[j]? = some (some x) →
      s.subscriptions[j]? = some (some x) ∨ j = s.subscriptions.length ∧ x = y := by
    intro y hy
    rcases Nat.lt_trichotomy j s.subscriptions.length with hlt | rfl | hgt
    · rw [List.getElem?_append_left hlt] at hy
      exact Or.inl hy
    · simp only [List.getElem?_concat_length, Option.some.injEq] at hy
      exact Or.inr ⟨rfl, hy.symm⟩
    · rw [List.getElem?_eq_none (by rw [List.length_append]; exact hgt)] at hy
      cases hy
  cases hs with
  | attachLog hat =>
    obtain ⟨h, hlog, rfl⟩ := Service.attachLog_eq_ok hat
    rcases hnew _ hj with hold | ⟨rfl, rfl⟩
    · exact Or.inl ⟨x, hold, rfl, rfl, fun _ => rfl⟩
    · obtain ⟨hp, hheld⟩ := hub_attached hlog
      exact Or.inr ⟨rfl, hp, hheld, by rintro f ⟨⟩⟩
  | attachStat hat =>
    obtain ⟨h, p, hstat, rfl, rfl⟩ := Service.attachStat_eq_ok hat
    rcases hnew _ hj with hold | ⟨rfl, rfl⟩
    · exact Or.inl ⟨x, hold, rfl, rfl, fun _ => rfl⟩
    · obtain ⟨hp, hheld⟩ := hub_attached hstat
      refine Or.inr ⟨rfl, hp, hheld, fun f hf => ?_⟩
      cases hf
      exact ⟨p, _, hstat, rfl⟩
  | @giveUp _ i y hi =>
    rw [subscriptions_giveUp, List.getElem?_set] at hj
    split at hj
    · split at hj <;> cases hj
    · exact Or.inl ⟨x, hj, rfl, rfl, fun _ => rfl⟩
  | @poll _ i f hi =>
    have hset : (s.subscriptions.set i (some (.stat (f.poll s.now s.service.stat).1)))[j]? =
        some (some x) := hj
    rw [List.getElem?_set] at hset
    split at hset
    · rename_i hij
      subst hij
      split at hset
      · cases hset
        exact Or.inl ⟨.stat f, hi, rfl, (StatFeed.poll_place f _ _).symm, fun hne => absurd rfl hne⟩
      · cases hset
    · exact Or.inl ⟨x, hset, rfl, rfl, fun _ => rfl⟩
  | _ => exact Or.inl ⟨x, hj, rfl, rfl, fun _ => rfl⟩

/-- A queue that is not held by who acts stays held. -/
theorem held_of_leads {s : Session α} {who : Option Nat} {feed : Feed} {h' : Hub} {p : Place}
    (hl : (s.service.hub feed).Leads (s.MayMove who feed) h')
    (hh : ((s.service.hub feed).queue p).held = true)
    (hwho : ∀ (i : Nat) (x : Subscription), who = some i → s.subscriptions[i]? = some (some x) →
      x.feed = feed → x.place ≠ p) : (h'.queue p).held = true := by
  refine hl.induction (Q := fun h => (h.queue p).held = true) hh fun g m g' us hm hg hmv => ?_
  refine hmv.held (fun he => ?_) hg
  subst he
  rcases hm with hle | ⟨i, x, hi, hx, hfeed, hplace⟩
  · exact Nat.not_lt.2 hle (Hub.lt_of_held hh)
  · exact hwho i x hi hx hfeed hplace

/-- Every step leaves the subscriptions with queues of their own. -/
theorem Stepped.owned {s s' : Session α} {g g' : List Telling} {who : Option Nat} (ho : Owned s)
    (hs : Stepped s g who s' g') : Owned s' where
  held := by
    intro j x hj
    rcases hs.subscription hj with ⟨y, hy, hfeed, hplace, -⟩ | ⟨-, -, hheld, -⟩
    · have hh := ho.held j y hy
      rw [hfeed, hplace] at hh
      by_cases hwho : who = some j
      · -- who acts at its own queue holds it afterwards, or has given it up
        cases hs with
        | @giveUp _ i z hi =>
          cases hwho
          exact absurd hj (not_mem_giveUp hi)
        | @receive _ i p hi =>
          cases hwho
          obtain rfl := Option.some.inj (Option.some.inj (hy.symm.trans hi))
          rw [← hfeed, ← hplace] at hh ⊢
          have hm : s.service.log.move? (.receive p) = some ((s.service.log.receive p).1, []) :=
            if_pos hh
          exact (Hub.moved_of_move? hm).held (by simp) hh
        | @poll _ i f hi =>
          cases hwho
          obtain rfl := Option.some.inj (Option.some.inj (hy.symm.trans hi))
          rw [← hfeed, ← hplace] at hh ⊢
          exact (Hub.moved_of_move? (StatFeed.move?_of_poll s.now hh)).held (by simp) hh
        | _ => cases hwho
      · refine held_of_leads (hs.leads ho x.feed) hh fun i z hi hz hzf hzp => hwho ?_
        rw [hi, ho.apart i j z y hz hy (hzf.trans hfeed.symm) (hzp.trans hplace.symm)]
    · exact hheld
  apart := by
    intro i j x y hi hj hfeed hplace
    have hlt : ∀ (k : Nat) (z : Subscription), s.subscriptions[k]? = some (some z) →
        z.place < (s.service.hub z.feed).queues.length := fun k z hz =>
      Hub.lt_of_held (ho.held k z hz)
    rcases hs.subscription hi with ⟨x', hx, hxf, hxp, -⟩ | ⟨rfl, hxp, -⟩ <;>
      rcases hs.subscription hj with ⟨y', hy, hyf, hyp, -⟩ | ⟨rfl, hyp, -⟩
    · exact ho.apart i j x' y' hx hy (hxf.trans (hfeed.trans hyf.symm))
        (hxp.trans (hplace.trans hyp.symm))
    · have := hlt i x' hx
      rw [hxf, hxp, hfeed, hplace, hyp] at this
      exact absurd this (Nat.lt_irrefl _)
    · have := hlt j y' hy
      rw [hyf, hyp, ← hfeed, ← hplace, hxp] at this
      exact absurd this (Nat.lt_irrefl _)
    · rfl

/-! ## Reached states -/

/-- What holds of every session. -/
structure Sound (s : Session α) : Prop where
  owned : Owned s
  arises : ∀ feed, (s.service.hub feed).Arises
  timely : ∀ feed, (s.service.hub feed).Timely s.now
  closing : s.service.isShutDown = true ∨ s.service.released = true →
    ∀ feed, (s.service.hub feed).closing = true

theorem sound_start {access : AccessList} {settings : Settings} {rules : DispatchRules}
    {service : Service} (hs : Service.start? access settings rules = some service)
    (notices : List Notice) :
    Sound ({ service, now := 0, calls := [], subscriptions := [], signalled := false, watchers := 0
             notices } : Session α) := by
  obtain ⟨hdown, hreleased, hhub⟩ := Service.start?_eq_some hs
  refine ⟨⟨by simp, by simp⟩, fun feed => Hub.arises_of_start? (hhub feed), fun feed => ?_, ?_⟩
  · obtain ⟨-, he⟩ := Hub.start?_eq_some (hhub feed)
    rw [he]
    rintro b since ⟨⟩
  · simp [hdown, hreleased]

theorem Stepped.now_le {s s' : Session α} {g g' : List Telling} {who : Option Nat}
    (hs : Stepped s g who s' g') : s.now ≤ s'.now := by
  cases hs with
  | clock hle => exact hle
  | @giveUp _ _ x => cases x <;> exact Nat.le_refl _
  | _ => exact Nat.le_refl _

theorem Stepped.sound {s s' : Session α} {g g' : List Telling} {who : Option Nat} (hd : Sound s)
    (hs : Stepped s g who s' g') : Sound s' where
  owned := hs.owned hd.owned
  arises := fun feed => (hs.leads hd.owned feed).arises (hd.arises feed)
  timely := by
    intro feed
    refine Hub.Timely.later ?_ hs.now_le
    refine (hs.leads hd.owned feed).induction (Q := fun h => h.Timely s.now) (hd.timely feed) ?_
    intro h m h' us hmay ht hm
    refine ht.moved hm fun time he => ?_
    subst he
    exact hmay
  closing := by
    -- but for a shutdown and the release, nobody but a dispatcher has to do with closing
    have hkeep : (s.service.isShutDown = true ∨ s.service.released = true) →
        ∀ feed, (s'.service.hub feed).closing = true := fun hf feed =>
      (hs.leads hd.owned feed).induction (Q := fun h => h.closing = true) (hd.closing hf feed)
        fun _ _ _ _ _ hc hm => hm.closing hc
    cases hs with
    | dispatch feed | @tell _ _ _ _ feed | @wait _ _ _ _ feed => cases feed <;> exact hkeep
    | attachLog hat =>
      obtain ⟨h, -, rfl⟩ := Service.attachLog_eq_ok hat
      exact hkeep
    | attachStat hat =>
      obtain ⟨h, p, -, rfl, -⟩ := Service.attachStat_eq_ok hat
      exact hkeep
    | refuseStat hat =>
      obtain rfl | ⟨h, p, -, rfl⟩ := Service.attachStat_eq_error hat <;> exact hkeep
    | @giveUp _ _ x => cases x <;> exact hkeep
    | shutDown =>
      intro hf feed
      by_cases hdown : s.service.isShutDown = true
      · exact hkeep (Or.inl hdown) feed
      · show (s.service.shutDown.1.hub feed).closing = true
        rw [Service.shutDown, if_neg hdown]
        cases feed <;> rfl
    | release =>
      intro _ feed
      cases feed <;> rfl
    | receive | poll | finish | call | clock | note | watch | signal => exact hkeep

theorem Reached.sound {s : Session α} {g : List Telling} (hr : Reached s g) : Sound s := by
  induction hr with
  | start hs => exact sound_start hs _
  | step _ hs ih => exact hs.sound ih

end Session

end CallFeed

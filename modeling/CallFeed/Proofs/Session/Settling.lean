/-
  CallFeed — settling as a run of steps.

  * `Works` is one step of a dispatcher, of a call that goes on, or of a client that reads
    whenever it finds something, and `WorksFor` are some of them in whatever order, while the
    clock stands still;
  * `Session.settle` is one order in which dispatchers and calls may work
    (`works_settle`), and it leaves nothing to do (`settled_settle`): a call that the log
    feed lets go has at most the stat feed to tell, and one that the stat feed lets go has
    none.
-/
import CallFeed.Proofs.Session.Waiting

namespace CallFeed

namespace Session

variable {α : Type} {s : Session α} {g : List Telling}

/-- No dispatcher has anything to do. -/
def Settled (s : Session α) : Prop := ∀ feed, (s.service.hub feed).step? s.now = none

/-! ## What settling leaves as it is -/

/-- The sessions differ in their hubs and in what their calls wait for only. -/
structure Aside (s s' : Session α) : Prop where
  now : s'.now = s.now
  subscriptions : s'.subscriptions = s.subscriptions
  calls : s'.calls.length = s.calls.length
  notices : s'.notices = s.notices

theorem Aside.refl (s : Session α) : Aside s s := ⟨rfl, rfl, rfl, rfl⟩

theorem Aside.trans {s' s'' : Session α} (h1 : Aside s s') (h2 : Aside s' s'') : Aside s s'' :=
  ⟨h2.now.trans h1.now, h2.subscriptions.trans h1.subscriptions, h2.calls.trans h1.calls,
    h2.notices.trans h1.notices⟩

theorem aside_setHub (s : Session α) (feed : Feed) (h : Hub) : Aside s (s.setHub feed h) :=
  ⟨rfl, rfl, rfl, rfl⟩

theorem aside_setPending (s : Session α) (t : Ticket) (x : Option (Event × List Feed)) :
    Aside s (s.setPending t x) :=
  ⟨rfl, rfl, length_setPending s t x, rfl⟩

theorem aside_tell (t : Ticket) (e : Event) (feeds : List Feed) (s : Session α) :
    Aside s (s.tell t e feeds) := by
  induction feeds generalizing s with
  | nil => exact aside_setPending s t none
  | cons feed feeds ih =>
    unfold tell
    split
    · exact (aside_setHub s feed _).trans (aside_setPending _ _ _)
    · exact (aside_setHub s feed _).trans (ih _)

theorem aside_resume (s : Session α) (t : Ticket) : Aside s (s.resume t) := by
  unfold resume
  split
  · exact aside_tell _ _ _ s
  · exact .refl s

theorem aside_resumeAll (ts : List Ticket) (s : Session α) : Aside s (s.resumeAll ts) := by
  induction ts generalizing s with
  | nil => exact .refl s
  | cons t ts ih => exact (aside_resume s t).trans (ih (s.resume t))

theorem aside_settle (s : Session α) : Aside s s.settle :=
  ((aside_setHub s .log _).trans (aside_setHub _ .stat _)).trans
    ((aside_resumeAll _ _).trans ((aside_setHub _ .stat _).trans (aside_resumeAll _ _)))

/-! ## Working -/

/-- One step of a dispatcher, of a call that goes on, or of a client that reads the
    subscription of an index among `readers` and finds something, at one and the same time. -/
inductive Works (readers : Nat → Prop) (s : Session α) :
    List Telling → Session α → List Telling → Prop
  | dispatch {g h ts} (feed) : (s.service.hub feed).step? s.now = some (h, ts) →
      Works readers s g (s.setHub feed h) (g ++ ts.filterMap s.letGo?)
  | tell {g k t e feed feeds h r} : (s.service.hub feed).emit t e = (h, r) → r ≠ .waiting →
      Works readers s (g ++ ⟨t, e, feed :: feeds⟩ :: k) (s.setHub feed h)
        (g ++ ⟨t, e, feeds⟩ :: k)
  | wait {g k t e feed feeds h} : (s.service.hub feed).emit t e = (h, .waiting) →
      Works readers s (g ++ ⟨t, e, feed :: feeds⟩ :: k)
        ((s.setHub feed h).setPending t (some (e, feed :: feeds))) (g ++ k)
  | finish {g k t e} : Works readers s (g ++ ⟨t, e, []⟩ :: k) (s.setPending t none) (g ++ k)
  | receive {g i p} : readers i → s.subscriptions[i]? = some (some (.log p)) →
      (s.service.log.queue p).events ≠ [] → Works readers s g (s.receiveLog p).1 g
  | look {g i f} : readers i → s.subscriptions[i]? = some (some (.stat f)) →
      ((s.service.stat.queue f.place).events ≠ [] ∨ f.ticker.due ≤ s.now) →
      Works readers s g (s.pollStat i f).1 g

/-- So many steps, one after the other. -/
inductive WorksFor (readers : Nat → Prop) (s : Session α) (g : List Telling) :
    Nat → Session α → List Telling → Prop
  | none : WorksFor readers s g 0 s g
  | more {n s' g' s'' g''} : WorksFor readers s g n s' g' → Works readers s' g' s'' g'' →
      WorksFor readers s g (n + 1) s'' g''

section
variable {s' s'' : Session α} {g' g'' : List Telling} {readers : Nat → Prop} {n m : Nat}

/-- Working is a part of what can happen, and of the clients only the readers work. -/
theorem Works.stepped (hw : Works readers s g s' g') :
    ∃ who, Stepped s g who s' g' ∧ ∀ i, who = some i → readers i := by
  cases hw with
  | dispatch feed hs => exact ⟨none, .dispatch feed hs, by rintro i ⟨⟩⟩
  | tell he hr => exact ⟨none, .tell he hr, by rintro i ⟨⟩⟩
  | wait he => exact ⟨none, .wait he, by rintro i ⟨⟩⟩
  | finish => exact ⟨none, .finish, by rintro i ⟨⟩⟩
  | receive hread hi => exact ⟨_, .receive hi, by rintro j ⟨⟩; exact hread⟩
  | look hread hi => exact ⟨_, .poll hi, by rintro j ⟨⟩; exact hread⟩

theorem Works.now (hw : Works readers s g s' g') : s'.now = s.now := by
  cases hw <;> rfl

namespace WorksFor

theorem one (hw : Works readers s g s' g') : WorksFor readers s g 1 s' g' := .more .none hw

theorem trans (h1 : WorksFor readers s g n s' g') (h2 : WorksFor readers s' g' m s'' g'') :
    WorksFor readers s g (n + m) s'' g'' := by
  induction h2 with
  | none => exact h1
  | more _ hstep ih => exact .more ih hstep

theorem now (hw : WorksFor readers s g n s' g') : s'.now = s.now := by
  induction hw with
  | none => rfl
  | more _ hstep ih => exact hstep.now.trans ih

theorem onward (hw : WorksFor readers s g n s' g') : Onward s g s' g' := by
  induction hw with
  | none => exact .refl
  | more _ hstep ih =>
    obtain ⟨who, hs, -⟩ := hstep.stepped
    exact ih.trans (.one hs hstep.now)

theorem reached (hw : WorksFor readers s g n s' g') (hr : Reached s g) : Reached s' g' :=
  hw.onward.reached hr

end WorksFor
end

/-! ## Working until one can only wait -/

theorem setHub_hub (s : Session α) (feed : Feed) : s.setHub feed (s.service.hub feed) = s := by
  cases feed <;> rfl

theorem setHub_setHub (s : Session α) (feed : Feed) (h h' : Hub) :
    (s.setHub feed h).setHub feed h' = s.setHub feed h' := by
  cases feed <;> rfl

section
variable (readers : Nat → Prop)

/-- A dispatcher takes some steps. -/
theorem works_run (feed : Feed) (n : Nat) (s : Session α) (g : List Telling) :
    ∃ m, WorksFor readers s g m (s.setHub feed ((s.service.hub feed).run s.now n).1)
      (g ++ ((s.service.hub feed).run s.now n).2.filterMap s.letGo?) := by
  induction n generalizing s g with
  | zero => exact ⟨0, by simpa [Hub.run, setHub_hub] using WorksFor.none⟩
  | succ n ih =>
    unfold Hub.run
    split
    · exact ⟨0, by simpa [setHub_hub] using WorksFor.none⟩
    · rename_i h ts hstep
      obtain ⟨m, hnext⟩ := ih (s.setHub feed h) (g ++ ts.filterMap s.letGo?)
      rw [service_setHub_hub_self, setHub_setHub, List.append_assoc] at hnext
      rw [List.filterMap_append]
      exact ⟨_, (WorksFor.one (.dispatch feed hstep)).trans hnext⟩

theorem works_dispatch (feed : Feed) (s : Session α) (g : List Telling) :
    ∃ m, WorksFor readers s g m (s.dispatch feed).1
      (g ++ (s.dispatch feed).2.filterMap s.letGo?) :=
  works_run readers feed _ s g

/-- A call tells its feeds until it must wait or is done. -/
theorem works_tell (t : Ticket) (e : Event) (feeds : List Feed) (s : Session α)
    (g : List Telling) :
    ∃ m, WorksFor readers s (⟨t, e, feeds⟩ :: g) m (s.tell t e feeds) g := by
  induction feeds generalizing s with
  | nil => exact ⟨1, .one (.finish (g := []))⟩
  | cons feed feeds ih =>
    unfold tell
    split
    · rename_i h hemit
      exact ⟨1, .one (.wait (g := []) hemit)⟩
    · rename_i h r hr' hemit
      obtain ⟨m, hnext⟩ := ih (s.setHub feed h)
      exact ⟨_, (WorksFor.one (.tell (g := []) hemit fun he => hr' (by rw [he]))).trans hnext⟩

end

/-- Going on with a call is telling the feeds that it has left. -/
theorem resume_eq (s : Session α) (t : Ticket) : s.resume t =
    match s.letGo? t with
    | some x => s.tell t x.event x.feeds
    | none => s := by
  unfold resume letGo? pending?
  split <;> simp_all

theorem letGo?_ticket {t : Ticket} {x : Telling} (hx : s.letGo? t = some x) : x.ticket = t := by
  unfold letGo? at hx
  split at hx
  · cases hx
    rfl
  · cases hx

theorem pending?_tell_ne (e : Event) {t t' : Ticket} (hne : t' ≠ t) (feeds : List Feed)
    (s : Session α) : (s.tell t e feeds).pending? t' = s.pending? t' := by
  induction feeds generalizing s with
  | nil => exact pending?_setPending_ne hne _
  | cons feed feeds ih =>
    unfold tell
    split
    · exact pending?_setPending_ne (s := s.setHub feed _) hne _
    · exact ih _

theorem letGo?_tell_ne (e : Event) {t t' : Ticket} (hne : t' ≠ t) (feeds : List Feed)
    (s : Session α) : (s.tell t e feeds).letGo? t' = s.letGo? t' := by
  rw [letGo?, letGo?, pending?_tell_ne e hne]

/-- Calls that were let go go on one after the other. -/
theorem works_resumeAll (readers : Nat → Prop) (ts : List Ticket)
    (hr : Reached s (ts.filterMap s.letGo?)) :
    ∃ m, WorksFor readers s (ts.filterMap s.letGo?) m (s.resumeAll ts) [] := by
  induction ts generalizing s with
  | nil => exact ⟨0, .none⟩
  | cons t ts ih =>
    show ∃ m, WorksFor readers s _ m ((s.resume t).resumeAll ts) []
    rw [resume_eq]
    cases hgo : s.letGo? t with
    | none =>
      rw [List.filterMap_cons_none hgo] at hr ⊢
      exact ih hr
    | some x =>
      rw [List.filterMap_cons_some hgo] at hr ⊢
      -- the call goes on at one place only, hence is none of those behind it
      have hnd := hr.waits.not_mem_waiters (g := []) .log
      have hrest : ts.filterMap (s.tell t x.event x.feeds).letGo? = ts.filterMap s.letGo? := by
        refine List.filterMap_congr fun t' ht' => ?_
        by_cases hne : t' = t
        · subst hne
          refine absurd ?_ hnd.2
          exact List.mem_map.2 ⟨x, List.mem_filterMap.2 ⟨t', ht', hgo⟩, rfl⟩
        · exact letGo?_tell_ne x.event hne x.feeds s
      have hx : x = ⟨t, x.event, x.feeds⟩ := by
        rw [← letGo?_ticket hgo]
      obtain ⟨m, htell⟩ := works_tell readers t x.event x.feeds s (ts.filterMap s.letGo?)
      rw [← hx] at htell
      have hnext := ih (s := s.tell t x.event x.feeds)
      rw [hrest] at hnext
      obtain ⟨m', hnext⟩ := hnext (htell.reached hr)
      exact ⟨_, htell.trans hnext⟩

/-- The first round of settling: both dispatchers work, and the calls that they let go go on. -/
def firstRound (s : Session α) : Session α :=
  ((s.dispatch .log).1.dispatch .stat).1.resumeAll
    ((s.dispatch .log).2 ++ ((s.dispatch .log).1.dispatch .stat).2)

theorem works_firstRound (readers : Nat → Prop) (hr : Reached s []) :
    ∃ m, WorksFor readers s [] m s.firstRound [] := by
  obtain ⟨m, hlog⟩ := works_dispatch readers .log s []
  obtain ⟨m', hstat⟩ := works_dispatch readers .stat (s.dispatch .log).1
    ([] ++ (s.dispatch .log).2.filterMap s.letGo?)
  have hresume := works_resumeAll (s := ((s.dispatch .log).1.dispatch .stat).1) readers
    ((s.dispatch .log).2 ++ ((s.dispatch .log).1.dispatch .stat).2)
  rw [List.filterMap_append] at hresume
  obtain ⟨m'', hresume⟩ := hresume ((hlog.trans hstat).reached hr)
  exact ⟨_, (hlog.trans hstat).trans hresume⟩

/-- Settling is one order in which things may happen. -/
theorem works_settle (readers : Nat → Prop) (hr : Reached s []) :
    ∃ m, WorksFor readers s [] m s.settle [] := by
  obtain ⟨m, hfirst⟩ := works_firstRound readers hr
  obtain ⟨m', hlate⟩ := works_dispatch readers .stat s.firstRound []
  obtain ⟨m'', hresume⟩ :=
    works_resumeAll readers _ (hlate.reached (hfirst.reached hr))
  exact ⟨_, (hfirst.trans hlate).trans hresume⟩

theorem onward_settle (hr : Reached s []) : Onward s [] s.settle [] := by
  obtain ⟨m, hw⟩ := works_settle (fun _ => False) hr
  exact hw.onward

/-! ## Nothing is left to do -/

theorem tell_hub {feed : Feed} (t : Ticket) (e : Event) {feeds : List Feed} (hf : feed ∉ feeds)
    (s : Session α) : (s.tell t e feeds).service.hub feed = s.service.hub feed := by
  induction feeds generalizing s with
  | nil => rfl
  | cons feed' feeds ih =>
    obtain ⟨hne, hf⟩ := not_or.1 (List.mem_cons.not.1 hf)
    unfold tell
    split
    · exact service_setHub_hub_ne s hne _
    · exact (ih hf _).trans (service_setHub_hub_ne s hne _)

/-- A call that must wait again has at most the feeds behind those it has told. -/
theorem letGo?_tell_self {t : Ticket} {e : Event} {feeds : List Feed} {s : Session α} {x : Telling}
    (hx : (s.tell t e feeds).letGo? t = some x) : x.feeds.Sublist feeds := by
  have hpend : ∀ (s' : Session α) (y : Option (Event × List Feed)) (z : Event × List Feed),
      (s'.setPending t y).pending? t = some z → y = some z := by
    intro s' y z hz
    have hlt := pending?_lt hz
    rw [length_setPending] at hlt
    rwa [pending?_setPending_self hlt] at hz
  induction feeds generalizing s with
  | nil =>
    unfold letGo? tell at hx
    split at hx
    · rename_i hp
      cases hpend _ _ _ hp
    · cases hx
  | cons feed feeds ih =>
    unfold tell at hx
    split at hx
    · unfold letGo? at hx
      split at hx
      · rename_i hp
        cases hpend _ _ _ hp
        cases hx
        exact List.sublist_cons_self _ _
      · cases hx
    · exact (ih hx).trans (List.sublist_cons_self _ _)

/-- Letting calls go on has nothing to do with the hub of a feed that none of them has
    still to tell. -/
theorem resumeAll_hub {feed : Feed} {feeds : List Feed} (hf : feed ∉ feeds) (ts : List Ticket)
    (hts : ∀ t ∈ ts, ∀ x, s.letGo? t = some x → x.feeds.Sublist feeds) :
    (s.resumeAll ts).service.hub feed = s.service.hub feed := by
  induction ts generalizing s with
  | nil => rfl
  | cons t ts ih =>
    have hrest := fun t' ht' => hts t' (List.mem_cons_of_mem _ ht')
    show ((s.resume t).resumeAll ts).service.hub feed = _
    rw [resume_eq]
    cases hgo : s.letGo? t with
    | none => exact ih hrest
    | some x =>
      have hsub := hts t List.mem_cons_self x hgo
      refine (ih (s := s.tell t x.event x.feeds) fun t' ht' y hy => ?_).trans
        (tell_hub t x.event (fun hmem => hf (hsub.subset hmem)) s)
      by_cases hne : t' = t
      · subst hne
        exact (letGo?_tell_self hy).trans hsub
      · rw [letGo?_tell_ne x.event hne] at hy
        exact hrest t' ht' y hy

theorem run_waiting (now n : Nat) (h : Hub) :
    ∃ w, h.waiting = w ++ (h.run now n).1.waiting ∧ (h.run now n).2 = w.map Prod.fst := by
  induction n generalizing h with
  | zero => exact ⟨[], rfl, rfl⟩
  | succ n ih =>
    unfold Hub.run
    split
    · exact ⟨[], rfl, rfl⟩
    · rename_i h' ts hstep
      obtain ⟨w, hw, rfl⟩ := (Hub.step?_eq_some_iff.1 hstep).waiting
      obtain ⟨w', hw', hrun⟩ := ih h'
      refine ⟨w ++ w', ?_, ?_⟩
      · rw [List.append_assoc, ← hw', hw]
      · rw [List.map_append, ← hrun]

/-- A call that a dispatcher lets go has to tell the feeds behind that of the dispatcher. -/
theorem Waits.letGo?_dispatch (hw : Waits s g) {feed : Feed} {t : Ticket}
    (ht : t ∈ (s.dispatch feed).2) {x : Telling} (hx : s.letGo? t = some x) :
    (feed :: x.feeds).Sublist [.log, .stat] := by
  obtain ⟨w, hwait, hrun⟩ := run_waiting s.now (s.service.hub feed).work (s.service.hub feed)
  have ht' : t ∈ w.map Prod.fst := hrun ▸ ht
  obtain ⟨⟨t, e⟩, hmem, rfl⟩ := List.mem_map.1 ht'
  obtain ⟨feeds, hp, hsub⟩ := hw.queued feed t e (hwait ▸ List.mem_append_left _ hmem)
  cases (letGo?_eq_some hp).symm.trans hx
  exact hsub

/-- No feed is told after the stat feed. -/
theorem eq_nil_of_stat {feeds : List Feed} (hsub : (Feed.stat :: feeds).Sublist [.log, .stat]) :
    feeds = [] := by
  rcases List.cons_sublist_cons'.1 hsub with hsub | ⟨he, -⟩
  · exact List.sublist_nil.1 (List.cons_sublist_cons.1 hsub)
  · cases he

theorem firstRound_log (hr : Reached s []) :
    s.firstRound.service.log = (s.service.log.settle s.now).1 := by
  have hw := hr.waits
  obtain ⟨m, hlog⟩ := works_dispatch (fun _ => False) .log s []
  have hw' := (hlog.reached hr).waits
  have hnot : Feed.log ∉ [Feed.stat] := by simp
  refine resumeAll_hub hnot _ fun t ht x hx => ?_
  rcases List.mem_append.1 ht with ht | ht
  · exact List.cons_sublist_cons.1 (hw.letGo?_dispatch ht hx)
  · rw [eq_nil_of_stat (hw'.letGo?_dispatch ht hx)]
    exact List.nil_sublist _

/-- Settling leaves nothing to do. -/
theorem settled_settle (hr : Reached s []) : Settled s.settle := by
  obtain ⟨m, hfirst⟩ := works_firstRound (fun _ => False) hr
  have hw := (hfirst.reached hr).waits
  -- the calls that the stat feed lets go at last have no feed left
  have hlate : ∀ t ∈ (s.firstRound.dispatch .stat).2, ∀ x,
      (s.firstRound.dispatch .stat).1.letGo? t = some x → x.feeds.Sublist [] := by
    intro t ht x hx
    rw [eq_nil_of_stat (hw.letGo?_dispatch ht hx)]
  have hhub : ∀ feed, s.settle.service.hub feed =
      (s.firstRound.dispatch .stat).1.service.hub feed := fun feed =>
    resumeAll_hub List.not_mem_nil _ hlate
  intro feed
  rw [hhub, (aside_settle s).now]
  cases feed with
  | log =>
    show s.firstRound.service.log.step? s.now = none
    rw [firstRound_log hr]
    exact Hub.step?_settle _ _
  | stat =>
    have hnow : s.firstRound.now = s.now :=
      ((aside_setHub s .log _).trans ((aside_setHub _ .stat _).trans (aside_resumeAll _ _))).now
    show (s.firstRound.service.stat.settle s.firstRound.now).1.step? s.now = none
    rw [hnow]
    exact Hub.step?_settle _ _

theorem dispatch_of_settled (hs : Settled s) (feed : Feed) : s.dispatch feed = (s, []) := by
  unfold dispatch Hub.settle
  rw [Hub.run_of_none (hs feed)]
  exact congrArg (·, []) (setHub_hub s feed)

/-- Where nobody has anything to do, settling changes nothing. -/
theorem settle_of_settled (hs : Settled s) : s.settle = s := by
  have hstat := dispatch_of_settled hs .stat
  simp [settle, dispatch_of_settled hs .log, hstat, resumeAll]

end Session

end CallFeed

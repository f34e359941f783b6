/-
  CallFeed — what a call does from its decision on.

  A call tells the feeds that it has to tell, one after the other, waits where it must, and
  ends when it has told all of them.

  * `Deed` is what a call does, and `Ran` a run with the deeds of its calls, none of which
    is left out;
  * `Progress` is how far a call has come: its deeds are the feeds that it has told so far,
    in their order, and where it waits it has told the feed that it waits for last;
  * `Ran.progress`: whatever happens, a call takes its own way (`Progress.unmoved` if
    something else happens), and one that has nothing to do stays out (`Ran.idle`).
-/
import CallFeed.Proofs.Session.Driven

namespace CallFeed

/-- What a call does. -/
inductive Deed where
  /-- It begins to tell a feed of its event. -/
  | tells (t : Ticket) (feed : Feed) (e : Event)
  /-- It has told all its feeds and ends, which is when a handler behind it runs. -/
  | ends (t : Ticket)
  deriving DecidableEq, Repr

def Deed.ticket : Deed → Ticket
  | tells t _ _ | ends t => t

/-- What one call does. -/
def deedsOf (t : Ticket) (ds : List Deed) : List Deed := ds.filter (·.ticket = t)

/-- The deeds of a call that tells some feeds of its event. -/
def tellsOf (t : Ticket) (e : Event) (feeds : List Feed) : List Deed :=
  feeds.map fun feed => .tells t feed e

theorem tellsOf_append (t : Ticket) (e : Event) (feeds feeds' : List Feed) :
    tellsOf t e (feeds ++ feeds') = tellsOf t e feeds ++ tellsOf t e feeds' :=
  List.map_append

theorem tellsOf_concat (t : Ticket) (e : Event) (feeds : List Feed) (feed : Feed) :
    tellsOf t e (feeds ++ [feed]) = tellsOf t e feeds ++ [.tells t feed e] :=
  tellsOf_append t e feeds [feed]

theorem deedsOf_append {t : Ticket} (ds : List Deed) (d : Deed) :
    deedsOf t (ds ++ [d]) = if d.ticket = t then deedsOf t ds ++ [d] else deedsOf t ds := by
  simp only [deedsOf, List.filter_append]
  split <;> simp_all

namespace Session

variable {α : Type}

/-- From `s₀`, where the calls `g₀` go on, things happen in which the calls do `ds`. -/
inductive Ran (s₀ : Session α) (g₀ : List Telling) : List Deed → Session α → List Telling → Prop
  | start : Ran s₀ g₀ [] s₀ g₀
  /-- The calls that go on have done nothing. -/
  | aside {ds s g who s' g'} : Ran s₀ g₀ ds s g → Stepped s g who s' g' → g <+: g' →
      Ran s₀ g₀ ds s' g'
  | tell {ds s g k t e feed feeds h r} : Ran s₀ g₀ ds s (g ++ ⟨t, e, feed :: feeds⟩ :: k) →
      (s.service.hub feed).emit t e = (h, r) → r ≠ .waiting →
      Ran s₀ g₀ (ds ++ [.tells t feed e]) (s.setHub feed h) (g ++ ⟨t, e, feeds⟩ :: k)
  | wait {ds s g k t e feed feeds h} : Ran s₀ g₀ ds s (g ++ ⟨t, e, feed :: feeds⟩ :: k) →
      (s.service.hub feed).emit t e = (h, .waiting) →
      Ran s₀ g₀ (ds ++ [.tells t feed e])
        ((s.setHub feed h).setPending t (some (e, feed :: feeds))) (g ++ k)
  | finish {ds s g k t e} : Ran s₀ g₀ ds s (g ++ ⟨t, e, []⟩ :: k) →
      Ran s₀ g₀ (ds ++ [.ends t]) (s.setPending t none) (g ++ k)

namespace Ran
variable {s₀ s s' : Session α} {g₀ g g' : List Telling} {ds : List Deed} {who : Option Nat}

/-- Whatever happens, some deeds are done in it. -/
theorem step (hrun : Ran s₀ g₀ ds s g) (hs : Stepped s g who s' g') :
    ∃ ds', Ran s₀ g₀ (ds ++ ds') s' g' := by
  cases hs with
  | tell hemit hr => exact ⟨_, hrun.tell hemit hr⟩
  | wait hemit => exact ⟨_, hrun.wait hemit⟩
  | finish => exact ⟨_, hrun.finish⟩
  | dispatch feed hstep =>
    exact ⟨[], by simpa using hrun.aside (.dispatch feed hstep) (List.prefix_append _ _)⟩
  | call r => exact ⟨[], by simpa using hrun.aside (.call r) (List.prefix_append _ _)⟩
  | attachLog hat => exact ⟨[], by simpa using hrun.aside (.attachLog hat) (List.prefix_refl _)⟩
  | attachStat hat => exact ⟨[], by simpa using hrun.aside (.attachStat hat) (List.prefix_refl _)⟩
  | refuseStat hat => exact ⟨[], by simpa using hrun.aside (.refuseStat hat) (List.prefix_refl _)⟩
  | giveUp hi => exact ⟨[], by simpa using hrun.aside (.giveUp hi) (List.prefix_refl _)⟩
  | receive hi => exact ⟨[], by simpa using hrun.aside (.receive hi) (List.prefix_refl _)⟩
  | poll hi => exact ⟨[], by simpa using hrun.aside (.poll hi) (List.prefix_refl _)⟩
  | shutDown => exact ⟨[], by simpa using hrun.aside .shutDown (List.prefix_refl _)⟩
  | release => exact ⟨[], by simpa using hrun.aside .release (List.prefix_refl _)⟩
  | clock hle => exact ⟨[], by simpa using hrun.aside (.clock hle) (List.prefix_refl _)⟩
  | note n => exact ⟨[], by simpa using hrun.aside (.note n) (List.prefix_refl _)⟩
  | watch => exact ⟨[], by simpa using hrun.aside .watch (List.prefix_refl _)⟩
  | signal => exact ⟨[], by simpa using hrun.aside .signal (List.prefix_refl _)⟩

theorem onward (hrun : Ran s₀ g₀ ds s g) (ho : Onward s g s' g') :
    ∃ ds', Ran s₀ g₀ (ds ++ ds') s' g' := by
  induction ho with
  | refl => exact ⟨[], by simpa using hrun⟩
  | step _ hs _ ih =>
    obtain ⟨ds', hrun'⟩ := ih
    obtain ⟨ds'', hrun''⟩ := hrun'.step hs
    exact ⟨ds' ++ ds'', by simpa using hrun''⟩

theorem reached (hrun : Ran s₀ g₀ ds s g) (hr : Reached s₀ g₀) : Reached s g := by
  induction hrun with
  | start => exact hr
  | aside _ hs _ ih => exact ih.step hs
  | tell _ hemit hne ih => exact ih.step (.tell hemit hne)
  | wait _ hemit ih => exact ih.step (.wait hemit)
  | finish _ ih => exact ih.step .finish

/-- A command is a run. -/
theorem perform (hrun : Ran s₀ g₀ ds s []) (hr : Reached s₀ g₀) (c : Command α) :
    ∃ ds', Ran s₀ g₀ (ds ++ ds') (s.perform c).1 [] :=
  hrun.onward (onward_perform c (hrun.reached hr))

/-- The command that makes a call is a run from its decision on. -/
theorem of_call (hr : Reached s []) (r : Request α) :
    ∃ ds, Ran (s.enterCall r) (s.toTell r) ds (s.perform (.call none r)).1 [] := by
  have hcall := onward_enterCall r hr
  have hset := hcall.trans (onward_settle (hcall.reached (hr.step (.call r))))
  exact Ran.start.onward hset

end Ran

/-! ## Calls of others -/

/-- The call `t` itself does nothing, but it may be let go. -/
structure Unmoved (t : Ticket) (s : Session α) (g : List Telling) (s' : Session α)
    (g' : List Telling) : Prop where
  call : t < s.calls.length → s'.calls[t]? = s.calls[t]?
  stays : ∀ x ∈ g, x.ticket = t → x ∈ g'
  enters : ∀ x ∈ g', x.ticket = t → x ∈ g ∨ s.letGo? t = some x ∨ s.calls.length ≤ t

section
variable {s s' : Session α} {g g' k : List Telling} {who : Option Nat} {t t' : Ticket}
  {e e' : Event}

/-- Nothing changes for the calls. -/
theorem unmoved_of_calls (hcalls : s'.calls = s.calls) : Unmoved t s g s' g where
  call _ := by rw [hcalls]
  stays _ hx _ := hx
  enters _ hx _ := Or.inl hx

theorem Stepped.unmoved (hs : Stepped s g who s' g') (hp : g <+: g') (t : Ticket) :
    Unmoved t s g s' g' := by
  cases hs with
  | dispatch feed hstep =>
    refine ⟨fun _ => rfl, fun x hx _ => List.mem_append_left _ hx, fun x hx ht => ?_⟩
    rcases List.mem_append.1 hx with hx | hx
    · exact Or.inl hx
    · obtain ⟨t', -, hgo⟩ := List.mem_filterMap.1 hx
      obtain rfl := (letGo?_ticket hgo).symm.trans ht
      exact Or.inr (Or.inl hgo)
  | tell =>
    -- a call that tells has one feed less to tell
    rw [List.prefix_append_right_inj, List.cons_prefix_cons, Telling.mk.injEq] at hp
    exact absurd hp.1.2.2 (List.cons_ne_self _ _)
  | wait | finish =>
    have hlen := hp.length_le
    simp only [List.length_append, List.length_cons] at hlen
    omega
  | call r =>
    refine ⟨fun ht => ?_, fun x hx _ => List.mem_append_left _ hx, fun x hx ht => ?_⟩
    · exact List.getElem?_append_left ht
    · rcases List.mem_append.1 hx with hx | hx
      · exact Or.inl hx
      · unfold toTell at hx
        split at hx
        · rw [List.mem_singleton.1 hx] at ht
          exact Or.inr (Or.inr (Nat.le_of_eq ht))
        · cases hx
  | @giveUp _ _ x => cases x <;> exact unmoved_of_calls rfl
  | attachLog | attachStat | refuseStat | receive | poll | shutDown | release | clock | note
    | watch | signal => exact unmoved_of_calls rfl

/-- What becomes of one of the calls that go on is nothing to the others. -/
theorem unmoved_of_ne {x : Telling} (ys : List Telling) (hne : x.ticket ≠ t)
    (hys : ∀ y ∈ ys, y.ticket ≠ t) (hcall : s'.calls[t]? = s.calls[t]?) :
    Unmoved t s (g ++ x :: k) s' (g ++ (ys ++ k)) where
  call _ := hcall
  stays y hy ht := by
    simp only [List.mem_append, List.mem_cons] at hy ⊢
    rcases hy with hy | rfl | hy
    · exact Or.inl hy
    · exact absurd ht hne
    · exact Or.inr (Or.inr hy)
  enters y hy ht := by
    refine Or.inl ?_
    simp only [List.mem_append, List.mem_cons] at hy ⊢
    rcases hy with hy | hy | hy
    · exact Or.inl hy
    · exact absurd ht (hys y hy)
    · exact Or.inr (Or.inr hy)

theorem calls_setPending_ne (hne : t' ≠ t) (x : Option (Event × List Feed)) :
    (s.setPending t' x).calls[t]? = s.calls[t]? := by
  simp [setPending, hne]

end

/-- What holds of the deeds of one call, if it is kept by what others do and by what the call
    does itself. -/
theorem Ran.induction {s₀ s : Session α} {g₀ g : List Telling} {ds : List Deed} {t : Ticket}
    {Q : List Deed → Session α → List Telling → Prop} (hrun : Ran s₀ g₀ ds s g)
    (hr : Reached s₀ g₀) (start : Q [] s₀ g₀)
    (others : ∀ {ds s g s' g'}, Reached s g → Reached s' g' → Unmoved t s g s' g' → Q ds s g →
      Q ds s' g')
    (tell : ∀ {ds s g k e feed feeds h r}, Reached s (g ++ ⟨t, e, feed :: feeds⟩ :: k) →
      (s.service.hub feed).emit t e = (h, r) → r ≠ .waiting →
      Q ds s (g ++ ⟨t, e, feed :: feeds⟩ :: k) →
      Q (ds ++ [.tells t feed e]) (s.setHub feed h) (g ++ ⟨t, e, feeds⟩ :: k))
    (wait : ∀ {ds s g k e feed feeds h}, Reached s (g ++ ⟨t, e, feed :: feeds⟩ :: k) →
      (s.service.hub feed).emit t e = (h, .waiting) → Q ds s (g ++ ⟨t, e, feed :: feeds⟩ :: k) →
      Q (ds ++ [.tells t feed e])
        ((s.setHub feed h).setPending t (some (e, feed :: feeds))) (g ++ k))
    (finish : ∀ {ds s g k e}, Reached s (g ++ ⟨t, e, []⟩ :: k) → Q ds s (g ++ ⟨t, e, []⟩ :: k) →
      Q (ds ++ [.ends t]) (s.setPending t none) (g ++ k)) :
    Q (deedsOf t ds) s g := by
  induction hrun with
  | start => exact start
  | aside hrun hs hp ih =>
    have hr' := hrun.reached hr
    exact others hr' (hr'.step hs) (hs.unmoved hp t) ih
  | @tell ds s g k t' e feed feeds h r hrun hemit hne ih =>
    have hr' := hrun.reached hr
    rw [deedsOf_append]
    split
    · rename_i ht
      obtain rfl : t' = t := ht
      exact tell hr' hemit hne ih
    · rename_i ht
      have hothers : ∀ y ∈ [Telling.mk t' e feeds], y.ticket ≠ t := by
        rintro y (_ | ⟨_, ⟨⟩⟩)
        exact ht
      exact others hr' (hr'.step (.tell hemit hne)) (unmoved_of_ne _ ht hothers rfl) ih
  | @wait ds s g k t' e feed feeds h hrun hemit ih =>
    have hr' := hrun.reached hr
    rw [deedsOf_append]
    split
    · rename_i ht
      obtain rfl : t' = t := ht
      exact wait hr' hemit ih
    · rename_i ht
      have hcalls := calls_setPending_ne (s := s.setHub feed h) ht (some (e, feed :: feeds))
      exact others hr' (hr'.step (.wait hemit))
        (unmoved_of_ne [] ht (by simp) hcalls) ih
  | @finish ds s g k t' e hrun ih =>
    have hr' := hrun.reached hr
    rw [deedsOf_append]
    split
    · rename_i ht
      obtain rfl : t' = t := ht
      exact finish hr' ih
    · rename_i ht
      have hcalls := calls_setPending_ne (s := s) ht none
      exact others hr' (hr'.step .finish) (unmoved_of_ne [] ht (by simp) hcalls) ih

/-! ## Calls that have nothing to do -/

/-- The call `t` has nothing to do, be it that it never had or that it has ended. -/
structure Idle (s : Session α) (g : List Telling) (t : Ticket) : Prop where
  known : t < s.calls.length
  pending : s.pending? t = none
  apart : t ∉ g.map Telling.ticket

namespace Idle
variable {s s' : Session α} {g g' : List Telling} {t : Ticket}

theorem unmoved (hi : Idle s g t) (hu : Unmoved t s g s' g') : Idle s' g' t where
  known := by
    have hcall := hu.call hi.known
    rw [List.getElem?_eq_getElem hi.known] at hcall
    exact (List.getElem?_eq_some_iff.1 hcall).1
  pending := by
    rw [pending?, hu.call hi.known]
    exact hi.pending
  apart hmem := by
    obtain ⟨x, hx, ht⟩ := List.mem_map.1 hmem
    rcases hu.enters x hx ht with hg | hgo | hle
    · exact hi.apart (List.mem_map.2 ⟨x, hg, ht⟩)
    · rw [letGo?, hi.pending] at hgo
      cases hgo
    · exact Nat.not_lt.2 hle hi.known

theorem ne_of_going {x : Telling} {k : List Telling} (hi : Idle s (g ++ x :: k) t) :
    x.ticket ≠ t := by
  rintro rfl
  exact hi.apart (by simp)

/-- It neither waits nor goes on. -/
theorem not_mem_tickets (hi : Idle s g t) (hw : Waits s g) : t ∉ s.tickets g := by
  intro hmem
  rcases mem_tickets.1 hmem with ⟨feed, hf⟩ | hg
  · obtain ⟨⟨t', e⟩, hwait, rfl⟩ := List.mem_map.1 hf
    obtain ⟨feeds, hp, -⟩ := hw.queued feed t' e hwait
    cases hi.pending.symm.trans hp
  · exact hi.apart hg

end Idle

/-- Who has nothing to do does nothing. -/
theorem Ran.idle {s₀ s : Session α} {g₀ g : List Telling} {ds : List Deed} {t : Ticket}
    (hrun : Ran s₀ g₀ ds s g) (hr : Reached s₀ g₀) (hi : Idle s₀ g₀ t) :
    Idle s g t ∧ deedsOf t ds = [] := by
  refine hrun.induction (Q := fun ds s g => Idle s g t ∧ ds = []) hr ⟨hi, rfl⟩ ?_ ?_ ?_ ?_
  · rintro ds s g s' g' - - hu ⟨hi, rfl⟩
    exact ⟨hi.unmoved hu, rfl⟩
  · rintro ds s g k e feed feeds h r - - - ⟨hi, -⟩
    exact absurd rfl hi.ne_of_going
  · rintro ds s g k e feed feeds h - - ⟨hi, -⟩
    exact absurd rfl hi.ne_of_going
  · rintro ds s g k e - ⟨hi, -⟩
    exact absurd rfl hi.ne_of_going

/-! ## Calls on their way -/

/-- How far the call `t` has come that has to tell `feeds` of `e`, when it has done this. -/
inductive Progress (s : Session α) (g : List Telling) (t : Ticket) (e : Event)
    (feeds : List Feed) : List Deed → Prop
  /-- It goes on, with `left` still to tell. -/
  | going {told left} : feeds = told ++ left → ⟨t, e, left⟩ ∈ g →
      Progress s g t e feeds (tellsOf t e told)
  /-- It waits at the hub of the feed that it has told last. -/
  | waiting {told feed left} : feeds = told ++ feed :: left →
      t ∈ (s.service.hub feed).waiters → s.pending? t = some (e, feed :: left) →
      Progress s g t e feeds (tellsOf t e (told ++ [feed]))
  | ended : Idle s g t → Progress s g t e feeds (tellsOf t e feeds ++ [.ends t])

namespace Progress
variable {s s' : Session α} {g g' k : List Telling} {t : Ticket} {e : Event} {feeds : List Feed}
  {ds : List Deed}

/-- A call that something else happens to is as far as before; it may be let go. -/
theorem unmoved (hw : Waits s g) (hw' : Waits s' g') (hu : Unmoved t s g s' g')
    (hp : Progress s g t e feeds ds) : Progress s' g' t e feeds ds := by
  cases hp with
  | going hsplit hmem => exact .going hsplit (hu.stays _ hmem rfl)
  | ended hi => exact .ended (hi.unmoved hu)
  | @waiting told feed left hsplit hwait hpend =>
    have hlt := pending?_lt hpend
    have hpend' : s'.pending? t = some (e, feed :: left) := by
      rw [pending?, hu.call hlt]
      exact hpend
    rcases mem_tickets.1 (hw'.pending t _ hpend') with ⟨feed', hf⟩ | hg
    · -- it waits for the feed that its pending tells
      obtain ⟨⟨t', e'⟩, hmem, rfl⟩ := List.mem_map.1 hf
      obtain ⟨feeds', hp, -⟩ := hw'.queued feed' t' e' hmem
      cases hpend'.symm.trans hp
      exact .waiting hsplit hf hpend'
    · obtain ⟨x, hx, ht⟩ := List.mem_map.1 hg
      rcases hu.enters x hx ht with hold | hgo | hle
      · obtain ⟨g₁, g₂, rfl⟩ := List.append_of_mem hold
        exact absurd (ht ▸ hwait) (hw.not_mem_waiters feed).1
      · cases (letGo?_eq_some hpend).symm.trans hgo
        have hsplit' : feeds = told ++ [feed] ++ left := by simpa using hsplit
        exact .going hsplit' hx
      · exact absurd hlt (Nat.not_lt.2 hle)

/-- A call that goes on has told all feeds but those that it has still to tell. -/
theorem of_going {e' : Event} {left : List Feed} (hw : Waits s (g ++ ⟨t, e', left⟩ :: k))
    (hp : Progress s (g ++ ⟨t, e', left⟩ :: k) t e feeds ds) :
    e' = e ∧ ∃ told, feeds = told ++ left ∧ ds = tellsOf t e told := by
  cases hp with
  | @going told left' hsplit hmem =>
    have hnd : ((g ++ ⟨t, e', left⟩ :: k).map Telling.ticket).Nodup :=
      (List.nodup_append.1 hw.nodup).2.1
    have hsame := List.inj_on_of_nodup_map hnd hmem
      (List.mem_append_right g List.mem_cons_self) rfl
    cases hsame
    exact ⟨rfl, told, hsplit, rfl⟩
  | @waiting told feed left' hsplit hwait =>
    exact absurd hwait (hw.not_mem_waiters feed).1
  | ended hi => exact absurd rfl hi.ne_of_going

end Progress

variable {s₀ s : Session α} {g₀ g : List Telling} {ds : List Deed} {t : Ticket} {e : Event}
  {feeds : List Feed}

/-- Whatever happens, a call tells its feeds in their order, and ends when it has told all. -/
theorem Ran.progress (hr : Reached s₀ g₀) (hrun : Ran s₀ g₀ ds s g)
    (h0 : Progress s₀ g₀ t e feeds []) : Progress s g t e feeds (deedsOf t ds) := by
  refine hrun.induction (Q := fun ds s g => Progress s g t e feeds ds) hr h0 ?_ ?_ ?_ ?_
  · intro ds s g s' g' hr hr' hu hp
    exact hp.unmoved hr.waits hr'.waits hu
  · intro ds s g k e' feed left h r hr _ _ hp
    obtain ⟨rfl, told, hsplit, rfl⟩ := hp.of_going hr.waits
    rw [← tellsOf_concat]
    exact .going (by simpa using hsplit) (by simp)
  · intro ds s g k e' feed left h hr hemit hp
    obtain ⟨rfl, told, hsplit, rfl⟩ := hp.of_going hr.waits
    have hlt := (hr.waits.going ⟨t, e', feed :: left⟩ (by simp)).1
    rw [← tellsOf_concat]
    refine .waiting hsplit ?_ (pending?_setPending_self (s := s.setHub feed h) hlt _)
    show t ∈ ((s.setHub feed h).service.hub feed).waiters
    rw [service_setHub_hub_self, Hub.waiters, Hub.emit_waiting hemit]
    simp
  · intro ds s g k e' hr hp
    obtain ⟨rfl, told, hsplit, rfl⟩ := hp.of_going hr.waits
    rw [List.append_nil] at hsplit
    subst hsplit
    have hlt := (hr.waits.going ⟨t, e', []⟩ (by simp)).1
    refine .ended ⟨?_, pending?_setPending_self hlt _, (hr.waits.not_mem_waiters .log).2⟩
    rw [length_setPending]
    exact hlt

end Session

end CallFeed

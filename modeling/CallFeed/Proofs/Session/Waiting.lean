/-
  CallFeed — where calls wait.

  * `Waits`: a call that is not done goes on or waits at one hub, and at one place there;
    it waits at the hub of the feed that it has to tell first, with its own event, and log
    comes before stat;
  * `Stepped.waits`: whatever happens in a session keeps this, hence `Reached.waits`.
-/
import CallFeed.Proofs.Session.Steps
import Mathlib.Data.List.Nodup

namespace CallFeed

namespace Hub

/-- The tickets of the emits that wait. -/
def waiters (h : Hub) : List Ticket := h.waiting.map Prod.fst

theorem mem_waiters {h : Hub} {t : Ticket} {e : Event} (hm : (t, e) ∈ h.waiting) :
    t ∈ h.waiters := List.mem_map.2 ⟨(t, e), hm, rfl⟩

/-- A dispatcher lets go of the emits that have waited longest. -/
theorem Dispatched.waiting {now : Nat} {h h' : Hub} {ts : List Ticket}
    (hd : Dispatched now h h' ts) : ∃ w, h.waiting = w ++ h'.waiting ∧ ts = w.map Prod.fst := by
  cases hd with
  | close => exact ⟨h.waiting, (List.append_nil _).symm, rfl⟩
  | @refill e rest t e' more _ _ _ _ hw => exact ⟨[(t, e')], hw, rfl⟩
  | take _ _ _ _ hw => exact ⟨[], rfl, rfl⟩
  | _ => exact ⟨[], rfl, rfl⟩

theorem emit_waiting {h h' : Hub} {t : Ticket} {e : Event}
    (he : h.emit t e = (h', .waiting)) : h'.waiting = h.waiting ++ [(t, e)] := by
  simp only [emit] at he
  split at he
  · split at he
    · cases he
    · cases he
      rfl
  · cases he

theorem emit_not_waiting {h h' : Hub} {t : Ticket} {e : Event} {r : EmitStart}
    (he : h.emit t e = (h', r)) (hr : r ≠ .waiting) : h'.waiting = h.waiting := by
  simp only [emit] at he
  split at he
  · split at he
    · cases he
      rfl
    · cases he
      exact absurd rfl hr
  · cases he
    rfl

end Hub

namespace Session

variable {α : Type}

/-! ## What calls wait for -/

theorem pending?_lt {s : Session α} {t : Ticket} {x : Event × List Feed}
    (hp : s.pending? t = some x) : t < s.calls.length := by
  by_contra hge
  rw [pending?, List.getElem?_eq_none (Nat.not_lt.1 hge)] at hp
  cases hp

theorem pending?_setHub (s : Session α) (feed : Feed) (h : Hub) (t : Ticket) :
    (s.setHub feed h).pending? t = s.pending? t := rfl

theorem length_setPending (s : Session α) (t : Ticket) (x : Option (Event × List Feed)) :
    (s.setPending t x).calls.length = s.calls.length := by
  simp [setPending]

theorem pending?_setPending_self {s : Session α} {t : Ticket} (ht : t < s.calls.length)
    (x : Option (Event × List Feed)) : (s.setPending t x).pending? t = x := by
  simp [pending?, setPending, List.getElem?_eq_getElem ht]

theorem pending?_setPending_ne {s : Session α} {t t' : Ticket} (hne : t' ≠ t)
    (x : Option (Event × List Feed)) : (s.setPending t x).pending? t' = s.pending? t' := by
  simp [pending?, setPending, hne.symm]

theorem pending?_enterCall (s : Session α) (r : Request α) (t : Ticket) :
    (s.enterCall r).pending? t = s.pending? t := by
  simp only [pending?, enterCall]
  rcases Nat.lt_trichotomy t s.calls.length with hlt | rfl | hgt
  · rw [List.getElem?_append_left hlt]
  · simp
  · rw [List.getElem?_eq_none (Nat.le_of_lt hgt),
      List.getElem?_eq_none (by rw [List.length_append]; exact hgt)]

theorem letGo?_eq_some {s : Session α} {t : Ticket} {e : Event} {feed : Feed} {feeds : List Feed}
    (hp : s.pending? t = some (e, feed :: feeds)) : s.letGo? t = some ⟨t, e, feeds⟩ := by
  rw [letGo?, hp]

/-! ## The places of calls -/

/-- The tickets of the calls that wait at the hubs or go on. -/
def tickets (s : Session α) (g : List Telling) : List Ticket :=
  (s.service.hub .log).waiters ++ (s.service.hub .stat).waiters ++ g.map Telling.ticket

theorem mem_tickets {s : Session α} {g : List Telling} {t : Ticket} : t ∈ s.tickets g ↔
    (∃ feed, t ∈ (s.service.hub feed).waiters) ∨ t ∈ g.map Telling.ticket := by
  simp only [tickets, List.mem_append]
  constructor
  · rintro ((hl | hs) | hg)
    · exact Or.inl ⟨.log, hl⟩
    · exact Or.inl ⟨.stat, hs⟩
    · exact Or.inr hg
  · rintro (⟨feed, hf⟩ | hg)
    · cases feed
      · exact Or.inl (Or.inl hf)
      · exact Or.inl (Or.inr hf)
    · exact Or.inr hg

/-- What the tickets gain if the hub of a feed becomes `h`. -/
theorem count_tickets_setHub (s : Session α) (feed : Feed) (h : Hub) (g : List Telling)
    (t : Ticket) :
    ((s.setHub feed h).tickets g).count t + (s.service.hub feed).waiters.count t =
      (s.tickets g).count t + h.waiters.count t := by
  simp only [tickets, List.count_append]
  cases feed with
  | log =>
    have hstat : (s.setHub .log h).service.hub .stat = s.service.hub .stat := rfl
    rw [service_setHub_hub_self, hstat]
    omega
  | stat =>
    have hlog : (s.setHub .stat h).service.hub .log = s.service.hub .log := rfl
    rw [service_setHub_hub_self, hlog]
    omega

/-- The calls that are not done wait, each at one place, or go on. -/
structure Waits (s : Session α) (g : List Telling) : Prop where
  nodup : (s.tickets g).Nodup
  queued : ∀ feed t e, (t, e) ∈ (s.service.hub feed).waiting →
    ∃ feeds, s.pending? t = some (e, feed :: feeds) ∧ (feed :: feeds).Sublist [.log, .stat]
  pending : ∀ t x, s.pending? t = some x → t ∈ s.tickets g
  going : ∀ x ∈ g, x.ticket < s.calls.length ∧ x.feeds.Sublist [.log, .stat]

namespace Waits
variable {s s' : Session α} {g g' : List Telling}

theorem lt_length (hw : Waits s g) {t : Ticket} (ht : t ∈ s.tickets g) : t < s.calls.length := by
  rcases mem_tickets.1 ht with ⟨feed, hf⟩ | hg
  · obtain ⟨⟨t', e⟩, hmem, rfl⟩ := List.mem_map.1 hf
    obtain ⟨feeds, hp, -⟩ := hw.queued feed t' e hmem
    exact pending?_lt hp
  · obtain ⟨x, hx, rfl⟩ := List.mem_map.1 hg
    exact (hw.going x hx).1

/-- Nothing changes for the calls. -/
theorem frame (hw : Waits s g) (hcalls : s'.calls = s.calls)
    (hwait : ∀ feed, (s'.service.hub feed).waiting = (s.service.hub feed).waiting) :
    Waits s' g := by
  have hp : ∀ t, s'.pending? t = s.pending? t := fun t => by rw [pending?, pending?, hcalls]
  have ht : s'.tickets g = s.tickets g := by
    simp only [tickets, Hub.waiters, hwait]
  refine ⟨ht ▸ hw.nodup, fun feed t e hmem => ?_, fun t x hx => ?_, hcalls ▸ hw.going⟩
  · rw [hp]
    exact hw.queued feed t e (hwait feed ▸ hmem)
  · rw [ht]
    exact hw.pending t x (hp t ▸ hx)

/-- A dispatcher does something: those that it lets go go on. -/
theorem dispatch (hw : Waits s g) {feed : Feed} {h : Hub} {ts : List Ticket}
    (hd : Hub.Dispatched s.now (s.service.hub feed) h ts) :
    Waits (s.setHub feed h) (g ++ ts.filterMap s.letGo?) := by
  obtain ⟨w, hwait, rfl⟩ := hd.waiting
  -- each of them waits at this hub, hence goes on with the feeds behind it
  have hgo : ∀ x ∈ w, ∃ feeds, s.letGo? x.1 = some ⟨x.1, x.2, feeds⟩ ∧
      x.1 < s.calls.length ∧ feeds.Sublist [.log, .stat] := by
    rintro ⟨t, e⟩ hx
    obtain ⟨feeds, hp, hsub⟩ := hw.queued feed t e (hwait ▸ List.mem_append_left _ hx)
    exact ⟨feeds, letGo?_eq_some hp, pending?_lt hp, (List.sublist_cons_self _ _).trans hsub⟩
  have hmap : ((w.map Prod.fst).filterMap s.letGo?).map Telling.ticket = w.map Prod.fst := by
    clear hwait hd
    induction w with
    | nil => rfl
    | cons x w ih =>
      obtain ⟨feeds, hx, -⟩ := hgo x List.mem_cons_self
      have := ih fun y hy => hgo y (List.mem_cons_of_mem _ hy)
      rw [List.map_cons, List.filterMap_cons_some hx, List.map_cons, this]
  have hperm : ((s.setHub feed h).tickets (g ++ (w.map Prod.fst).filterMap s.letGo?)).Perm
      (s.tickets g) := by
    rw [List.perm_iff_count]
    intro t
    have hcount : (s.service.hub feed).waiters.count t =
        (w.map Prod.fst).count t + h.waiters.count t := by
      rw [Hub.waiters, hwait, List.map_append, List.count_append]
      rfl
    have hgain := count_tickets_setHub s feed h g t
    simp only [tickets, List.map_append, hmap, List.count_append] at hgain ⊢
    omega
  refine ⟨hperm.nodup_iff.2 hw.nodup, fun feed' t e hmem => ?_, fun t x hx => ?_, fun x hx => ?_⟩
  · rw [pending?_setHub]
    by_cases hf : feed' = feed
    · subst hf
      rw [service_setHub_hub_self] at hmem
      exact hw.queued feed' t e (hwait ▸ List.mem_append_right _ hmem)
    · rw [service_setHub_hub_ne s hf] at hmem
      exact hw.queued feed' t e hmem
  · exact hperm.mem_iff.2 (hw.pending t x hx)
  · rcases List.mem_append.1 hx with hx | hx
    · exact hw.going x hx
    · obtain ⟨t, ht, hxt⟩ := List.mem_filterMap.1 hx
      obtain ⟨y, hy, rfl⟩ := List.mem_map.1 ht
      obtain ⟨feeds, hgo', hlt, hsub⟩ := hgo y hy
      obtain rfl := Option.some.inj (hgo'.symm.trans hxt)
      exact ⟨hlt, hsub⟩

/-- A call goes on with the next feed. -/
theorem tell {g k : List Telling} {t : Ticket} {e : Event} {feed : Feed} {feeds : List Feed}
    {h : Hub} (hw : Waits s (g ++ ⟨t, e, feed :: feeds⟩ :: k))
    (hwait : h.waiting = (s.service.hub feed).waiting) :
    Waits (s.setHub feed h) (g ++ ⟨t, e, feeds⟩ :: k) := by
  have hhub : ∀ feed', ((s.setHub feed h).service.hub feed').waiting =
      (s.service.hub feed').waiting := by
    intro feed'
    by_cases hf : feed' = feed
    · subst hf
      rw [service_setHub_hub_self, hwait]
    · rw [service_setHub_hub_ne s hf]
  have hw' : Waits (s.setHub feed h) (g ++ ⟨t, e, feed :: feeds⟩ :: k) := hw.frame rfl hhub
  have htickets : (s.setHub feed h).tickets (g ++ ⟨t, e, feeds⟩ :: k) =
      (s.setHub feed h).tickets (g ++ ⟨t, e, feed :: feeds⟩ :: k) := by
    simp [tickets]
  refine ⟨htickets ▸ hw'.nodup, hw'.queued, fun t x hx => htickets ▸ hw'.pending t x hx, ?_⟩
  intro x hx
  rcases List.mem_append.1 hx with hx | hx
  · exact hw.going x (List.mem_append_left _ hx)
  · rcases List.mem_cons.1 hx with rfl | hx
    · obtain ⟨hlt, hsub⟩ := hw.going ⟨t, e, feed :: feeds⟩ (by simp)
      exact ⟨hlt, (List.sublist_cons_self _ _).trans hsub⟩
    · exact hw.going x (List.mem_append_right _ (List.mem_cons_of_mem _ hx))

/-- A call that goes on is told of at no other place. -/
theorem not_mem_waiters {g k : List Telling} {x : Telling} (hw : Waits s (g ++ x :: k))
    (feed : Feed) : x.ticket ∉ (s.service.hub feed).waiters ∧
      x.ticket ∉ (g ++ k).map Telling.ticket := by
  have hnd := hw.nodup
  simp only [tickets, List.map_append, List.map_cons] at hnd
  rw [← List.append_assoc, List.nodup_middle] at hnd
  have hx := (List.nodup_cons.1 hnd).1
  simp only [List.mem_append, not_or] at hx
  obtain ⟨⟨⟨hlog, hstat⟩, h1⟩, h2⟩ := hx
  refine ⟨?_, ?_⟩
  · cases feed
    · exact hlog
    · exact hstat
  · rw [List.map_append, List.mem_append, not_or]
    exact ⟨h1, h2⟩

/-- A call must wait to tell the next feed. -/
theorem wait {g k : List Telling} {t : Ticket} {e : Event} {feed : Feed} {feeds : List Feed}
    {h : Hub} (hw : Waits s (g ++ ⟨t, e, feed :: feeds⟩ :: k))
    (hwait : h.waiting = (s.service.hub feed).waiting ++ [(t, e)]) :
    Waits ((s.setHub feed h).setPending t (some (e, feed :: feeds))) (g ++ k) := by
  obtain ⟨hlt, hsub⟩ := hw.going ⟨t, e, feed :: feeds⟩ (by simp)
  have hself : ((s.setHub feed h).setPending t (some (e, feed :: feeds))).pending? t =
      some (e, feed :: feeds) := pending?_setPending_self (s := s.setHub feed h) hlt _
  have hother : ∀ t' ≠ t, ((s.setHub feed h).setPending t (some (e, feed :: feeds))).pending? t' =
      s.pending? t' := fun t' hne => pending?_setPending_ne (s := s.setHub feed h) hne _
  have hperm : (((s.setHub feed h).setPending t (some (e, feed :: feeds))).tickets
      (g ++ k)).Perm (s.tickets (g ++ ⟨t, e, feed :: feeds⟩ :: k)) := by
    show ((s.setHub feed h).tickets (g ++ k)).Perm _
    rw [List.perm_iff_count]
    intro t'
    have hcount : h.waiters.count t' = (s.service.hub feed).waiters.count t' + [t].count t' := by
      rw [Hub.waiters, hwait, List.map_append, List.count_append]
      rfl
    have hcons : (t :: k.map Telling.ticket).count t' =
        [t].count t' + (k.map Telling.ticket).count t' := by
      rw [← List.count_append, List.singleton_append]
    have hgain := count_tickets_setHub s feed h (g ++ k) t'
    simp only [tickets, List.map_append, List.map_cons, List.count_append, hcons] at hgain ⊢
    omega
  refine ⟨hperm.nodup_iff.2 hw.nodup, fun feed' t' e' hmem => ?_, fun t' x hx => ?_, fun x hx => ?_⟩
  · -- the wait is either the new one or that of another call
    have hold : (t', e') ∈ (s.service.hub feed').waiting →
        ∃ feeds', ((s.setHub feed h).setPending t (some (e, feed :: feeds))).pending? t' =
          some (e', feed' :: feeds') ∧ (feed' :: feeds').Sublist [.log, .stat] := by
      intro hold
      have hne : t' ≠ t := by
        rintro rfl
        exact (hw.not_mem_waiters feed').1 (Hub.mem_waiters hold)
      rw [hother t' hne]
      exact hw.queued feed' t' e' hold
    by_cases hf : feed' = feed
    · subst hf
      have hmem' : (t', e') ∈ h.waiting := by
        simpa only [setPending, service_setHub_hub_self] using hmem
      rw [hwait] at hmem'
      rcases List.mem_append.1 hmem' with hmem' | hmem'
      · exact hold hmem'
      · cases List.mem_singleton.1 hmem'
        exact ⟨feeds, hself, hsub⟩
    · have hmem' : (t', e') ∈ (s.service.hub feed').waiting := by
        rw [← service_setHub_hub_ne s hf h]
        exact hmem
      exact hold hmem'
  · by_cases hne : t' = t
    · subst hne
      exact hperm.mem_iff.2 (mem_tickets.2 (Or.inr (by simp)))
    · rw [hother t' hne] at hx
      exact hperm.mem_iff.2 (hw.pending t' x hx)
  · have := hw.going x (by
      rcases List.mem_append.1 hx with hx | hx
      · exact List.mem_append_left _ hx
      · exact List.mem_append_right _ (List.mem_cons_of_mem _ hx))
    exact ⟨(length_setPending (s.setHub feed h) t _).symm ▸ this.1, this.2⟩

/-- A call has told all its feeds. -/
theorem finish {g k : List Telling} {t : Ticket} {e : Event}
    (hw : Waits s (g ++ ⟨t, e, []⟩ :: k)) : Waits (s.setPending t none) (g ++ k) := by
  have hlt := (hw.going ⟨t, e, []⟩ (by simp)).1
  have hsub : (g ++ k).Sublist (g ++ ⟨t, e, []⟩ :: k) :=
    (List.Sublist.refl _).append (List.sublist_cons_self _ _)
  have htickets : (s.setPending t none).tickets (g ++ k) = s.tickets (g ++ k) := rfl
  refine ⟨?_, fun feed t' e' hmem => ?_, fun t' x hx => ?_, fun x hx => ?_⟩
  · rw [htickets]
    exact hw.nodup.sublist ((List.Sublist.refl _).append (hsub.map _))
  · have hold : (t', e') ∈ (s.service.hub feed).waiting := hmem
    have hne : t' ≠ t := by
      rintro rfl
      exact (hw.not_mem_waiters feed).1 (Hub.mem_waiters hold)
    rw [pending?_setPending_ne hne]
    exact hw.queued feed t' e' hmem
  · have hne : t' ≠ t := by
      rintro rfl
      rw [pending?_setPending_self hlt] at hx
      cases hx
    rw [pending?_setPending_ne hne] at hx
    rw [htickets]
    rcases mem_tickets.1 (hw.pending t' x hx) with hf | hg
    · exact mem_tickets.2 (Or.inl hf)
    · refine mem_tickets.2 (Or.inr ?_)
      simp only [List.map_append, List.map_cons, List.mem_append, List.mem_cons] at hg ⊢
      rcases hg with hg | hg | hg
      · exact Or.inl hg
      · exact absurd hg hne
      · exact Or.inr hg
  · have := hw.going x (hsub.subset hx)
    exact ⟨(length_setPending s t _).symm ▸ this.1, this.2⟩

/-- A call is decided on, and goes on if it has something to tell. -/
theorem call (hw : Waits s g) (r : Request α) : Waits (s.enterCall r) (g ++ s.toTell r) := by
  have hlen : (s.enterCall r).calls.length = s.calls.length + 1 := by simp [enterCall]
  have htickets : (s.enterCall r).tickets (g ++ s.toTell r) =
      s.tickets g ++ (s.toTell r).map Telling.ticket := by
    simp [tickets, enterCall]
  -- its ticket is one that no call has had
  have hnew : ∀ x ∈ s.toTell r, x.ticket = s.calls.length ∧ x.feeds.Sublist [.log, .stat] := by
    intro x hx
    unfold toTell at hx
    split at hx
    · rw [List.mem_singleton.1 hx]
      exact ⟨rfl, List.filter_sublist⟩
    · cases hx
  refine ⟨?_, fun feed t e hmem => ?_, fun t x hx => ?_, fun x hx => ?_⟩
  · rw [htickets, List.nodup_append]
    refine ⟨hw.nodup, ?_, fun t ht t' ht' he => ?_⟩
    · unfold toTell
      split <;> simp
    · obtain ⟨x, hx, rfl⟩ := List.mem_map.1 ht'
      exact absurd (hw.lt_length ht) (by rw [he, (hnew x hx).1]; exact Nat.lt_irrefl _)
  · rw [pending?_enterCall]
    exact hw.queued feed t e hmem
  · rw [pending?_enterCall] at hx
    rw [htickets]
    exact List.mem_append_left _ (hw.pending t x hx)
  · rw [hlen]
    rcases List.mem_append.1 hx with hx | hx
    · exact ⟨Nat.lt_succ_of_lt (hw.going x hx).1, (hw.going x hx).2⟩
    · obtain ⟨ht, hsub⟩ := hnew x hx
      exact ⟨ht ▸ Nat.lt_succ_self _, hsub⟩

end Waits

/-- Whatever happens in a session, the calls that are not done wait or go on. -/
theorem Stepped.waits {s s' : Session α} {g g' : List Telling} {who : Option Nat} (hw : Waits s g)
    (hs : Stepped s g who s' g') : Waits s' g' := by
  cases hs with
  | dispatch feed hstep => exact hw.dispatch (Hub.step?_eq_some_iff.1 hstep)
  | tell hemit hr => exact hw.tell (Hub.emit_not_waiting hemit hr)
  | wait hemit => exact hw.wait (Hub.emit_waiting hemit)
  | finish => exact hw.finish
  | call r => exact hw.call r
  | attachLog hat =>
    obtain ⟨h, hlog, rfl⟩ := Service.attachLog_eq_ok hat
    obtain ⟨-, -, rfl⟩ := Hub.attach_eq_ok hlog
    exact hw.frame rfl fun feed => by cases feed <;> rfl
  | attachStat hat =>
    obtain ⟨h, p, hstat, rfl, -⟩ := Service.attachStat_eq_ok hat
    obtain ⟨-, -, rfl⟩ := Hub.attach_eq_ok hstat
    exact hw.frame rfl fun feed => by cases feed <;> rfl
  | refuseStat hat =>
    obtain rfl | ⟨h, p, hstat, rfl⟩ := Service.attachStat_eq_error hat
    · exact hw.frame rfl fun feed => rfl
    · obtain ⟨-, -, rfl⟩ := Hub.attach_eq_ok hstat
      exact hw.frame rfl fun feed => by cases feed <;> rfl
  | @giveUp _ i x => cases x <;> exact hw.frame rfl fun feed => by cases feed <;> rfl
  | @receive _ i p =>
    refine hw.frame rfl fun feed => ?_
    have hlog : (s.service.log.receive p).1.waiting = s.service.log.waiting := by
      unfold Hub.receive
      split <;> rfl
    cases feed
    · exact hlog
    · rfl
  | @poll _ i f =>
    refine hw.frame rfl fun feed => ?_
    have hstat : (f.poll s.now s.service.stat).2.1.waiting = s.service.stat.waiting := by
      rw [StatFeed.poll_hub]
      rfl
    cases feed
    · rfl
    · exact hstat
  | shutDown =>
    refine hw.frame rfl fun feed => ?_
    show (s.service.shutDown.1.hub feed).waiting = _
    unfold Service.shutDown
    split
    · rfl
    · cases feed <;> rfl
  | release => exact hw.frame rfl fun feed => by cases feed <;> rfl
  | clock | note | watch | signal => exact hw.frame rfl fun _ => rfl

theorem waits_start {access : AccessList} {settings : Settings} {rules : DispatchRules}
    {service : Service} (hs : Service.start? access settings rules = some service)
    (notices : List Notice) :
    Waits ({ service, now := 0, calls := [], subscriptions := [], signalled := false, watchers := 0
             notices } : Session α) [] := by
  obtain ⟨-, -, hhub⟩ := Service.start?_eq_some hs
  have hwait : ∀ feed, (service.hub feed).waiting = [] := by
    intro feed
    obtain ⟨-, he⟩ := Hub.start?_eq_some (hhub feed)
    rw [he]
  refine ⟨?_, fun feed t e hmem => ?_, fun t x hx => ?_, by simp⟩
  · simp [tickets, Hub.waiters, hwait]
  · rw [show _ = service.hub feed from rfl, hwait] at hmem
    cases hmem
  · cases hx

theorem Reached.waits {s : Session α} {g : List Telling} (hr : Reached s g) : Waits s g := by
  induction hr with
  | start hs => exact waits_start hs _
  | step _ hs ih => exact hs.waits ih

end Session

end CallFeed

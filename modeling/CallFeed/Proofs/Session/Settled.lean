/-
  CallFeed — settled sessions: no wake-up is lost.

  * `Waits.isPending_iff`: when no call goes on, the calls that are not done are those that
    wait at exactly one hub;
  * `settled_situations` is what a session is like in which nobody has anything to do.
-/
import CallFeed.Proofs.Session.Driven

namespace CallFeed

namespace Session

variable {α : Type} {s : Session α}

/-- A ticket is told of at one hub at most. -/
theorem Waits.feed_unique {g : List Telling} (hw : Waits s g) {t : Ticket} {feed feed' : Feed}
    (hf : t ∈ (s.service.hub feed).waiters) (hf' : t ∈ (s.service.hub feed').waiters) :
    feed = feed' := by
  obtain ⟨⟨t, e⟩, hmem, rfl⟩ := List.mem_map.1 hf
  obtain ⟨⟨t', e'⟩, hmem', he⟩ := List.mem_map.1 hf'
  obtain rfl : t' = t := he
  obtain ⟨feeds, hp, -⟩ := hw.queued feed _ e hmem
  obtain ⟨feeds', hp', -⟩ := hw.queued feed' _ e' hmem'
  cases hp.symm.trans hp'
  rfl

theorem Waits.isPending_iff (hw : Waits s []) (t : Ticket) :
    s.isPending t = true ↔ ∃! feed, t ∈ (s.service.hub feed).waiters := by
  constructor
  · intro hp
    obtain ⟨x, hx⟩ := Option.isSome_iff_exists.1 hp
    rcases mem_tickets.1 (hw.pending t x hx) with ⟨feed, hf⟩ | hg
    · exact ⟨feed, hf, fun feed' hf' => hw.feed_unique hf' hf⟩
    · cases hg
  · rintro ⟨feed, hf, -⟩
    obtain ⟨⟨t, e⟩, hmem, rfl⟩ := List.mem_map.1 hf
    obtain ⟨feeds, hp, -⟩ := hw.queued feed t e hmem
    exact Option.isSome_iff_exists.2 ⟨_, hp⟩

/-- Emits wait at one hub each once. -/
theorem Waits.nodup_waiters {g : List Telling} (hw : Waits s g) (feed : Feed) :
    (s.service.hub feed).waiters.Nodup := by
  have hhubs := (List.nodup_append.1 hw.nodup).1
  cases feed with
  | log => exact (List.nodup_append.1 hhubs).1
  | stat => exact (List.nodup_append.1 hhubs).2.1

/-- **No wake-up is lost.** When no call goes on and no dispatcher has anything to do, each
    hub is in exactly one of three situations: it waits for an event, it waits for space in the
    full queue of one live subscriber, not yet as long as the limit, or it has stopped. No
    queue holds more than it can, and emits wait only while the inbound queue is open and full.
    The calls that are not done are those that wait at exactly one hub, once; that hub
    waits for a subscriber; and so does a hub that has not stopped after a shutdown. -/
theorem settled_situations (hr : Reached s []) (hs : Settled s) :
    (∀ feed, ∃! x, (s.service.hub feed).InSituation s.now x) ∧
    (∀ feed, (s.service.hub feed).Bounds) ∧
    (∀ feed, (s.service.hub feed).waiters.Nodup) ∧
    (∀ t, s.isPending t = true ↔ ∃! feed, t ∈ (s.service.hub feed).waiters) ∧
    (∀ feed, ∀ t ∈ (s.service.hub feed).waiters,
      ∃ p, (s.service.hub feed).InSituation s.now (.blocked p)) ∧
    (s.service.isShutDown = true ∨ s.service.released = true → ∀ feed,
      (s.service.hub feed).InSituation s.now .stopped ∨
        ∃ p, (s.service.hub feed).InSituation s.now (.blocked p)) := by
  have hd := hr.sound
  have hw := hr.waits
  have hsit : ∀ feed, ∃! x, (s.service.hub feed).InSituation s.now x := fun feed =>
    (hd.arises feed).situation (hd.timely feed) (hs feed)
  refine ⟨hsit, fun feed => (hd.arises feed).bounds, hw.nodup_waiters, hw.isPending_iff, ?_, ?_⟩
  · intro feed t ht
    have hne : (s.service.hub feed).waiting ≠ [] := by
      intro hnil
      rw [Hub.waiters, hnil] at ht
      cases ht
    obtain ⟨x, hx, -⟩ := hsit feed
    cases x with
    | idle => exact absurd hx.2.2.2.2 hne
    | blocked p => exact ⟨p, hx⟩
    | stopped => exact absurd hx.2.2.2.2 hne
  · intro hdown feed
    obtain ⟨x, hx, -⟩ := hsit feed
    cases x with
    | idle => cases (hd.closing hdown feed).symm.trans hx.2.1
    | blocked p => exact Or.inr ⟨p, hx⟩
    | stopped => exact Or.inl hx

/-- Four calls, told to a subscriber of the log feed whose queue holds one event, with an
    inbound queue for one: the last call waits, and a shutdown does not change that. -/
theorem settled_situations_blocked :
    ∃ s₀ s : Session Unit, open? (AccessList.ofRows []) ⟨1, 1, some 5⟩ {} = some s₀ ∧
      s = (((s₀.perform .attachLog).1.perform (.call (some 4) (.report "a" "/m"))).1.perform
        .shutDown).1 ∧
      s.isPending 3 = true ∧ ∃ p, (s.service.hub .log).InSituation s.now (.blocked p) := by
  have ho : (open? (AccessList.ofRows []) ⟨1, 1, some 5⟩ {} : Option (Session Unit)) =
      some _ := rfl
  obtain ⟨hr, -⟩ := reached_open? ho
  have hattached := reached_perform .attachLog hr
  have hcalled := reached_perform (.call (some 4) (.report "a" "/m")) hattached
  have hr' := reached_perform .shutDown hcalled
  have hs' := settled_perform .shutDown hcalled
  obtain ⟨-, -, -, -, hwait, -⟩ := settled_situations hr' hs'
  exact ⟨_, _, ho, rfl, rfl, hwait .log 3 (by decide)⟩

end Session

end CallFeed

/-
  CallFeed — what becomes of an emit.

  * `Accounts`: every emit is taken for broadcast, queued, waiting, or dropped, in the
    order in which the emits began; a move keeps it (`Accounts.moved`);
  * `accounts_follow`: a run that has closed the inbound queue has done so at one
    moment, and what was accepted then is what is ever accepted;
  * `emits_accounted`: what has become of the emits of a run, at every moment of it.
-/
import CallFeed.Proofs.Hub.History

namespace CallFeed

namespace Hub

/-- The events that the inbound queue has accepted: those taken from it and those in it. -/
def accepted (h : Hub) : List Event := takenIn h.journal ++ h.inbound

/-- The emits `calls`, in the order in which they began, are accounted for: some have
    returned, the others wait. -/
structure Accounts (h : Hub) (calls : List (Ticket × Event)) (returned : List Ticket) : Prop where
  total : h.accepted ++ h.waiting.map Prod.snd ++ droppedIn h.journal = calls.map Prod.snd
  running : h.stage = .running → droppedIn h.journal = []
  shut : h.stage ≠ .running → h.waiting = []
  stopped : h.stage = .stopped → h.inbound = [] ∧ h.sending = none
  tickets : (returned ++ h.waiting.map Prod.fst).Perm (calls.map Prod.fst)

variable {h h' : Hub} {calls : List (Ticket × Event)} {returned ts : List Ticket}

/-- Nothing changes in the accounts if nothing is taken, dropped, queued or made to wait. -/
theorem Accounts.frame (ha : Accounts h calls returned)
    (htaken : takenIn h'.journal = takenIn h.journal)
    (hdropped : droppedIn h'.journal = droppedIn h.journal) (hin : h'.inbound = h.inbound)
    (hwait : h'.waiting = h.waiting) (hstage : h'.stage = h.stage)
    (hsend : h.sending = none → h'.sending = none) : Accounts h' calls returned where
  total := by simpa only [accepted, htaken, hdropped, hin, hwait] using ha.total
  running := by rw [hstage, hdropped]; exact ha.running
  shut := by rw [hstage, hwait]; exact ha.shut
  stopped := by
    rw [hstage, hin]
    exact fun hs => ⟨(ha.stopped hs).1, hsend (ha.stopped hs).2⟩
  tickets := by rw [hwait]; exact ha.tickets

/-- Taking an event for broadcast leaves the accounts as they are: `g` is the hub that
    has taken `e` off its inbound queue. -/
theorem Accounts.broadcast {g : Hub} {e : Event} (ha : Accounts h calls returned)
    (hstop : g.stage ≠ .stopped) (hrun : g.stage = .running ↔ h.stage = .running)
    (hj : g.journal = h.journal)
    (hqueue : h.inbound ++ h.waiting.map Prod.snd = e :: (g.inbound ++ g.waiting.map Prod.snd))
    (htickets : h.waiting.map Prod.fst = ts ++ g.waiting.map Prod.fst) :
    Accounts (g.broadcast e) calls (returned ++ ts) where
  total := by
    have ht : takenIn (g.broadcast e).journal = takenIn h.journal ++ [e] := by
      simp [Hub.broadcast, note, hj]
    have hdr : droppedIn (g.broadcast e).journal = droppedIn h.journal := by
      simp [Hub.broadcast, note, hj]
    show takenIn (g.broadcast e).journal ++ g.inbound ++ g.waiting.map Prod.snd ++ _ = _
    calc takenIn (g.broadcast e).journal ++ g.inbound ++ g.waiting.map Prod.snd ++
          droppedIn (g.broadcast e).journal
        = takenIn h.journal ++ (e :: (g.inbound ++ g.waiting.map Prod.snd)) ++
            droppedIn h.journal := by simp [ht, hdr]
      _ = h.accepted ++ h.waiting.map Prod.snd ++ droppedIn h.journal := by
          rw [← hqueue, accepted]; simp
      _ = calls.map Prod.snd := ha.total
  running := by
    intro hs
    have hdr := ha.running (hrun.1 hs)
    simpa [Hub.broadcast, note, hj] using hdr
  shut := by
    intro hs
    rw [ha.shut fun hr => hs (hrun.2 hr)] at htickets
    have hnil := (List.append_eq_nil_iff.1 htickets.symm).2
    exact List.map_eq_nil_iff.1 hnil
  stopped := fun hs => absurd hs hstop
  tickets := by
    show (returned ++ ts ++ g.waiting.map Prod.fst).Perm _
    rw [List.append_assoc, ← htickets]
    exact ha.tickets

theorem readings_closeInbound (h : Hub) :
    takenIn h.closeInbound.1.journal = takenIn h.journal ∧
      droppedIn h.closeInbound.1.journal = droppedIn h.journal ++ h.waiting.map Prod.snd := by
  obtain ⟨htaken, hdropped⟩ := readings_map_dropped h.waiting
  simp [closeInbound, htaken, hdropped]

/-- Closing the inbound queue drops what waits, all else being dropped later. -/
theorem Accounts.close (ha : Accounts h calls returned) (hst : h.stage = .running) :
    Accounts h.closeInbound.1 calls (returned ++ h.closeInbound.2) where
  total := by
    obtain ⟨ht, hdr⟩ := readings_closeInbound h
    rw [ha.running hst] at hdr
    rw [← ha.total, ha.running hst, hdr, accepted, ht]
    simp [closeInbound, accepted]
  running := by rintro ⟨⟩
  shut := fun _ => rfl
  stopped := by rintro ⟨⟩
  tickets := by simpa [closeInbound] using ha.tickets

theorem Accounts.dispatched {now : Nat} (ha : Accounts h calls returned)
    (hd : Dispatched now h h' ts) : Accounts h' calls (returned ++ ts) := by
  cases hd with
  | close hb hst hc => exact ha.close hst
  | take hb hst hc hin hw =>
    exact ha.broadcast (by simp [hst]) (by simp) rfl (by simp [hin]) rfl
  | refill hb hst hc hin hw =>
    exact ha.broadcast (by simp [hst]) (by simp) rfl (by simp [hin, hw]) (by simp [hw])
  | drain hb hst hin =>
    exact ha.broadcast (by simp) (by simp [hst]) rfl (by simp [hin]) rfl
  | stop hb hst hin =>
    rw [List.append_nil]
    refine ⟨?_, by rintro ⟨⟩, fun _ => ha.shut (by simp [hst]), fun _ => ⟨hin, hb⟩, ha.tickets⟩
    simpa [accepted, stop, note] using ha.total
  | finish hb | evict hb | gone hb | deliver hb | await hb | overdue hb =>
    rw [List.append_nil]
    refine ha.frame ?_ ?_ rfl rfl rfl (fun hn => by cases hb.symm.trans hn) <;>
      simp [deliver, fail, await, setQueue, note]

@[simp] theorem emitsOf_emit (t : Ticket) (e : Event) : emitsOf [.emit t e] = [(t, e)] := rfl

/-- Every move keeps the accounts, with the emit that it begins entered. -/
theorem Accounts.moved {m : Move} (ha : Accounts h calls returned) (hm : Moved h m h' ts) :
    Accounts h' (calls ++ emitsOf [m]) (returned ++ ts) := by
  cases hm with
  | @accept t e hst hw hroom =>
    have hdr := ha.running hst
    refine ⟨?_, fun _ => ?_, fun hs => absurd hst hs, fun hs => ?_, ?_⟩
    · have htotal := ha.total
      simp only [accepted, hdr, hw] at htotal
      simp [accepted, note, hw, hdr, ← htotal]
    · simpa [note] using hdr
    · cases hst.symm.trans hs
    · simpa [note, hw] using ha.tickets.append_right [t]
  | @queue t e hst hfull =>
    have hdr := ha.running hst
    refine ⟨?_, fun _ => ?_, fun hs => absurd hst hs, fun hs => ?_, ?_⟩
    · have htotal := ha.total
      simp only [accepted, hdr] at htotal
      simp [accepted, note, hdr, ← htotal]
    · simpa [note] using hdr
    · cases hst.symm.trans hs
    · simpa [note] using ha.tickets.append_right [t]
  | @drop t e hst =>
    have hw := ha.shut hst
    refine ⟨?_, fun hs => absurd hs hst, fun _ => hw, ha.stopped, ?_⟩
    · simp [accepted, note, hw, ← ha.total]
    · simpa [note, hw] using ha.tickets.append_right [t]
  | dispatch hd =>
    show Accounts h' (calls ++ []) _
    rw [List.append_nil]
    exact ha.dispatched hd
  | @receiveAll p hh =>
    obtain ⟨htaken, hdropped, -⟩ := readings_map_received p p (h.queue p).events
    show Accounts _ (calls ++ []) (returned ++ [])
    rw [List.append_nil, List.append_nil]
    exact ha.frame (by simp [htaken]) (by simp [hdropped]) rfl rfl rfl id
  | attach | refuse | detach | receive | look | requestClose | dropSender =>
    show Accounts _ (calls ++ []) (returned ++ [])
    rw [List.append_nil, List.append_nil]
    refine ha.frame ?_ ?_ rfl rfl rfl id <;>
      simp [Hub.detach, Hub.requestClose, Hub.dropSender, setQueue, note]

/-! ## The inbound queue is closed once -/

/-- A hub that has closed its inbound queue accepts nothing more, and drops what is
    emitted. -/
theorem Moved.closed {m : Move} (hm : Moved h m h' ts) (hst : h.stage ≠ .running) :
    h'.stage ≠ .running ∧ h'.accepted = h.accepted ∧
      droppedIn h'.journal = droppedIn h.journal ++ (emitsOf [m]).map Prod.snd := by
  cases hm with
  | accept hr | queue hr => exact absurd hr hst
  | drop => exact ⟨hst, by simp [accepted, note], by simp [note]⟩
  | @receiveAll p hh =>
    obtain ⟨htaken, hdropped, -⟩ := readings_map_received p p (h.queue p).events
    exact ⟨hst, by simp [accepted, setQueue, htaken], by simp [hdropped, emitsOf, Move.emit?]⟩
  | attach | refuse | detach | receive | look | requestClose | dropSender =>
    refine ⟨hst, ?_, ?_⟩ <;>
      simp [accepted, Hub.detach, Hub.requestClose, Hub.dropSender, setQueue, note, emitsOf,
        Move.emit?]
  | dispatch hd =>
    cases hd with
    | close _ hr | take _ hr | refill _ hr => exact absurd hr hst
    | drain hb hs hin =>
      exact ⟨by rintro ⟨⟩, by simp [accepted, Hub.broadcast, note, hin],
        by simp [Hub.broadcast, note, emitsOf, Move.emit?]⟩
    | stop hb hs hin =>
      exact ⟨by rintro ⟨⟩, by simp [accepted, Hub.stop, note],
        by simp [Hub.stop, note, emitsOf, Move.emit?]⟩
    | finish | evict | gone | deliver | await | overdue =>
      refine ⟨hst, ?_, ?_⟩ <;>
        simp [accepted, Hub.deliver, Hub.fail, Hub.await, setQueue, note, emitsOf, Move.emit?]

/-- Only the dispatcher closes the inbound queue. -/
theorem Moved.closes {m : Move} (hm : Moved h m h' ts) (hst : h.stage = .running)
    (hst' : h'.stage ≠ .running) :
    ∃ now, m = .dispatch now ∧ h.step? now = some h.closeInbound ∧ h' = h.closeInbound.1 := by
  cases hm with
  | @dispatch now _ _ hd =>
    have hstep := step?_eq_some_iff.2 hd
    cases hd with
    | close => exact ⟨now, rfl, hstep, rfl⟩
    | drain _ hs | stop _ hs => cases hst.symm.trans hs
    | finish | evict | gone | deliver | await | overdue | take | refill => exact absurd hst hst'
  | _ => exact absurd hst hst'

theorem Accounts.start {feed : Feed} {settings : Settings} {senders : Nat}
    (h0 : start? feed settings senders = some h) : h.stage = .running ∧ Accounts h [] [] := by
  obtain ⟨-, rfl⟩ := start?_eq_some h0
  exact ⟨rfl, rfl, fun _ => rfl, fun _ => rfl, by rintro ⟨⟩, List.Perm.nil⟩

/-- The accounts of a run, and the moment at which it has closed the inbound queue: `g` is
    the hub right before. -/
theorem accounts_follow {h₀ : Hub} {ms : List Move} (h0 : h₀.stage = .running)
    (ha : Accounts h₀ [] []) (hr : h₀.follow? ms = some (h, ts)) :
    Accounts h (emitsOf ms) ts ∧ (h.stage ≠ .running →
      ∃ ns now g us rest, ms = ns ++ .dispatch now :: rest ∧ h₀.follow? ns = some (g, us) ∧
        g.stage = .running ∧ g.step? now = some g.closeInbound ∧ h.accepted = g.accepted ∧
        droppedIn h.journal = g.waiting.map Prod.snd ++ (emitsOf rest).map Prod.snd) := by
  refine follow_induction (P := fun ms h ts => Accounts h (emitsOf ms) ts ∧ (h.stage ≠ .running →
    ∃ ns now g us rest, ms = ns ++ .dispatch now :: rest ∧ h₀.follow? ns = some (g, us) ∧
      g.stage = .running ∧ g.step? now = some g.closeInbound ∧ h.accepted = g.accepted ∧
      droppedIn h.journal = g.waiting.map Prod.snd ++ (emitsOf rest).map Prod.snd))
    ⟨ha, absurd h0⟩ ?_ hr
  intro ms h ts m h' us hf ⟨ih, ihc⟩ hm
  have hacc : Accounts h' (emitsOf (ms ++ [m])) (ts ++ us) := by
    have := ih.moved hm
    rwa [emitsOf, emitsOf, ← List.filterMap_append] at this
  refine ⟨hacc, fun hst' => ?_⟩
  by_cases hst : h.stage = .running
  · obtain ⟨now, rfl, hclose, rfl⟩ := hm.closes hst hst'
    obtain ⟨ht, hdr⟩ := readings_closeInbound h
    refine ⟨ms, now, h, ts, [], rfl, hf, hst, hclose, ?_, ?_⟩
    · rw [accepted, ht]
      rfl
    · rw [hdr, ih.running hst]
      simp [emitsOf]
  · obtain ⟨-, hacc', hdr⟩ := hm.closed hst
    obtain ⟨ns, now, g, vs, rest, rfl, hg, hgst, hclose, he, hd⟩ := ihc hst
    refine ⟨ns, now, g, vs, rest ++ [m], by simp, hg, hgst, hclose, hacc'.trans he, ?_⟩
    rw [hdr, hd]
    simp [emitsOf]

/-- **Nothing accepted is lost and nothing overtakes.** While the inbound queue is open, the
    emits begun are those accepted and, behind them, those that wait. When it has been closed,
    those accepted are the ones that were accepted before the close; those that waited then
    are dropped, and so is everything emitted later. Broadcasts follow the order of the
    emits, every emit that does not wait has returned, and a hub that has stopped has
    broadcast all that it accepted. -/
theorem emits_accounted {feed : Feed} {settings : Settings} {senders : Nat} {h₀ : Hub}
    {ms : List Move} (h0 : start? feed settings senders = some h₀)
    (hr : h₀.follow? ms = some (h, returned)) :
    (h.stage = .running →
      takenIn h.journal ++ h.inbound ++ h.waiting.map Prod.snd = (emitsOf ms).map Prod.snd) ∧
    (h.stage ≠ .running → h.waiting = [] ∧
      ∃ ns now g us rest, ms = ns ++ .dispatch now :: rest ∧ h₀.follow? ns = some (g, us) ∧
        g.stage = .running ∧ g.step? now = some g.closeInbound ∧
        takenIn h.journal ++ h.inbound = takenIn g.journal ++ g.inbound ∧
        (emitsOf ns).map Prod.snd =
          takenIn g.journal ++ g.inbound ++ g.waiting.map Prod.snd ∧
        droppedIn h.journal = g.waiting.map Prod.snd ++ (emitsOf rest).map Prod.snd) ∧
    takenIn h.journal <+: (emitsOf ms).map Prod.snd ∧
    (returned ++ h.waiting.map Prod.fst).Perm ((emitsOf ms).map Prod.fst) ∧
    (h.stage = .stopped → h.inbound = [] ∧ h.sending = none) := by
  obtain ⟨hst₀, ha₀⟩ := Accounts.start h0
  obtain ⟨ha, hc⟩ := accounts_follow hst₀ ha₀ hr
  refine ⟨fun hst => ?_, fun hst => ⟨ha.shut hst, ?_⟩, ?_, ha.tickets, ha.stopped⟩
  · have htotal := ha.total
    rwa [ha.running hst, List.append_nil] at htotal
  · obtain ⟨ns, now, g, us, rest, hms, hg, hgst, hclose, he, hd⟩ := hc hst
    have hga := (accounts_follow hst₀ ha₀ hg).1
    refine ⟨ns, now, g, us, rest, hms, hg, hgst, hclose, he, ?_, hd⟩
    have htotal := hga.total
    rw [hga.running hgst, List.append_nil] at htotal
    exact htotal.symm
  · rw [← ha.total, accepted]
    simp only [List.append_assoc]
    exact List.prefix_append _ _

/-- Of four emits to a queue for one event, two are accepted, one waits when the hub is
    told to close, and one comes later: a hub that stops has broadcast the first two. -/
theorem emits_accounted_stopped :
    ∃ h₀ h returned, start? .log ⟨1, 1, none⟩ 1 = some h₀ ∧
      h₀.follow? [.emit 0 ⟨"a", "/m", none⟩, .emit 1 ⟨"b", "/m", none⟩,
        .emit 2 ⟨"c", "/m", none⟩, .dispatch 0, .dispatch 0, .requestClose, .dispatch 0,
        .emit 3 ⟨"d", "/m", none⟩, .dispatch 0, .dispatch 0, .dispatch 0] =
          some (h, returned) ∧
      h.stage = .stopped ∧ h.inbound = [] ∧ returned.Perm [0, 1, 2, 3] ∧
      takenIn h.journal = [⟨"a", "/m", none⟩, ⟨"b", "/m", none⟩] := by
  have h0 : start? .log ⟨1, 1, none⟩ 1 =
      some ⟨.log, ⟨1, 1, none⟩, 1, false, .running, [], [], [], [], none, [.started]⟩ := rfl
  have hr : follow? [.emit 0 ⟨"a", "/m", none⟩, .emit 1 ⟨"b", "/m", none⟩,
      .emit 2 ⟨"c", "/m", none⟩, .dispatch 0, .dispatch 0, .requestClose, .dispatch 0,
      .emit 3 ⟨"d", "/m", none⟩, .dispatch 0, .dispatch 0, .dispatch 0]
      ⟨.log, ⟨1, 1, none⟩, 1, false, .running, [], [], [], [], none, [.started]⟩ =
      some (⟨.log, ⟨1, 1, none⟩, 1, true, .stopped, [], [], [], [], none,
        [.started, .emitted ⟨"a", "/m", none⟩, .emitted ⟨"b", "/m", none⟩,
          .emitted ⟨"c", "/m", none⟩, .taken ⟨"a", "/m", none⟩ [], .closed,
          .dropped ⟨"c", "/m", none⟩, .emitted ⟨"d", "/m", none⟩,
          .dropped ⟨"d", "/m", none⟩, .taken ⟨"b", "/m", none⟩ [], .stopped 0 1]⟩,
        [0, 1, 2, 3]) := rfl
  obtain ⟨-, -, -, hreturned, hstop⟩ := emits_accounted h0 hr
  exact ⟨_, _, _, h0, hr, rfl, (hstop rfl).1, hreturned, rfl⟩

end Hub

end CallFeed

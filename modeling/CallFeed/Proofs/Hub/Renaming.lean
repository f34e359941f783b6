/-
  CallFeed — hubs whose events are given other names.

  A hub hands its events on and never looks into them. `Hub.map` puts other events in their
  place, and whatever is done to a hub may be done before or after (`map_step?`, `map_emit`,
  `map_attach`, ..); a stat subscription alone looks at them, for their methods and their
  consumers (`poll_map`). Hubs with the same image do the same (`step?_of_map_eq`).
-/
import CallFeed.Hub.Dispatch
import CallFeed.Window

namespace CallFeed

/-- The occurrence with another event in its place. -/
def Occurrence.map (f : Event → Event) : Occurrence → Occurrence
  | emitted e => emitted (f e)
  | dropped e => dropped (f e)
  | taken e targets => taken (f e) targets
  | delivered p e => delivered p (f e)
  | received p e => received p (f e)
  | o => o

def Queue.map (f : Event → Event) (q : Queue) : Queue := { q with events := q.events.map f }

def Broadcast.map (f : Event → Event) (b : Broadcast) : Broadcast := { b with event := f b.event }

namespace Hub

/-- The hub with other events in the place of its own. -/
def map (f : Event → Event) (h : Hub) : Hub :=
  { h with
    inbound := h.inbound.map f
    waiting := h.waiting.map fun w => (w.1, f w.2)
    queues := h.queues.map (Queue.map f)
    sending := h.sending.map (Broadcast.map f)
    journal := h.journal.map (Occurrence.map f) }

section
variable (f : Event → Event) (h : Hub)

/-! ## Parts of a hub -/

theorem map_note (o : Occurrence) : (h.map f).note (o.map f) = (h.note o).map f := by
  simp [note, map]

theorem map_queue (p : Place) : (h.map f).queue p = (h.queue p).map f := by
  simp only [queue, map, List.getElem?_map]
  cases h.queues[p]? <;> rfl

theorem map_setQueue (p : Place) (q : Queue) :
    (h.map f).setQueue p (q.map f) = (h.setQueue p q).map f := by
  simp [setQueue, map, List.map_set]

theorem map_feedsPlace (p : Place) : (h.map f).feedsPlace p = h.feedsPlace p := by
  unfold feedsPlace ahead map
  cases h.sending <;> rfl

theorem map_waiting_eq_nil : (h.map f).waiting = [] ↔ h.waiting = [] := List.map_eq_nil_iff

/-! ## The dispatcher -/

theorem map_broadcast (e : Event) : (h.map f).broadcast (f e) = (h.broadcast e).map f :=
  map_note f { h with sending := some ⟨e, h.members, none, []⟩ } (.taken e h.members)

theorem map_deliver (b : Broadcast) (p : Place) (rest : List Place) :
    (h.map f).deliver (b.map f) p rest = (h.deliver b p rest).map f := by
  unfold deliver
  have hq : (⟨((h.map f).queue p).events ++ [(b.map f).event], ((h.map f).queue p).held⟩ : Queue) =
      Queue.map f ⟨(h.queue p).events ++ [b.event], (h.queue p).held⟩ := by
    simp [map_queue, Queue.map, Broadcast.map]
  simp only [hq, map_setQueue]
  exact map_note f { h.setQueue p _ with
    sending := some { b with ahead := rest, since := none } } (.delivered p b.event)

theorem map_fail (now : Nat) (b : Broadcast) (p : Place) (rest : List Place) (reason : Eviction) :
    (h.map f).fail now (b.map f) p rest reason = (h.fail now b p rest reason).map f :=
  map_note f { h with
    sending := some { b with ahead := rest, since := none, failed := b.failed ++ [(p, reason)] } }
    (.failed p reason now)

theorem map_finish (b : Broadcast) : (h.map f).finish (b.map f) = (h.finish b).map f := by
  have hfailed : (b.map f).failed = b.failed := rfl
  unfold finish
  rw [hfailed]
  split
  · rfl
  · exact map_note f { h with sending := none, members := _ } (.evicted b.failed _)

theorem map_serve? (now : Nat) (b : Broadcast) :
    (h.map f).serve? now (b.map f) = (h.serve? now b).map (Hub.map f) := by
  have hheld : ∀ p, ((h.map f).queue p).held = (h.queue p).held := fun p => by
    rw [map_queue]
    rfl
  have hlen : ∀ p, ((h.map f).queue p).events.length = (h.queue p).events.length := fun p => by
    rw [map_queue]
    exact List.length_map _
  have hahead : (b.map f).ahead = b.ahead := rfl
  have hsince : (b.map f).since = b.since := rfl
  have hset : (h.map f).settings = h.settings := rfl
  unfold serve?
  rw [hahead, hsince, hset]
  cases b.ahead with
  | nil => exact congrArg some (map_finish f h b)
  | cons p rest =>
    simp only [hheld, hlen]
    split
    · exact congrArg some (map_fail f h now b p rest .closed)
    · split
      · exact congrArg some (map_deliver f h b p rest)
      · cases b.since with
        | none =>
          exact congrArg some (map_note f { h with sending := some { b with since := some now } }
            (.waited p now))
        | some since =>
          have hover : (h.map f).isOverdue now since = h.isOverdue now since := rfl
          simp only [hover]
          split
          · exact congrArg some (map_fail f h now b p rest .timeout)
          · rfl

theorem map_closeInbound :
    (h.map f).closeInbound = (h.closeInbound.1.map f, h.closeInbound.2) := by
  simp [closeInbound, map, Function.comp_def, Occurrence.map]

theorem map_take (e : Event) (rest : List Event) :
    (h.map f).take (f e) (rest.map f) = ((h.take e rest).1.map f, (h.take e rest).2) := by
  unfold take
  have hwait : (h.map f).waiting = h.waiting.map fun w => (w.1, f w.2) := rfl
  rw [hwait]
  cases h.waiting with
  | nil => exact congrArg (·, []) (map_broadcast f { h with inbound := rest, waiting := [] } e)
  | cons w more =>
    obtain ⟨t, e'⟩ := w
    have hb := map_broadcast f { h with inbound := rest ++ [e'], waiting := more } e
    simp only [map, List.map_append, List.map_cons, List.map_nil] at hb ⊢
    rw [hb]

/-- The dispatcher does the same whatever the events are. -/
theorem map_step? (now : Nat) :
    (h.map f).step? now = (h.step? now).map fun r => (r.1.map f, r.2) := by
  have hsending : (h.map f).sending = h.sending.map (Broadcast.map f) := rfl
  have hstage : (h.map f).stage = h.stage := rfl
  have hclosing : (h.map f).closing = h.closing := rfl
  have hinbound : (h.map f).inbound = h.inbound.map f := rfl
  have hsenders : (h.map f).senders = h.senders := rfl
  unfold step?
  rw [hsending, hstage, hclosing, hinbound, hsenders]
  cases hb : h.sending with
  | some b =>
    simp only [Option.map_some, map_serve?, Option.map_map]
    rfl
  | none =>
    cases h.stage with
    | running =>
      simp only [Option.map_none, map_waiting_eq_nil, map_closeInbound]
      split
      · rfl
      · cases h.inbound with
        | nil =>
          simp only [List.map_nil]
          split <;> rfl
        | cons e rest => exact congrArg some (map_take f h e rest)
    | draining n =>
      cases h.inbound with
      | nil => exact congrArg (fun h' => some (h', [])) (map_note f { h with
          stage := .stopped, members := [] } (.stopped h.members.length n))
      | cons e rest => exact congrArg (fun h' => some (h', [])) (map_broadcast f { h with
          inbound := rest, stage := .draining (n + 1) } e)
    | stopped => rfl

/-! ## Clients -/

theorem map_emit (t : Ticket) (e : Event) :
    (h.map f).emit t (f e) = ((h.emit t e).1.map f, (h.emit t e).2) := by
  have hnote : (h.map f).note (.emitted (f e)) = (h.note (.emitted e)).map f :=
    map_note f h (.emitted e)
  unfold emit
  rw [hnote]
  generalize h.note (.emitted e) = h'
  have hdrop : (h'.map f).note (.dropped (f e)) = (h'.note (.dropped e)).map f :=
    map_note f h' (.dropped e)
  have hstage : (h'.map f).stage = h'.stage := rfl
  have hspace : ((h'.map f).inbound.length < (h'.map f).settings.inbound) =
      (h'.inbound.length < h'.settings.inbound) := by
    rw [map, List.length_map]
  simp only [hstage, hspace, map_waiting_eq_nil]
  split
  · split
    · simp [map]
    · simp [map]
  · rw [hdrop]

theorem map_attach : (h.map f).attach = h.attach.map fun r => (r.1.map f, r.2) := by
  have hset : (h.map f).settings = h.settings := rfl
  have hstopped : (h.map f).isStopped = h.isStopped := rfl
  unfold attach
  rw [hset, hstopped]
  split
  · rfl
  · split
    · rfl
    · simp [Except.map, map, note, Queue.map, Occurrence.map]

theorem map_detach (p : Place) : (h.map f).detach p = (h.detach p).map f := by
  have hset : (h.map f).setQueue p ⟨[], false⟩ = (h.setQueue p ⟨[], false⟩).map f :=
    map_setQueue f h p ⟨[], false⟩
  unfold detach
  rw [hset]
  exact map_note f _ (.detached p)

theorem map_receive (p : Place) : ((h.map f).receive p).1 = (h.receive p).1.map f := by
  have hq : ((h.map f).queue p).events = (h.queue p).events.map f := by
    rw [map_queue]
    rfl
  unfold receive
  rw [hq]
  cases (h.queue p).events with
  | nil => rfl
  | cons e rest =>
    have hset : (h.map f).setQueue p ⟨rest.map f, ((h.map f).queue p).held⟩ =
        (h.setQueue p ⟨rest, (h.queue p).held⟩).map f := by
      rw [map_queue]
      exact map_setQueue f h p ⟨rest, (h.queue p).held⟩
    simp only [List.map_cons, hset]
    exact map_note f _ (.received p e)

theorem map_receiveAll (p : Place) : (h.map f).receiveAll p =
    ((h.receiveAll p).1.map f, (h.receiveAll p).2.map f) := by
  have hset : (h.map f).setQueue p ⟨[], ((h.map f).queue p).held⟩ =
      (h.setQueue p ⟨[], (h.queue p).held⟩).map f := by
    rw [map_queue]
    exact map_setQueue f h p ⟨[], (h.queue p).held⟩
  have hq : ((h.map f).queue p).events = (h.queue p).events.map f := by
    rw [map_queue]
    rfl
  unfold receiveAll
  simp only [hset, hq]
  simp [map, Function.comp_def, Occurrence.map]

end

/-! ## Hubs with the same image -/

section
variable {f : Event → Event} {h₁ h₂ h : Hub}

theorem waiters_of_map_eq (hm : h₁.map f = h₂.map f) :
    h₁.waiting.map Prod.fst = h₂.waiting.map Prod.fst := by
  have hw : (h₁.waiting.map fun w => (w.1, f w.2)).map Prod.fst =
      (h₂.waiting.map fun w => (w.1, f w.2)).map Prod.fst :=
    congrArg (fun h => h.waiting.map Prod.fst) hm
  simpa [Function.comp_def] using hw

theorem step?_of_map_eq (hm : h₁.map f = h₂.map f) {now : Nat} {ts : List Ticket}
    (hs : h₁.step? now = some (h, ts)) :
    ∃ h', h₂.step? now = some (h', ts) ∧ h.map f = h'.map f := by
  have hmap := map_step? f h₁ now
  rw [hm, map_step?, hs, Option.map_some, Option.map_eq_some_iff] at hmap
  obtain ⟨⟨h', ts'⟩, hs', he⟩ := hmap
  obtain ⟨he, rfl⟩ := Prod.mk.inj he
  exact ⟨h', hs', he.symm⟩

theorem emit_of_map_eq (hm : h₁.map f = h₂.map f) (t : Ticket) {e₁ e₂ : Event} (he : f e₁ = f e₂) :
    (h₁.emit t e₁).1.map f = (h₂.emit t e₂).1.map f ∧ (h₂.emit t e₂).2 = (h₁.emit t e₁).2 := by
  have hmap := map_emit f h₁ t e₁
  rw [hm, he, map_emit] at hmap
  obtain ⟨h1, h2⟩ := Prod.mk.inj hmap
  exact ⟨h1.symm, h2⟩

theorem attach_of_map_eq (hm : h₁.map f = h₂.map f) :
    (∀ h p, h₁.attach = .ok (h, p) → ∃ h', h₂.attach = .ok (h', p) ∧ h.map f = h'.map f) ∧
      ∀ e, h₁.attach = .error e → h₂.attach = .error e := by
  have hmap := map_attach f h₁
  rw [hm, map_attach] at hmap
  cases h1 : h₁.attach with
  | error e =>
    refine ⟨fun h p he => (nomatch he), fun e' he => ?_⟩
    cases h2 : h₂.attach <;> rw [h1, h2] at hmap <;> simp_all [Except.map]
  | ok x =>
    refine ⟨fun h p he => ?_, fun e he => (nomatch he)⟩
    cases h2 : h₂.attach with
    | error e => simp [h1, h2, Except.map] at hmap
    | ok y =>
      rw [h1, h2] at hmap
      cases he
      obtain ⟨hy, hp⟩ := Prod.mk.inj (Except.ok.inj hmap)
      exact ⟨y.1, congrArg Except.ok (Prod.ext rfl hp), hy.symm⟩

theorem detach_of_map_eq (hm : h₁.map f = h₂.map f) (p : Place) :
    (h₁.detach p).map f = (h₂.detach p).map f := by
  rw [← map_detach, hm, map_detach]

theorem receive_of_map_eq (hm : h₁.map f = h₂.map f) (p : Place) :
    (h₁.receive p).1.map f = (h₂.receive p).1.map f := by
  rw [← map_receive, hm, map_receive]

end

end Hub

/-! ## Stat subscriptions -/

theorem recordAll_map {f : Event → Event}
    (hf : ∀ e, (f e).consumer = e.consumer ∧ (f e).method = e.method) (x : Snapshot)
    (es : List Event) : x.recordAll (es.map f) = x.recordAll es := by
  induction es generalizing x with
  | nil => rfl
  | cons e es ih =>
    have he : x.record (f e) = x.record e := by
      rw [Snapshot.record, Snapshot.record, (hf e).1, (hf e).2]
    show (x.record (f e)).recordAll (es.map f) = (x.record e).recordAll es
    rw [he, ih]

/-- A look at a stat subscription is the same if the events have the same names. -/
theorem poll_map {f : Event → Event}
    (hf : ∀ e, (f e).consumer = e.consumer ∧ (f e).method = e.method) (x : StatFeed) (now : Nat)
    (h : Hub) : x.poll now (h.map f) =
      ((x.poll now h).1, (x.poll now h).2.1.map f, (x.poll now h).2.2) := by
  unfold StatFeed.poll
  rw [Hub.map_receiveAll]
  simp only [recordAll_map hf, Hub.map_feedsPlace]
  split <;> rfl

theorem poll_of_map_eq {f : Event → Event}
    (hf : ∀ e, (f e).consumer = e.consumer ∧ (f e).method = e.method) {h₁ h₂ : Hub}
    (hm : h₁.map f = h₂.map f) (x : StatFeed) (now : Nat) :
    (x.poll now h₂).1 = (x.poll now h₁).1 ∧
      (x.poll now h₁).2.1.map f = (x.poll now h₂).2.1.map f ∧
      (x.poll now h₂).2.2 = (x.poll now h₁).2.2 := by
  have hmap := poll_map hf x now h₁
  rw [hm, poll_map hf] at hmap
  obtain ⟨h1, h2⟩ := Prod.mk.inj hmap
  obtain ⟨h2, h3⟩ := Prod.mk.inj h2
  exact ⟨h1, h2.symm, h3⟩

end CallFeed

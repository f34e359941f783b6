/-
  CallFeed — one call with another event and another answer.

  Nothing that happens in a session depends on the peers of events or on the answer of a call.
  `Session.cast` gives one call another event and another answer, and the hubs other events;
  where the hubs have the same image, whatever happens in the one session happens in the
  other (`Stepped.twin`, `Ran.twin`), and what can be seen of them is the same
  (`metrics_of_map_eq`).
-/
import CallFeed.Proofs.Hub.Renaming
import CallFeed.Proofs.Session.Admission
import CallFeed.Session.Observe

namespace CallFeed

/-- The event and the answer of a call. -/
structure Side (α : Type) where
  event : Event
  answer : Answer α

/-- The call with this event and answer. -/
def Call.cast {α : Type} (v : Side α) (c : Call α) : Call α :=
  ⟨c.pending.map fun p => (v.event, p.2), v.answer⟩

/-- The same for the call `t` when it goes on. -/
def Telling.cast (t : Ticket) (e : Event) (x : Telling) : Telling :=
  { x with event := if x.ticket = t then e else x.event }

/-- The same for what the call `t` does. -/
def Deed.cast (t : Ticket) (e : Event) : Deed → Deed
  | .tells t' feed x => .tells t' feed (if t' = t then e else x)
  | .ends t' => .ends t'

namespace Session

variable {α : Type}

/-- The session with these hubs, in which the call `t` has this event and answer. -/
def cast (t : Ticket) (v : Side α) (hubs : Feed → Hub) (s : Session α) : Session α :=
  { s with
    service := { s.service with log := hubs .log, stat := hubs .stat }
    calls := s.calls.modify t (Call.cast v) }

/-- The call `t` has this event and answer. -/
structure Has (t : Ticket) (v : Side α) (s : Session α) (g : List Telling) : Prop where
  call : ∃ c, s.calls[t]? = some c ∧ c.cast v = c
  going : ∀ x ∈ g, x.cast t v.event = x

/-- The hubs of a session and these have the same image. -/
def Images (f : Event → Event) (s : Session α) (hubs : Feed → Hub) : Prop :=
  ∀ feed, (s.service.hub feed).map f = (hubs feed).map f

section
variable {t : Ticket} {v : Side α} {hubs : Feed → Hub} {s : Session α}

theorem cast_hub (feed : Feed) : (s.cast t v hubs).service.hub feed = hubs feed := by
  cases feed <;> rfl

theorem cast_setHub (feed : Feed) (h₁ h₂ : Hub) : (s.cast t v hubs).setHub feed h₂ =
    (s.setHub feed h₁).cast t v (Function.update hubs feed h₂) := by
  cases feed <;> rfl

theorem cast_pending? (t' : Ticket) : (s.cast t v hubs).pending? t' =
    (s.pending? t').map fun p => (if t' = t then v.event else p.1, p.2) := by
  simp only [pending?, cast, List.getElem?_modify]
  by_cases ht : t = t'
  · subst ht
    cases s.calls[t]? <;> simp [Call.cast]
  · cases s.calls[t']? <;> simp [ht, Ne.symm ht]

theorem cast_letGo? (t' : Ticket) : (s.cast t v hubs).letGo? t' =
    (s.letGo? t').map (Telling.cast t v.event) := by
  unfold letGo?
  rw [cast_pending?]
  rcases s.pending? t' with - | ⟨e, _ | ⟨feed, feeds⟩⟩ <;> rfl

theorem cast_setPending (t' : Ticket) (x : Option (Event × List Feed)) :
    (s.cast t v hubs).setPending t' (x.map fun p => (if t' = t then v.event else p.1, p.2)) =
      (s.setPending t' x).cast t v hubs := by
  unfold setPending cast
  congr 1
  by_cases ht : t' = t
  · subst ht
    rw [List.modify_modify_eq, List.modify_modify_eq]
    simp [Function.comp_def, Call.cast]
  · simp only [ht, if_false]
    rw [List.modify_modify_ne _ _ _ (Ne.symm ht)]
    simp

theorem modify_concat {β : Type} {f : β → β} {xs : List β} {i : Nat} (hi : i < xs.length) (x : β) :
    (xs ++ [x]).modify i f = xs.modify i f ++ [x] := by
  refine List.ext_getElem? fun j => ?_
  rw [List.getElem?_modify]
  rcases Nat.lt_or_ge j xs.length with hj | hj
  · rw [List.getElem?_append_left hj, List.getElem?_append_left (by simpa using hj),
      List.getElem?_modify]
  · have hne : i ≠ j := by omega
    rw [List.getElem?_append_right hj, List.getElem?_append_right (by simpa using hj),
      List.length_modify]
    simp [hne]

/-- Nothing is decided by what the hubs or the calls hold. -/
theorem cast_consider (r : Request α) :
    (s.cast t v hubs).service.consider r = s.service.consider r := by
  cases r <;> rfl

theorem cast_enterCall (ht : t < s.calls.length) (r : Request α) :
    (s.cast t v hubs).enterCall r = (s.enterCall r).cast t v hubs := by
  unfold enterCall
  rw [cast_consider]
  simp only [cast]
  rw [modify_concat ht]

theorem cast_toTell (ht : t < s.calls.length) (r : Request α) :
    (s.cast t v hubs).toTell r = (s.toTell r).map (Telling.cast t v.event) := by
  have hlen : (s.cast t v hubs).calls.length = s.calls.length := List.length_modify ..
  unfold toTell
  rw [cast_consider, hlen]
  cases (s.service.consider r).event with
  | none => rfl
  | some e =>
    have hne : s.calls.length ≠ t := Nat.ne_of_gt ht
    simp only [List.map_cons, List.map_nil, Telling.cast, if_neg hne]
    rfl

end

/-! ## What the call has -/

namespace Has
variable {t t' : Ticket} {v : Side α} {s s' : Session α} {g g' k : List Telling}

theorem lt_length (hh : Has t v s g) : t < s.calls.length := by
  obtain ⟨c, hc, -⟩ := hh.call
  exact (List.getElem?_eq_some_iff.1 hc).1

theorem pending? (hh : Has t v s g) {p : Event × List Feed} (hp : s.pending? t = some p) :
    p.1 = v.event := by
  obtain ⟨c, hc, hcast⟩ := hh.call
  rw [Session.pending?, hc, Option.bind_some, ← hcast] at hp
  obtain ⟨q, -, rfl⟩ := Option.map_eq_some_iff.1 hp
  rfl

theorem letGo? (hh : Has t v s g) {x : Telling} (hx : s.letGo? t' = some x) :
    x.cast t v.event = x := by
  have ht := letGo?_ticket hx
  unfold Session.letGo? at hx
  split at hx
  · rename_i e feed feeds hp
    cases hx
    by_cases htt : t' = t
    · subst htt
      have he : e = v.event := hh.pending? hp
      simp [Telling.cast, he]
    · simp [Telling.cast, htt]
  · cases hx

/-- What the call goes on with is its own event. -/
theorem event {e : Event} {feeds : List Feed} (hh : Has t v s (g ++ ⟨t', e, feeds⟩ :: k)) :
    (if t' = t then v.event else e) = e := by
  have hx := hh.going ⟨t', e, feeds⟩ (by simp)
  simpa [Telling.cast] using hx

/-- What the call tells is its own event. -/
theorem own_concat {e : Event} {feed : Feed} {feeds : List Feed} {ds : List Deed}
    (hh : Has t v s (g ++ ⟨t', e, feeds⟩ :: k)) (hown : ∀ d ∈ ds, d.cast t v.event = d) :
    ∀ d ∈ ds ++ [.tells t' feed e], d.cast t v.event = d := by
  intro d hd
  rcases List.mem_append.1 hd with hd | hd
  · exact hown d hd
  · rw [List.mem_singleton.1 hd, Deed.cast, hh.event]

/-- Nothing becomes of the call, and no call goes on that did not before. -/
theorem frame (hh : Has t v s g) (hcalls : s'.calls = s.calls) (hg : ∀ x ∈ g', x ∈ g) :
    Has t v s' g' :=
  ⟨hcalls ▸ hh.call, fun x hx => hh.going x (hg x hx)⟩

theorem setPending (hh : Has t v s g) {x : Option (Event × List Feed)}
    (hx : ∀ p, x = some p → t' = t → p.1 = v.event) : Has t v (s.setPending t' x) g := by
  refine ⟨?_, hh.going⟩
  obtain ⟨c, hc, hcast⟩ := hh.call
  by_cases ht : t' = t
  · subst ht
    refine ⟨{ c with pending := x }, by simp [Session.setPending, hc], ?_⟩
    have ha : v.answer = c.answer := congrArg Call.answer hcast
    cases x with
    | none => simp [Call.cast, ha]
    | some p => simp [Call.cast, ha, ← hx p rfl rfl]
  · exact ⟨c, by rw [calls_setPending_ne ht, hc], hcast⟩

end Has

/-! ## What happens in both -/

section
variable {f : Event → Event} {t : Ticket} {v₁ v₂ : Side α} {hubs : Feed → Hub}
  {s s' : Session α} {g g' k : List Telling} {who : Option Nat}

theorem Images.update (hi : Images f s hubs) (feed : Feed) {h₁ h₂ : Hub}
    (hm : h₁.map f = h₂.map f) : Images f (s.setHub feed h₁) (Function.update hubs feed h₂) := by
  intro feed'
  by_cases hf : feed' = feed
  · subst hf
    rw [service_setHub_hub_self, Function.update_self, hm]
  · rw [service_setHub_hub_ne s hf, Function.update_of_ne hf, hi]

/-- A call tells a feed of its event in both sessions, with the same result. -/
theorem twin_emit (hv : f v₁.event = f v₂.event) {t' : Ticket} {e : Event} {feeds : List Feed}
    (hh : Has t v₁ s (g ++ ⟨t', e, feeds⟩ :: k)) (hi : Images f s hubs) {feed : Feed} {h : Hub}
    {r : EmitStart} (he : (s.service.hub feed).emit t' e = (h, r)) :
    ∃ h', (hubs feed).emit t' (if t' = t then v₂.event else e) = (h', r) ∧
      h.map f = h'.map f := by
  have hevent : f e = f (if t' = t then v₂.event else e) := by
    have hown := hh.event
    by_cases ht : t' = t
    · rw [if_pos ht] at hown ⊢
      rw [← hown, hv]
    · rw [if_neg ht]
  obtain ⟨hm, hr⟩ := Hub.emit_of_map_eq (hi feed) t' hevent
  rw [he] at hm hr
  exact ⟨_, Prod.ext rfl hr, hm⟩

/-- Requests for a subscription end the same in both. -/
theorem attachLog_of_map_eq {x y : Service} (hd : y.isShutDown = x.isShutDown)
    (hm : x.log.map f = y.log.map f) : ∃ h₁ h₂ r, x.attachLog = ({ x with log := h₁ }, r) ∧
      y.attachLog = ({ y with log := h₂ }, r) ∧ h₁.map f = h₂.map f := by
  obtain ⟨hok, herror⟩ := Hub.attach_of_map_eq hm
  unfold Service.attachLog
  by_cases hdown : x.isShutDown = true
  · rw [if_pos hdown, if_pos (hd.trans hdown)]
    exact ⟨x.log, y.log, _, rfl, rfl, hm⟩
  · rw [if_neg hdown, if_neg (hd ▸ hdown)]
    cases hat : x.log.attach with
    | ok a =>
      obtain ⟨h', hat', hm'⟩ := hok a.1 a.2 hat
      exact ⟨a.1, h', _, rfl, by rw [hat'], hm'⟩
    | error e => exact ⟨x.log, y.log, _, rfl, by rw [herror e hat], hm⟩

theorem attachStat_of_map_eq {x y : Service} (hd : y.isShutDown = x.isShutDown)
    (hm : x.stat.map f = y.stat.map f) (now seconds : Nat) :
    ∃ h₁ h₂ r, x.attachStat now seconds = ({ x with stat := h₁ }, r) ∧
      y.attachStat now seconds = ({ y with stat := h₂ }, r) ∧ h₁.map f = h₂.map f := by
  obtain ⟨hok, herror⟩ := Hub.attach_of_map_eq hm
  unfold Service.attachStat
  cases windowOf seconds with
  | error e => exact ⟨x.stat, y.stat, _, rfl, rfl, hm⟩
  | ok n =>
    simp only
    by_cases hdown : x.isShutDown = true
    · rw [if_pos hdown, if_pos (hd.trans hdown)]
      exact ⟨x.stat, y.stat, _, rfl, rfl, hm⟩
    · rw [if_neg hdown, if_neg (hd ▸ hdown)]
      cases hat : x.stat.attach with
      | ok a =>
        obtain ⟨h', hat', hm'⟩ := hok a.1 a.2 hat
        rw [hat']
        simp only
        split
        · exact ⟨_, _, _, rfl, rfl, Hub.detach_of_map_eq hm' a.2⟩
        · exact ⟨a.1, h', _, rfl, rfl, hm'⟩
      | error e => exact ⟨x.stat, y.stat, _, rfl, by rw [herror e hat], hm⟩

theorem twin_shutDown {v : Side α} (hi : Images f s hubs) : ∃ hubs', Images f s.shutDown.1 hubs' ∧
    (s.cast t v hubs).shutDown.1 = s.shutDown.1.cast t v hubs' := by
  have hsame : (s.cast t v hubs).service.isShutDown = s.service.isShutDown := rfl
  simp only [Session.shutDown, Service.shutDown, hsame]
  by_cases hdown : s.service.isShutDown = true
  · simp only [if_pos hdown]
    exact ⟨hubs, hi, rfl⟩
  · simp only [if_neg hdown]
    refine ⟨fun feed => (hubs feed).requestClose, fun feed => ?_, rfl⟩
    cases feed
    · exact congrArg Hub.requestClose (hi .log)
    · exact congrArg Hub.requestClose (hi .stat)

/-- Whatever happens in the one session happens in the other, and leaves the hubs with the same
    image. -/
theorem Stepped.twin (hf : ∀ e, (f e).consumer = e.consumer ∧ (f e).method = e.method)
    (hv : f v₁.event = f v₂.event) (hh : Has t v₁ s g) (hi : Images f s hubs)
    (hs : Stepped s g who s' g') :
    Has t v₁ s' g' ∧ ∃ hubs', Images f s' hubs' ∧
      Stepped (s.cast t v₂ hubs) (g.map (Telling.cast t v₂.event)) who (s'.cast t v₂ hubs')
        (g'.map (Telling.cast t v₂.event)) := by
  have hlt := hh.lt_length
  cases hs with
  | @dispatch _ h ts feed hstep =>
    obtain ⟨h', hstep', hm⟩ := Hub.step?_of_map_eq (hi feed) hstep
    refine ⟨⟨hh.call, fun x hx => ?_⟩, _, hi.update feed hm, ?_⟩
    · rcases List.mem_append.1 hx with hx | hx
      · exact hh.going x hx
      · obtain ⟨t', -, hgo⟩ := List.mem_filterMap.1 hx
        exact hh.letGo? hgo
    · have hgo : (ts.filterMap s.letGo?).map (Telling.cast t v₂.event) =
          ts.filterMap (s.cast t v₂ hubs).letGo? := by
        rw [List.map_filterMap]
        exact List.filterMap_congr fun t' _ => (cast_letGo? t').symm
      rw [List.map_append, hgo, ← cast_setHub]
      exact .dispatch feed (by rw [cast_hub]; exact hstep')
  | @tell g k t' e feed feeds h r hemit hr =>
    obtain ⟨h', hemit', hm⟩ := twin_emit hv hh hi hemit
    refine ⟨⟨hh.call, fun x hx => ?_⟩, _, hi.update feed hm, ?_⟩
    · rcases List.mem_append.1 hx with hx | hx
      · exact hh.going x (List.mem_append_left _ hx)
      · rcases List.mem_cons.1 hx with rfl | hx
        · simp [Telling.cast, hh.event]
        · exact hh.going x (by simp [hx])
    · rw [List.map_append, List.map_cons, List.map_append, List.map_cons, ← cast_setHub]
      exact .tell (by rw [cast_hub]; exact hemit') hr
  | @wait g k t' e feed feeds h hemit =>
    obtain ⟨h', hemit', hm⟩ := twin_emit hv hh hi hemit
    have hg : Has t v₁ (s.setHub feed h) (g ++ k) :=
      hh.frame rfl fun x hx => by
        rcases List.mem_append.1 hx with hx | hx <;> simp [hx]
    refine ⟨hg.setPending ?_, _, hi.update feed hm, ?_⟩
    · rintro p ⟨⟩ rfl
      have he := hh.event
      rw [if_pos rfl] at he
      exact he.symm
    · rw [List.map_append, List.map_cons, List.map_append, ← cast_setPending, ← cast_setHub]
      exact .wait (by rw [cast_hub]; exact hemit')
  | @finish g k t' e =>
    have hg : Has t v₁ s (g ++ k) :=
      hh.frame rfl fun x hx => by
        rcases List.mem_append.1 hx with hx | hx <;> simp [hx]
    refine ⟨hg.setPending (by simp), hubs, hi, ?_⟩
    rw [List.map_append, List.map_cons, List.map_append, ← cast_setPending]
    exact .finish
  | call r =>
    refine ⟨⟨?_, fun x hx => ?_⟩, hubs, hi, ?_⟩
    · obtain ⟨c, hc, hcast⟩ := hh.call
      exact ⟨c, (List.getElem?_append_left hlt).trans hc, hcast⟩
    · rcases List.mem_append.1 hx with hx | hx
      · exact hh.going x hx
      · unfold toTell at hx
        split at hx
        · rw [List.mem_singleton.1 hx, Telling.cast, if_neg (Nat.ne_of_gt hlt)]
        · cases hx
    · rw [List.map_append, ← cast_toTell hlt, ← cast_enterCall hlt]
      exact .call r
  | attachLog hat =>
    obtain ⟨h₁, h₂, r, hx, hy, hm⟩ := attachLog_of_map_eq (x := s.service)
      (y := (s.cast t v₂ hubs).service) rfl (hi .log)
    rw [hat] at hx
    cases hx
    exact ⟨hh.frame rfl fun _ hx => hx, _, hi.update .log hm, .attachLog hy⟩
  | @attachStat _ service seconds x hat =>
    obtain ⟨h₁, h₂, r, hx, hy, hm⟩ := attachStat_of_map_eq (x := s.service)
      (y := (s.cast t v₂ hubs).service) rfl (hi .stat) s.now seconds
    rw [hat] at hx
    cases hx
    exact ⟨hh.frame rfl fun _ hx => hx, _, hi.update .stat hm, .attachStat hy⟩
  | @refuseStat _ service seconds x hat =>
    obtain ⟨h₁, h₂, r, hx, hy, hm⟩ := attachStat_of_map_eq (x := s.service)
      (y := (s.cast t v₂ hubs).service) rfl (hi .stat) s.now seconds
    rw [hat] at hx
    cases hx
    exact ⟨hh.frame rfl fun _ hx => hx, _, hi.update .stat hm, .refuseStat hy⟩
  | @giveUp _ i x hx =>
    cases x with
    | log p =>
      exact ⟨hh.frame rfl fun _ hx => hx, _,
        hi.update .log (Hub.detach_of_map_eq (hi .log) p), .giveUp (s := s.cast t v₂ hubs) hx⟩
    | stat y =>
      exact ⟨hh.frame rfl fun _ hx => hx, _,
        hi.update .stat (Hub.detach_of_map_eq (hi .stat) y.place),
        .giveUp (s := s.cast t v₂ hubs) hx⟩
  | @receive _ i p hx =>
    exact ⟨hh.frame rfl fun _ hx => hx, _,
      hi.update .log (Hub.receive_of_map_eq (hi .log) p), .receive hx⟩
  | @poll _ i x hx =>
    obtain ⟨h1, h2, h3⟩ := poll_of_map_eq hf (hi .stat) x s.now
    refine ⟨hh.frame rfl fun _ hx => hx, _, hi.update .stat h2, ?_⟩
    have hpoll : ((s.cast t v₂ hubs).pollStat i x).1 = (s.pollStat i x).1.cast t v₂
        (Function.update hubs .stat (x.poll s.now (hubs .stat)).2.1) := by
      show ({ (s.cast t v₂ hubs).setHub .stat (x.poll s.now (hubs .stat)).2.1 with
        subscriptions := s.subscriptions.set i (some (.stat (x.poll s.now (hubs .stat)).1))
        notices := s.notices ++ pollNotices x.seconds (x.poll s.now (hubs .stat)).2.2 } :
          Session α) = _
      rw [h1, h3]
      rfl
    rw [← hpoll]
    exact .poll hx
  | shutDown =>
    obtain ⟨hubs', hi', hcast⟩ := twin_shutDown (t := t) (v := v₂) hi
    refine ⟨hh.frame rfl fun _ hx => hx, hubs', hi', ?_⟩
    rw [← hcast]
    exact .shutDown
  | release =>
    refine ⟨hh.frame rfl fun _ hx => hx, fun feed => (hubs feed).requestClose.dropSender,
      fun feed => ?_, .release⟩
    cases feed
    · exact congrArg (fun h => h.requestClose.dropSender) (hi .log)
    · exact congrArg (fun h => h.requestClose.dropSender) (hi .stat)
  | @clock _ time hle => exact ⟨hh.frame rfl fun _ hx => hx, hubs, hi, .clock hle⟩
  | note n => exact ⟨hh.frame rfl fun _ hx => hx, hubs, hi, .note n⟩
  | watch => exact ⟨hh.frame rfl fun _ hx => hx, hubs, hi, .watch⟩
  | signal => exact ⟨hh.frame rfl fun _ hx => hx, hubs, hi, .signal⟩

/-! ## Runs of both -/

/-- Runs of two sessions that have led to `s₁`, with the deeds `ds₁`, and to `s₂`, with the deeds
    `ds₂`, are the same but for the event and the answer of the call `t`. -/
structure Twins (f : Event → Event) (t : Ticket) (v₁ v₂ : Side α) (s₁ : Session α)
    (g₁ : List Telling) (ds₁ : List Deed) (s₂ : Session α) (g₂ : List Telling)
    (ds₂ : List Deed) : Prop where
  has : Has t v₁ s₁ g₁
  own : ∀ d ∈ ds₁, d.cast t v₁.event = d
  images : Images f s₁ s₂.service.hub
  session : s₂ = s₁.cast t v₂ s₂.service.hub
  going : g₂ = g₁.map (Telling.cast t v₂.event)
  deeds : ds₂ = ds₁.map (Deed.cast t v₂.event)

theorem Twins.of_cast {ds : List Deed} (hh : Has t v₁ s g) (hown : ∀ d ∈ ds, d.cast t v₁.event = d)
    (hi : Images f s hubs) : Twins f t v₁ v₂ s g ds (s.cast t v₂ hubs)
      (g.map (Telling.cast t v₂.event)) (ds.map (Deed.cast t v₂.event)) := by
  have hhub : (s.cast t v₂ hubs).service.hub = hubs := funext cast_hub
  refine ⟨hh, hown, ?_, ?_, rfl, rfl⟩
  · rw [hhub]
    exact hi
  · rw [hhub]

theorem Telling.cast_cast (t : Ticket) (e e' : Event) (x : Telling) :
    (x.cast t e).cast t e' = x.cast t e' := by
  simp only [Telling.cast]
  split <;> rfl

theorem Deed.cast_cast (t : Ticket) (e e' : Event) (d : Deed) :
    (d.cast t e).cast t e' = d.cast t e' := by
  cases d with
  | tells t' feed x =>
    simp only [Deed.cast]
    split <;> rfl
  | ends => rfl

/-- Which of the two is the first does not matter. -/
theorem Twins.symm {s₁ s₂ : Session α} {g₁ g₂ : List Telling} {ds₁ ds₂ : List Deed}
    (hw : Twins f t v₁ v₂ s₁ g₁ ds₁ s₂ g₂ ds₂) : Twins f t v₂ v₁ s₂ g₂ ds₂ s₁ g₁ ds₁ := by
  obtain ⟨⟨⟨c, hc, hcast⟩, hgoing⟩, hown, himages, hs, rfl, rfl⟩ := hw
  have hcalls : s₂.calls = s₁.calls.modify t (Call.cast v₂) := congrArg Session.calls hs
  have hback : (s₁.calls.modify t (Call.cast v₂)).modify t (Call.cast v₁) = s₁.calls := by
    rw [List.modify_modify_eq]
    refine List.ext_getElem? fun t' => ?_
    rw [List.getElem?_modify]
    by_cases ht : t = t'
    · subst ht
      rw [hc, ← hcast]
      simp [Call.cast, Function.comp_def]
    · simp [ht]
  refine ⟨⟨⟨c.cast v₂, ?_, ?_⟩, ?_⟩, ?_, fun feed => (himages feed).symm, ?_, ?_, ?_⟩
  · rw [hcalls, List.getElem?_modify_eq, hc]
    rfl
  · simp [Call.cast, Function.comp_def]
  · intro x hx
    obtain ⟨y, -, rfl⟩ := List.mem_map.1 hx
    exact Telling.cast_cast t _ _ y
  · intro d hd
    obtain ⟨d', -, rfl⟩ := List.mem_map.1 hd
    exact Deed.cast_cast t _ _ d'
  · rw [hs]
    simp only [cast, hback]
    rfl
  · rw [List.map_map]
    refine (List.map_id _).symm.trans (List.map_congr_left fun x hx => ?_)
    rw [Function.comp_apply, Telling.cast_cast, hgoing x hx, id]
  · rw [List.map_map]
    refine (List.map_id _).symm.trans (List.map_congr_left fun d hd => ?_)
    rw [Function.comp_apply, Deed.cast_cast, hown d hd, id]

/-- What happens in a run of the one session happens in a run of the other. -/
theorem Ran.twin {s₁ s₂ s₁' : Session α} {g₁ g₂ g₁' : List Telling} {ds : List Deed}
    (hf : ∀ e, (f e).consumer = e.consumer ∧ (f e).method = e.method)
    (hv : f v₁.event = f v₂.event) (hw : Twins f t v₁ v₂ s₁ g₁ [] s₂ g₂ [])
    (hrun : Ran s₁ g₁ ds s₁' g₁') :
    ∃ s₂' g₂' ds', Ran s₂ g₂ ds' s₂' g₂' ∧ Twins f t v₁ v₂ s₁' g₁' ds s₂' g₂' ds' := by
  have hgoing := hw.going
  have hsession := hw.session
  -- the other run is that of the cast session
  suffices h : Has t v₁ s₁' g₁' ∧ (∀ d ∈ ds, d.cast t v₁.event = d) ∧ ∃ hubs,
      Images f s₁' hubs ∧ Ran s₂ g₂ (ds.map (Deed.cast t v₂.event)) (s₁'.cast t v₂ hubs)
        (g₁'.map (Telling.cast t v₂.event)) by
    obtain ⟨hh, hown, hubs, hi, hrun'⟩ := h
    exact ⟨_, _, _, hrun', .of_cast hh hown hi⟩
  induction hrun with
  | start =>
    refine ⟨hw.has, by simp, s₂.service.hub, hw.images, ?_⟩
    rw [← hsession, ← hgoing]
    exact .start
  | aside _ hs hp ih =>
    obtain ⟨hh, hown, hubs, hi, hrun'⟩ := ih
    obtain ⟨hh', hubs', hi', hs'⟩ := hs.twin hf hv hh hi
    exact ⟨hh', hown, hubs', hi', hrun'.aside hs' (hp.map _)⟩
  | @tell ds s g k t' e feed feeds h r _ hemit hr ih =>
    obtain ⟨hh, hown, hubs, hi, hrun'⟩ := ih
    obtain ⟨h', hemit', hm⟩ := twin_emit hv hh hi hemit
    refine ⟨(Stepped.twin hf hv hh hi (.tell hemit hr)).1, hh.own_concat hown, _,
      hi.update feed hm, ?_⟩
    rw [List.map_append, List.map_cons] at hrun' ⊢
    rw [List.map_append, ← cast_setHub]
    exact hrun'.tell (by rw [cast_hub]; exact hemit') hr
  | @wait ds s g k t' e feed feeds h _ hemit ih =>
    obtain ⟨hh, hown, hubs, hi, hrun'⟩ := ih
    obtain ⟨h', hemit', hm⟩ := twin_emit hv hh hi hemit
    refine ⟨(Stepped.twin hf hv hh hi (.wait hemit)).1, hh.own_concat hown, _,
      hi.update feed hm, ?_⟩
    rw [List.map_append, List.map_cons] at hrun'
    rw [List.map_append, List.map_append, ← cast_setPending, ← cast_setHub]
    exact hrun'.wait (by rw [cast_hub]; exact hemit')
  | @finish ds s g k t' e _ ih =>
    obtain ⟨hh, hown, hubs, hi, hrun'⟩ := ih
    refine ⟨(Stepped.twin hf hv hh hi .finish).1, ?_, hubs, hi, ?_⟩
    · intro d hd
      rcases List.mem_append.1 hd with hd | hd
      · exact hown d hd
      · rw [List.mem_singleton.1 hd]
        rfl
    · rw [List.map_append, List.map_cons] at hrun'
      rw [List.map_append, List.map_append, ← cast_setPending]
      exact hrun'.finish

end

end Session

end CallFeed

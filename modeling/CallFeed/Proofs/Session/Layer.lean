/-
  CallFeed — a layer in front of an HTTP service does what a call with a handler does.

  * `InStep`: two runs are the same, but that one call tells of its event with the address of the
    caller;
  * `LetIn` is what becomes of a call that is let through, and `TurnedAway` of one that is
    refused, on either way; `PassesOn` says that an answer is that of the inner service, and
    `HttpForm` is the form of a status as a response;
  * `http_like_intercept`: every run of the one has a run of the other beside it.
-/
import CallFeed.Proofs.Session.Twin

namespace CallFeed

/-! ## What the address changes -/

/-- What the call `t` does, with the address of the caller in its event. -/
def Deed.readdress (t : Ticket) (peer : Option Address) : Deed → Deed
  | .tells t' feed x => .tells t' feed (if t' = t then x.withPeer peer else x)
  | .ends t' => .ends t'

/-- The same for the call when it goes on. -/
def Telling.readdress (t : Ticket) (peer : Option Address) (x : Telling) : Telling :=
  { x with event := if x.ticket = t then x.event.withPeer peer else x.event }

/-- The event with the address of the caller counts as the event. -/
def Event.merge (e : Event) (peer : Option Address) (x : Event) : Event :=
  if x = e.withPeer peer then e else x

/-- The hubs are the same, but that the one may have the event with the address of the caller
    where the other has the event. -/
def Hub.SameUpTo (e : Event) (peer : Option Address) (h₁ h₂ : Hub) : Prop :=
  h₁.map (e.merge peer) = h₂.map (e.merge peer)

theorem Event.merge_names {e : Event} {peer : Option Address} (x : Event) :
    (e.merge peer x).consumer = x.consumer ∧ (e.merge peer x).method = x.method := by
  unfold merge
  split
  · rename_i hx
    rw [hx]
    exact ⟨rfl, rfl⟩
  · exact ⟨rfl, rfl⟩

theorem Event.merge_withPeer (e : Event) (peer : Option Address) :
    e.merge peer e = e.merge peer (e.withPeer peer) := by
  simp [merge]

theorem Hub.map_id (h : Hub) : h.map id = h := by
  have hq : Queue.map id = id := by
    funext q
    simp [Queue.map]
  have hb : Broadcast.map id = id := by
    funext b
    rfl
  have ho : Occurrence.map id = id := by
    funext o
    cases o <;> rfl
  simp [map, hq, hb, ho]

/-! ## Metrics -/

theorem metricsOf_map (f : Event → Event) (feed : Feed) (journal : List Occurrence) :
    metricsOf feed (journal.map (Occurrence.map f)) = metricsOf feed journal := by
  have hdelivery : ∀ o, (Occurrence.map f o).isDelivery = o.isDelivery := fun o => by
    cases o <;> rfl
  have hevict : ∀ o, (Occurrence.map f o).evictions = o.evictions := fun o => by cases o <;> rfl
  have hsize : ∀ o, (Occurrence.map f o).size? = o.size? := fun o => by cases o <;> rfl
  simp only [metricsOf, deliveredCount, evictedCount, reportedSize?, List.countP_map,
    List.flatMap_map, List.filterMap_map, Function.comp_def, hdelivery, hevict, hsize]

theorem metricsOf_of_map_eq {f : Event → Event} {h₁ h₂ : Hub} (hm : h₁.map f = h₂.map f)
    (feed : Feed) : metricsOf feed h₁.journal = metricsOf feed h₂.journal := by
  have hj : h₁.journal.map (Occurrence.map f) = h₂.journal.map (Occurrence.map f) :=
    congrArg Hub.journal hm
  rw [← metricsOf_map f, hj, metricsOf_map]

namespace Session

variable {α : Type}

/-! ## Runs in step -/

/-- The run to `s₂` with the deeds `ds₂` is that to `s₁` with the deeds `ds₁`, but for what the
    call `t` tells and is answered with. -/
structure InStep (t : Ticket) (peer : Option Address) (s₁ : Session α) (g₁ : List Telling)
    (ds₁ : List Deed) (s₂ : Session α) (g₂ : List Telling) (ds₂ : List Deed) : Prop where
  /-- All calls do the same, in the same order, but that the call tells of the address. -/
  deeds : ds₂ = ds₁.map (Deed.readdress t peer)
  going : g₂ = g₁.map (Telling.readdress t peer)
  pending : s₂.pending? t = (s₁.pending? t).map fun p => (p.1.withPeer peer, p.2)
  /-- All calls that wait do so at the same hubs. -/
  waiters : ∀ feed, (s₂.service.hub feed).waiters = (s₁.service.hub feed).waiters
  others : ∀ t' ≠ t, s₂.calls[t']? = s₁.calls[t']?
  /-- All but the hubs and the calls is the same. -/
  rest : s₂ =
    { s₁ with
      service := { s₁.service with log := s₂.service.log, stat := s₂.service.stat }
      calls := s₂.calls }
  metrics : s₂.metrics = s₁.metrics

theorem Twins.inStep {f : Event → Event} {t : Ticket} {v₁ v₂ : Side α} {peer : Option Address}
    {s₁ s₂ : Session α} {g₁ g₂ : List Telling} {ds₁ ds₂ : List Deed}
    (hpeer : v₂.event = v₁.event.withPeer peer) (hw : Twins f t v₁ v₂ s₁ g₁ ds₁ s₂ g₂ ds₂) :
    InStep t peer s₁ g₁ ds₁ s₂ g₂ ds₂ := by
  have hpending : s₂.pending? t = (s₁.pending? t).map fun p => (p.1.withPeer peer, p.2) := by
    rw [hw.session, cast_pending?]
    cases hp : s₁.pending? t with
    | none => rfl
    | some p => simp [hpeer, hw.has.pending? hp]
  have hcalls : s₂.calls = s₁.calls.modify t (Call.cast v₂) := congrArg calls hw.session
  refine ⟨?_, ?_, hpending, fun feed => ?_, fun t' ht => ?_, ?_, ?_⟩
  · rw [hw.deeds]
    refine List.map_congr_left fun d hd => ?_
    have hown := hw.own d hd
    cases d with
    | ends => rfl
    | tells t' feed x =>
      simp only [Deed.cast, Deed.readdress, Deed.tells.injEq, true_and] at hown ⊢
      split at hown
      · rename_i ht
        rw [if_pos ht, if_pos ht, hpeer, hown]
      · rename_i ht
        rw [if_neg ht, if_neg ht]
  · rw [hw.going]
    refine List.map_congr_left fun x hx => ?_
    have hown := congrArg Telling.event (hw.has.going x hx)
    simp only [Telling.cast, Telling.readdress] at hown ⊢
    split at hown
    · rename_i ht
      rw [if_pos ht, if_pos ht, hpeer, hown]
    · rename_i ht
      rw [if_neg ht, if_neg ht]
  · exact (Hub.waiters_of_map_eq (hw.images feed)).symm
  · rw [hcalls, List.getElem?_modify]
    simp [Ne.symm ht]
  · have hs := hw.session
    rw [hcalls]
    exact hs
  · have hs := congrArg Session.notices hw.session
    have hnotices : s₂.notices = s₁.notices := hs
    have hlog := metricsOf_of_map_eq (hw.images .log) .log
    have hstat := metricsOf_of_map_eq (hw.images .stat) .stat
    simp only [Session.metrics, hnotices]
    rw [show s₁.service.log = s₁.service.hub .log from rfl, hlog,
      show s₁.service.stat = s₁.service.hub .stat from rfl, hstat]
    rfl

/-! ## The two ways of a call -/

/-- The requests are decided on in the same way, but for the event and for the answer. -/
structure Akin (service : Service) (v₁ v₂ : Side α) (r₁ r₂ : Request α) : Prop where
  notices : (service.consider r₂).notices = (service.consider r₁).notices
  event : (service.consider r₁).event = none ∧ (service.consider r₂).event = none ∨
    (service.consider r₁).event = some v₁.event ∧ (service.consider r₂).event = some v₂.event ∧
      v₂.event.method = v₁.event.method
  answer₁ : (service.consider r₁).answer = v₁.answer
  answer₂ : (service.consider r₂).answer = v₂.answer

/-- Where they are decided on, the two are twins. -/
theorem twins_enterCall {f : Event → Event} {v₁ v₂ : Side α} {r₁ r₂ : Request α} {s : Session α}
    {g : List Telling} (hr : Reached s g) (ha : Akin s.service v₁ v₂ r₁ r₂) :
    Twins f s.calls.length v₁ v₂ (s.enterCall r₁) (g ++ s.toTell r₁) []
      (s.enterCall r₂) (g ++ s.toTell r₂) [] := by
  obtain ⟨hnotices, hevent, hanswer₁, hanswer₂⟩ := ha
  -- the calls that go on already are others
  have hne : ∀ x ∈ g, ∀ e, x.cast s.calls.length e = x := fun x hx e => by
    rw [Telling.cast, if_neg (Nat.ne_of_lt (hr.waits.going x hx).1)]
  have hcalls : (s.calls ++ [Call.mk none v₁.answer]).modify s.calls.length (Call.cast v₂) =
      s.calls ++ [Call.mk none v₂.answer] := by
    refine List.ext_getElem? fun t' => ?_
    rw [List.getElem?_modify]
    rcases Nat.lt_trichotomy t' s.calls.length with hlt | rfl | hgt
    · rw [List.getElem?_append_left hlt, List.getElem?_append_left hlt]
      simp [Nat.ne_of_gt hlt]
    · simp [Call.cast]
    · have hge : ∀ c : Call α, (s.calls ++ [c]).length ≤ t' := fun c => by
        rw [List.length_append]
        exact hgt
      rw [List.getElem?_eq_none (hge _), List.getElem?_eq_none (hge _)]
      rfl
  refine ⟨⟨⟨_, calls_enterCall_self s r₁, ?_⟩, fun x hx => ?_⟩, by simp, fun feed => rfl, ?_, ?_,
    rfl⟩
  · rw [hanswer₁]
    rfl
  · rcases List.mem_append.1 hx with hx | hx
    · exact hne x hx _
    · unfold toTell at hx
      rcases hevent with ⟨h₁, -⟩ | ⟨h₁, -, -⟩
      · rw [h₁] at hx
        cases hx
      · rw [h₁] at hx
        rw [List.mem_singleton.1 hx]
        simp [Telling.cast]
  · simp only [enterCall, cast, hanswer₁, hanswer₂, hcalls, hnotices]
    rfl
  · rw [List.map_append, List.map_congr_left fun x hx => hne x hx _, List.map_id']
    congr 1
    unfold toTell
    rcases hevent with ⟨h₁, h₂⟩ | ⟨h₁, h₂, hmethod⟩
    · rw [h₁, h₂]
      rfl
    · rw [h₁, h₂]
      simp [Telling.cast, hmethod]

theorem cast_answer? (t : Ticket) (v : Side α) (hubs : Feed → Hub) (s : Session α) :
    (s.cast t v hubs).answer? t = (s.answer? t).map fun _ => v.answer := by
  have hpending : (s.cast t v hubs).isPending t = s.isPending t := by
    show ((s.cast t v hubs).pending? t).isSome = (s.pending? t).isSome
    rw [cast_pending?, Option.isSome_map]
  unfold answer?
  rw [hpending]
  split
  · rfl
  · simp only [cast, List.getElem?_modify_eq]
    cases s.calls[t]? <;> rfl

theorem peer_of_authorize {service : Service} {headers : List Header} {method : String} {e : Event}
    (ha : service.authorize headers method = .ok e) : e.peer = none := by
  unfold Service.authorize at ha
  split at ha
  · cases ha
  · split at ha
    · cases ha
      rfl
    · cases ha

section
variable {service : Service} {r : HttpRequest} {inner : Inner} {handler : Except Status α}

/-- The two ways of a call that is let through differ in the address, and in the answer. -/
theorem akin_of_ok {e : Event} (ha : service.authorize r.headers r.target.method = .ok e) :
    Akin service ⟨e, .handled handler⟩ ⟨e.withPeer r.peer, inner.answer r.seen⟩
      (.intercept r.headers r.target.method handler) (.http r inner) := by
  have he : e.withPeer none = e := by
    rw [Event.withPeer, ← peer_of_authorize ha]
  have h₁ : service.consider (.intercept r.headers r.target.method handler) =
      ⟨.authorized e.consumer :: service.exemptNotices e, some e, .handled handler⟩ := by
    simp only [Service.consider, Service.letIn, ha, he]
  have h₂ : service.consider (.http r inner) =
      ⟨.authorized e.consumer :: service.exemptNotices e, some (e.withPeer r.peer),
        (inner.answer r.seen : Answer α)⟩ := by
    simp only [Service.consider, Service.letIn, ha]
    rfl
  exact ⟨by rw [h₁, h₂], Or.inr ⟨by rw [h₁], by rw [h₂], rfl⟩, by rw [h₁], by rw [h₂]⟩

/-- Those of a call that is refused differ in the answer alone. -/
theorem akin_of_error {f : Fault} (e : Event)
    (ha : service.authorize r.headers r.target.method = .error f) :
    Akin service ⟨e, .unhandled f.status⟩ ⟨e, .response f.status.headers none⟩
      (.intercept r.headers r.target.method handler) (.http r inner) := by
  have h₁ : service.consider (.intercept r.headers r.target.method handler) =
      ⟨[.rejected f], none, .unhandled f.status⟩ := by
    simp only [Service.consider, Service.letIn, ha]
  have h₂ : service.consider (.http r inner) =
      ⟨[.rejected f], none, (.response f.status.headers none : Answer α)⟩ := by
    simp only [Service.consider, Service.letIn, ha]
  exact ⟨by rw [h₁, h₂], Or.inl ⟨by rw [h₁], by rw [h₂]⟩, by rw [h₁], by rw [h₂]⟩

end

/-! ## What becomes of a call -/

/-- What becomes of the call `t` that is let through with the event `e`, on either way. -/
structure LetIn (t : Ticket) (e : Event) (feeds : List Feed) (peer : Option Address)
    (handled answer : Answer α) (s₁ : Session α) (g₁ : List Telling) (ds₁ : List Deed)
    (s₂ : Session α) (ds₂ : List Deed) : Prop where
  hub : ∀ feed, Hub.SameUpTo e peer (s₁.service.hub feed) (s₂.service.hub feed)
  /-- The inner service is called where the handler is run, when all feeds have been told. -/
  ends : .ends t ∈ ds₂ ↔ .ends t ∈ ds₁
  told : .ends t ∈ ds₂ → deedsOf t ds₂ = tellsOf t (e.withPeer peer) feeds ++ [.ends t]
  /-- What they answer is passed on. -/
  answered : .ends t ∈ ds₁ → s₁.answer? t = some handled ∧ s₂.answer? t = some answer
  unanswered : g₁ = [] → .ends t ∉ ds₁ → s₁.answer? t = none ∧ s₂.answer? t = none

/-- The answer is what the inner service makes of the request as it was sent. -/
inductive PassesOn (r : HttpRequest) (inner : Inner) : Answer α → Prop
  | response {headers} :
      inner.respond ⟨r.target.method, r.headers.length, r.body⟩ = .ok headers →
      PassesOn r inner (.response headers (some ⟨r.target.method, r.headers.length, r.body⟩))
  | failure {text} :
      inner.respond ⟨r.target.method, r.headers.length, r.body⟩ = .error text →
      PassesOn r inner (.broken text ⟨r.target.method, r.headers.length, r.body⟩)

/-- The headers of a response that carries a status. -/
structure HttpForm (st : Status) (headers : List (String × String)) : Prop where
  names : (headers.map Prod.fst).Nodup
  contentType : ("content-type", "application/grpc") ∈ headers
  code : ("grpc-status", toString st.code.val) ∈ headers
  /-- An empty message is left out. -/
  message : ∀ text, ("grpc-message", text) ∈ headers ↔
    st.message ≠ "" ∧ text = Text.percentEncode st.message
  others : ∀ x ∈ headers, x.1 ∈ ["content-type", "grpc-status", "grpc-message"]

/-- What becomes of the call `t` that is refused for `f`, on either way: nothing is told of it,
    nothing is behind it, and the response carries the status. -/
structure TurnedAway (t : Ticket) (f : Fault) (s₁ : Session α) (ds₁ : List Deed) (s₂ : Session α)
    (ds₂ : List Deed) : Prop where
  hub : ∀ feed, s₂.service.hub feed = s₁.service.hub feed
  silent : deedsOf t ds₁ = [] ∧ deedsOf t ds₂ = []
  refused : s₁.answer? t = some (.unhandled f.status)
  response : ∃ headers, s₂.answer? t = some (.response headers none) ∧ HttpForm f.status headers

theorem passesOn_answer (r : HttpRequest) (inner : Inner) :
    PassesOn r inner (inner.answer r.seen : Answer α) := by
  cases hr : inner.respond r.seen with
  | ok headers =>
    rw [Inner.answer, hr]
    exact .response hr
  | error text =>
    rw [Inner.answer, hr]
    exact .failure hr

theorem httpForm_headers (st : Status) : HttpForm st st.headers := by
  have hempty : st.message = "" ∨ st.message ≠ "" := Decidable.em _
  refine ⟨?_, ?_, ?_, fun text => ?_, ?_⟩ <;> unfold Status.headers <;>
    rcases hempty with hm | hm <;> simp [hm]

theorem deedsOf_readdress (t : Ticket) (peer : Option Address) (ds : List Deed) :
    deedsOf t (ds.map (Deed.readdress t peer)) = (deedsOf t ds).map (Deed.readdress t peer) := by
  have hticket : ∀ d, (Deed.readdress t peer d).ticket = d.ticket := fun d => by cases d <;> rfl
  simp only [deedsOf, List.filter_map, Function.comp_def, hticket]

theorem tellsOf_readdress (t : Ticket) (e : Event) (peer : Option Address) (feeds : List Feed) :
    (tellsOf t e feeds).map (Deed.readdress t peer) = tellsOf t (e.withPeer peer) feeds := by
  simp [tellsOf, Deed.readdress, Function.comp_def]

section
variable {s s₁ s₂ : Session α} {g g₁ g₂ : List Telling} {ds₁ ds₂ : List Deed} {r : HttpRequest}
  {inner : Inner} {handler : Except Status α}

theorem letIn_of_twins {e : Event} {t : Ticket} {feeds : List Feed}
    (hw : Twins (e.merge r.peer) t ⟨e, .handled handler⟩ ⟨e.withPeer r.peer, inner.answer r.seen⟩
      s₁ g₁ ds₁ s₂ g₂ ds₂)
    (hu : Underway s₁ g₁ t e feeds handler ds₁) :
    LetIn t e feeds r.peer (.handled handler) (inner.answer r.seen) s₁ g₁ ds₁ s₂ ds₂ := by
  have hin : InStep t r.peer s₁ g₁ ds₁ s₂ g₂ ds₂ := hw.inStep rfl
  have hdeeds := hin.deeds
  have hanswer : s₂.answer? t = (s₁.answer? t).map fun _ => (inner.answer r.seen : Answer α) := by
    rw [hw.session]
    exact cast_answer? t _ _ s₁
  have hends : .ends t ∈ ds₂ ↔ .ends t ∈ ds₁ := by
    rw [hdeeds, List.mem_map]
    constructor
    · rintro ⟨d, hd, he⟩
      cases d with
      | tells => cases he
      | ends => exact (Deed.ends.inj he) ▸ hd
    · exact fun hd => ⟨_, hd, rfl⟩
  refine ⟨hw.images, hends, fun hd => ?_, fun hd => ?_, fun hg hd => ?_⟩
  · rw [hdeeds, deedsOf_readdress, (hu.once (hends.1 hd)).1, List.map_append, tellsOf_readdress]
    rfl
  · have h₁ := (hu.once hd).2
    exact ⟨h₁, by rw [hanswer, h₁]; rfl⟩
  · have h₁ := hu.unanswered hg hd
    exact ⟨h₁, by rw [hanswer, h₁]; rfl⟩

theorem turnedAway_of_twins {e : Event} {t : Ticket} {f : Fault}
    (hw : Twins id t ⟨e, .unhandled f.status⟩ ⟨e, .response f.status.headers none⟩
      s₁ g₁ ds₁ s₂ g₂ ds₂)
    (hsilent : deedsOf t ds₁ = []) (hanswer : s₁.answer? t = some (.unhandled f.status)) :
    TurnedAway t f s₁ ds₁ s₂ ds₂ := by
  refine ⟨fun feed => ?_, ⟨hsilent, ?_⟩, hanswer, _, ?_, httpForm_headers _⟩
  · have hi := hw.images feed
    rw [Hub.map_id, Hub.map_id] at hi
    exact hi.symm
  · -- nothing of the call is in either list
    have hticket : ∀ d, (Deed.cast t e d).ticket = d.ticket := fun d => by cases d <;> rfl
    rw [hw.deeds]
    simp only [deedsOf, List.filter_map, Function.comp_def, hticket] at hsilent ⊢
    rw [hsilent]
    rfl
  · rw [hw.session, cast_answer?, hanswer]
    rfl

/-- What two runs have in common that begin with the same call, in the one with a handler and in
    the other over HTTP. -/
structure Alongside (s : Session α) (r : HttpRequest) (inner : Inner) (handler : Except Status α)
    (s₁ : Session α) (g₁ : List Telling) (ds₁ : List Deed) (s₂ : Session α) (g₂ : List Telling)
    (ds₂ : List Deed) : Prop where
  inStep : InStep s.calls.length r.peer s₁ g₁ ds₁ s₂ g₂ ds₂
  letIn : ∀ e, s.service.authorize r.headers r.target.method = .ok e →
    LetIn s.calls.length e (s.service.rules.feedsOf e.method) r.peer (.handled handler)
      (inner.answer r.seen) s₁ g₁ ds₁ s₂ ds₂
  passedOn : PassesOn r inner (inner.answer r.seen : Answer α)
  turnedAway : ∀ f, s.service.authorize r.headers r.target.method = .error f →
    TurnedAway s.calls.length f s₁ ds₁ s₂ ds₂

theorem alongside_of_ok (hr : Reached s g) {e : Event}
    (ha : s.service.authorize r.headers r.target.method = .ok e)
    (hrun : Ran (s.enterCall (.intercept r.headers r.target.method handler))
      (g ++ s.toTell (.intercept r.headers r.target.method handler)) ds₁ s₁ g₁)
    (hw : Twins (e.merge r.peer) s.calls.length ⟨e, .handled handler⟩
      ⟨e.withPeer r.peer, inner.answer r.seen⟩ s₁ g₁ ds₁ s₂ g₂ ds₂) :
    Alongside s r inner handler s₁ g₁ ds₁ s₂ g₂ ds₂ := by
  have hadmitted : Admission s g (.intercept r.headers r.target.method handler) e handler :=
    admission_of_authorize hr (peer_of_authorize ha) ha
  refine ⟨hw.inStep rfl, fun e' ha' => ?_, passesOn_answer r inner,
    fun f ha' => nomatch ha.symm.trans ha'⟩
  cases ha.symm.trans ha'
  exact letIn_of_twins hw (hadmitted.later _ _ _ hrun)

theorem alongside_of_error (hr : Reached s g) {f : Fault}
    (ha : s.service.authorize r.headers r.target.method = .error f)
    (hrun : Ran (s.enterCall (.intercept r.headers r.target.method handler))
      (g ++ s.toTell (.intercept r.headers r.target.method handler)) ds₁ s₁ g₁)
    (hw : Twins id s.calls.length ⟨⟨"", "", r.peer⟩, .unhandled f.status⟩
      ⟨⟨"", "", r.peer⟩, .response f.status.headers none⟩ s₁ g₁ ds₁ s₂ g₂ ds₂) :
    Alongside s r inner handler s₁ g₁ ds₁ s₂ g₂ ds₂ := by
  have hrejected : Rejection s g (.intercept r.headers r.target.method handler) f :=
    rejection_of_authorize hr ha
  obtain ⟨hsilent, -, hanswer⟩ := hrejected.later _ _ _ hrun
  refine ⟨hw.inStep rfl, fun e ha' => (nomatch ha.symm.trans ha'), passesOn_answer r inner,
    fun f' ha' => ?_⟩
  cases ha.symm.trans ha'
  exact turnedAway_of_twins hw hsilent hanswer

/-- **The layer in front of a service admits calls as the wrapper of a handler does.** Whatever has
    happened to a service and its hubs before, and whatever happens afterwards: to every run
    in which a call with a handler is made there is one in which the same call comes over
    HTTP, and the other way round, in which all calls tell the feeds and end in the same order,
    wait at the same hubs, and count the same. The hubs are the same but for the address of
    the caller in the event of the call. If the call is let through, the inner service is
    called where the handler is run, and what it answers is passed on; if it is refused,
    neither happens, and the response carries the status that the other call ends with. -/
theorem http_like_intercept (hr : Reached s g) (r : HttpRequest) (inner : Inner)
    (handler : Except Status α) :
    (∀ ds₁ s₁ g₁, Ran (s.enterCall (.intercept r.headers r.target.method handler))
        (g ++ s.toTell (.intercept r.headers r.target.method handler)) ds₁ s₁ g₁ →
      ∃ ds₂ s₂ g₂, Ran (s.enterCall (.http r inner)) (g ++ s.toTell (.http r inner)) ds₂ s₂ g₂ ∧
        Alongside s r inner handler s₁ g₁ ds₁ s₂ g₂ ds₂) ∧
    (∀ ds₂ s₂ g₂, Ran (s.enterCall (.http r inner)) (g ++ s.toTell (.http r inner)) ds₂ s₂ g₂ →
      ∃ ds₁ s₁ g₁, Ran (s.enterCall (.intercept r.headers r.target.method handler))
        (g ++ s.toTell (.intercept r.headers r.target.method handler)) ds₁ s₁ g₁ ∧
        Alongside s r inner handler s₁ g₁ ds₁ s₂ g₂ ds₂) := by
  cases ha : s.service.authorize r.headers r.target.method with
  | ok e =>
    have hakin : Akin s.service ⟨e, .handled handler⟩ ⟨e.withPeer r.peer, inner.answer r.seen⟩
        (.intercept r.headers r.target.method handler) (.http r inner) := akin_of_ok ha
    have hstart := twins_enterCall (f := e.merge r.peer) hr hakin
    have hmerge := e.merge_withPeer r.peer
    constructor
    · intro ds₁ s₁ g₁ hrun
      obtain ⟨s₂, g₂, ds₂, hrun', hw⟩ := hrun.twin Event.merge_names hmerge hstart
      exact ⟨ds₂, s₂, g₂, hrun', alongside_of_ok hr ha hrun hw⟩
    · intro ds₂ s₂ g₂ hrun
      obtain ⟨s₁, g₁, ds₁, hrun', hw⟩ := hrun.twin Event.merge_names hmerge.symm hstart.symm
      exact ⟨ds₁, s₁, g₁, hrun', alongside_of_ok hr ha hrun' hw.symm⟩
  | error f =>
    let e : Event := ⟨"", "", r.peer⟩
    have hakin : Akin s.service ⟨e, .unhandled f.status⟩ ⟨e, .response f.status.headers none⟩
        (.intercept r.headers r.target.method handler) (.http r inner) := akin_of_error e ha
    have hstart := twins_enterCall (f := id) hr hakin
    have hid : ∀ x : Event, (id x).consumer = x.consumer ∧ (id x).method = x.method :=
      fun _ => ⟨rfl, rfl⟩
    have hsame : id e = id e := rfl
    constructor
    · intro ds₁ s₁ g₁ hrun
      obtain ⟨s₂, g₂, ds₂, hrun', hw⟩ := hrun.twin hid hsame hstart
      exact ⟨ds₂, s₂, g₂, hrun', alongside_of_error hr ha hrun hw⟩
    · intro ds₂ s₂ g₂ hrun
      obtain ⟨s₁, g₁, ds₁, hrun', hw⟩ := hrun.twin hid hsame hstart.symm
      exact ⟨ds₁, s₁, g₁, hrun', alongside_of_error hr ha hrun' hw.symm⟩

/-- With an inbound queue for one event and a subscriber that takes none, three calls fill
    everything: the fourth waits at the log hub, on either way, and tells it in the one of an
    event with an address. Its method is the path of its target. -/
theorem http_like_intercept_waits :
    ∃ (s s₁ s₂ : Session Unit) (r : HttpRequest) (g₂ : List Telling) (ds₁ ds₂ : List Deed)
        (e : Event),
      Reached s [] ∧
      s₁ = (s.perform (.call none (.intercept r.headers r.target.method (.ok ())))).1 ∧
      s₁.pending? 3 = some (e, [.log, .stat]) ∧
      Target.read "/m?q" = some r.target ∧ e.consumer = "x" ∧ e.method = "/m" ∧
      Ran (s.enterCall (.http r .accepts)) (s.toTell (.http r .accepts)) ds₂ s₂ g₂ ∧
      Alongside s r .accepts (.ok ()) s₁ [] ds₁ s₂ g₂ ds₂ ∧
      s₂.pending? 3 = some (e.withPeer r.peer, [.log, .stat]) ∧ e.withPeer r.peer ≠ e := by
  have ho : (open? (AccessList.ofRows [("x", ["/m"])]) ⟨1, 1, none⟩ {} : Option (Session Unit)) =
      some _ := rfl
  obtain ⟨hopen, -⟩ := reached_open? ho
  have hfull := reached_perform (.call (some 3) (.report "a" "/m"))
    (reached_perform .attachLog hopen)
  let r : HttpRequest :=
    ⟨.path "/m", [⟨consumerHeader, [0x78]⟩], some ⟨.octets ⟨127, 0, 0, 1⟩, 80⟩, ""⟩
  obtain ⟨ds₁, hrun⟩ := Ran.of_call hfull (.intercept r.headers r.target.method (.ok ()))
  generalize hs₁ : (Session.perform _ (.call none (.intercept r.headers r.target.method _))).1 = s₁
    at hrun
  have hwaits : s₁.pending? 3 = some (⟨"x", "/m", none⟩, [.log, .stat]) := by
    rw [← hs₁]
    decide +kernel
  obtain ⟨hforth, -⟩ := http_like_intercept hfull r .accepts (.ok ())
  obtain ⟨ds₂, s₂, g₂, hrun', halong⟩ := hforth _ _ _ hrun
  have hpending := halong.inStep.pending.trans (congrArg _ hwaits)
  have hread : Target.read "/m?q" = some r.target := by decide +kernel
  exact ⟨_, s₁, s₂, r, g₂, ds₁, ds₂, ⟨"x", "/m", none⟩, hfull, hs₁.symm, hwaits, hread, rfl, rfl,
    hrun', halong, hpending, by decide⟩

end

end Session

end CallFeed

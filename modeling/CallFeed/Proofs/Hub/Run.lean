/-
  CallFeed — runs of a hub.

  Whoever has to do with a hub moves it: its senders, its subscribers, its owner, and
  its dispatcher, which has the clock with it. A run is a list of moves in whatever
  order.

  * `Move`, `move?`, `follow?`: a move, what it makes of a hub, and what a list of moves
    does, with the tickets of the emits that return. A subscriber can take from its
    queue or give it up only while it holds it;
  * `Dispatched` is the dispatcher's step as a judgment, one rule for each thing that it
    does (`step?_eq_some_iff`), and `Moved` the same for all moves (`moved_of_move?`);
  * `follow_induction`: what the first hub has and what every move keeps holds along a run;
    `Arises` is what a run leads to, and `Leads` relates two hubs by a run of moves of some
    kind.
-/
import CallFeed.Hub.Clients
import CallFeed.Hub.Dispatch
import Mathlib.Tactic.Common

namespace CallFeed

namespace Hub

/-! ## The dispatcher -/

/-- The dispatcher of `h` makes it `h'` at the time `now`, and the emits with these
    tickets end. -/
inductive Dispatched (now : Nat) (h : Hub) : Hub → List Ticket → Prop
  | finish {b} : h.sending = some b → b.ahead = [] → b.failed = [] →
      Dispatched now h { h with sending := none } []
  | evict {b members} : h.sending = some b → b.ahead = [] → b.failed ≠ [] →
      members = (h.members.filter fun p => !(b.failed.map Prod.fst).contains p) →
      Dispatched now h
        ({ h with sending := none, members }.note (.evicted b.failed members.length)) []
  | gone {b p rest} : h.sending = some b → b.ahead = p :: rest → (h.queue p).held = false →
      Dispatched now h (h.fail now b p rest .closed) []
  | deliver {b p rest} : h.sending = some b → b.ahead = p :: rest → (h.queue p).held = true →
      (h.queue p).events.length < h.settings.subscriber →
      Dispatched now h (h.deliver b p rest) []
  | await {b p rest} : h.sending = some b → b.ahead = p :: rest → (h.queue p).held = true →
      h.settings.subscriber ≤ (h.queue p).events.length → b.since = none →
      Dispatched now h (h.await now b p) []
  | overdue {b p rest since} : h.sending = some b → b.ahead = p :: rest →
      (h.queue p).held = true → h.settings.subscriber ≤ (h.queue p).events.length →
      b.since = some since → h.isOverdue now since = true →
      Dispatched now h (h.fail now b p rest .timeout) []
  | close : h.sending = none → h.stage = .running →
      (h.closing = true ∨ h.inbound = [] ∧ h.senders = 0 ∧ h.waiting = []) →
      Dispatched now h h.closeInbound.1 h.closeInbound.2
  | take {e rest} : h.sending = none → h.stage = .running → h.closing = false →
      h.inbound = e :: rest → h.waiting = [] →
      Dispatched now h ({ h with inbound := rest }.broadcast e) []
  | refill {e rest t e' more} : h.sending = none → h.stage = .running → h.closing = false →
      h.inbound = e :: rest → h.waiting = (t, e') :: more →
      Dispatched now h ({ h with inbound := rest ++ [e'], waiting := more }.broadcast e) [t]
  | drain {e rest n} : h.sending = none → h.stage = .draining n → h.inbound = e :: rest →
      Dispatched now h ({ h with inbound := rest, stage := .draining (n + 1) }.broadcast e) []
  | stop {n} : h.sending = none → h.stage = .draining n → h.inbound = [] →
      Dispatched now h (h.stop n) []

theorem serve?_dispatched {now : Nat} {h h' : Hub} {b : Broadcast} (hb : h.sending = some b)
    (hs : h.serve? now b = some h') : Dispatched now h h' [] := by
  unfold serve? at hs
  split at hs
  · rename_i ha
    obtain rfl := Option.some.inj hs
    unfold finish
    split
    · rename_i hf
      exact .finish hb ha hf
    · rename_i hf
      exact .evict hb ha hf rfl
  · rename_i p rest ha
    split at hs
    · rename_i hh
      obtain rfl := Option.some.inj hs
      exact .gone hb ha (by simpa using hh)
    · rename_i hh
      have hheld : (h.queue p).held = true := by simpa using hh
      split at hs
      · rename_i hl
        obtain rfl := Option.some.inj hs
        exact .deliver hb ha hheld hl
      · rename_i hl
        have hfull : h.settings.subscriber ≤ (h.queue p).events.length := by omega
        split at hs
        · rename_i hn
          obtain rfl := Option.some.inj hs
          exact .await hb ha hheld hfull hn
        · rename_i since hn
          split at hs
          · rename_i ho
            obtain rfl := Option.some.inj hs
            exact .overdue hb ha hheld hfull hn ho
          · cases hs

/-- The dispatcher's step, as a function and as a judgment. -/
theorem step?_eq_some_iff {now : Nat} {h h' : Hub} {ts : List Ticket} :
    h.step? now = some (h', ts) ↔ Dispatched now h h' ts := by
  constructor
  · intro hs
    unfold step? at hs
    split at hs
    · rename_i b hb
      obtain ⟨g, hg, he⟩ := Option.map_eq_some_iff.1 hs
      cases he
      exact serve?_dispatched hb hg
    · rename_i hb
      split at hs
      · rename_i hst
        split at hs
        · rename_i hc
          cases hs
          exact .close hb hst (Or.inl hc)
        · rename_i hc
          split at hs
          · rename_i e rest hin
            have hc' : h.closing = false := by simpa using hc
            unfold take at hs
            split at hs
            · rename_i hw
              cases hs
              exact .take hb hst hc' hin hw
            · rename_i hw
              cases hs
              exact .refill hb hst hc' hin hw
          · rename_i hin
            split at hs
            · rename_i hw
              cases hs
              exact .close hb hst (Or.inr ⟨hin, hw⟩)
            · cases hs
      · rename_i n hst
        split at hs
        · rename_i e rest hin
          cases hs
          exact .drain hb hst hin
        · rename_i hin
          cases hs
          exact .stop hb hst hin
      · cases hs
  · intro hd
    cases hd with
    | finish hb ha hf => simp [step?, serve?, finish, hb, ha, hf]
    | evict hb ha hf hm => simp [step?, serve?, finish, hb, ha, hf, hm]
    | gone hb ha hh => simp [step?, serve?, hb, ha, hh]
    | deliver hb ha hh hl => simp [step?, serve?, hb, ha, hh, hl]
    | await hb ha hh hl hn => simp [step?, serve?, hb, ha, hh, Nat.not_lt.2 hl, hn]
    | overdue hb ha hh hl hn ho => simp [step?, serve?, hb, ha, hh, Nat.not_lt.2 hl, hn, ho]
    | close hb hst hc =>
      rcases hc with hc | ⟨hin, hse, hw⟩
      · simp [step?, hb, hst, hc]
      · cases hc : h.closing <;> simp [step?, hb, hst, hc, hin, hse, hw]
    | take hb hst hc hin hw => simp [step?, take, hb, hst, hc, hin, hw]
    | refill hb hst hc hin hw => simp [step?, take, hb, hst, hc, hin, hw]
    | drain hb hst hin => simp [step?, hb, hst, hin]
    | stop hb hst hin => simp [step?, hb, hst, hin]

theorem run_of_none {h : Hub} {now : Nat} (hs : h.step? now = none) (n : Nat) :
    h.run now n = (h, []) := by
  cases n with
  | zero => rfl
  | succ n => rw [Hub.run, hs]

theorem run_of_some {h h' : Hub} {now n : Nat} {ts : List Ticket}
    (hs : h.step? now = some (h', ts)) :
    h.run now (n + 1) = ((h'.run now n).1, ts ++ (h'.run now n).2) := by
  rw [Hub.run, hs]

/-! ## Moves -/

/-- What is done to a hub. -/
inductive Move where
  | emit (t : Ticket) (e : Event)
  | attach
  | detach (p : Place)
  | receive (p : Place)
  | receiveAll (p : Place)
  | requestClose
  | dropSender
  /-- The dispatcher does one thing at the time `now`. -/
  | dispatch (now : Nat)
  deriving DecidableEq, Repr

/-- The hub after a move, and the tickets of the emits that return in it; nothing if the
    move cannot be made. -/
def move? (h : Hub) : Move → Option (Hub × List Ticket)
  | .emit t e => some ((h.emit t e).1, if (h.emit t e).2 = .waiting then [] else [t])
  | .attach =>
    match h.attach with
    | .ok (h', _) => some (h', [])
    | .error _ => some (h, [])
  | .detach p => if (h.queue p).held then some (h.detach p, []) else none
  | .receive p => if (h.queue p).held then some ((h.receive p).1, []) else none
  | .receiveAll p => if (h.queue p).held then some ((h.receiveAll p).1, []) else none
  | .requestClose => some (h.requestClose, [])
  | .dropSender => some (h.dropSender, [])
  | .dispatch now => h.step? now

/-- The hub after some moves, and the tickets of the emits that return in them. -/
def follow? : List Move → Hub → Option (Hub × List Ticket)
  | [], h => some (h, [])
  | m :: ms, h =>
    match h.move? m with
    | none => none
    | some (h', ts) => (follow? ms h').map fun r => (r.1, ts ++ r.2)

/-- What a hub starts with. -/
theorem start?_eq_some {feed : Feed} {settings : Settings} {senders : Nat} {h : Hub}
    (h0 : start? feed settings senders = some h) :
    settings.clamp.inbound ≤ largestQueue ∧
      h = { feed, settings := settings.clamp, senders, closing := false, stage := .running
            inbound := [], waiting := [], queues := [], members := [], sending := none
            journal := [.started] } := by
  simp only [start?] at h0
  split at h0
  · rename_i hle
    cases h0
    exact ⟨hle, rfl⟩
  · cases h0

theorem attach_eq_ok {h h' : Hub} {p : Place} (ha : h.attach = .ok (h', p)) :
    h.stage ≠ .stopped ∧ p = h.queues.length ∧ h' =
      { h with
        queues := h.queues ++ [Queue.mk [] true], members := h.members ++ [h.queues.length] }.note
          (.attached h.queues.length (h.members.length + 1)) := by
  unfold attach at ha
  split at ha
  · cases ha
  · split at ha
    · cases ha
    · rename_i hst
      cases ha
      exact ⟨by simpa [isStopped] using hst, rfl, rfl⟩

/-- What a subscriber has done that has got an event. -/
theorem receive_eq_event {h h' : Hub} {p : Place} {e : Event}
    (he : h.receive p = (h', .event e)) : ∃ rest, (h.queue p).events = e :: rest ∧
      h' = (h.setQueue p { h.queue p with events := rest }).note (.received p e) := by
  unfold receive at he
  split at he
  · rename_i e' rest hev
    cases he
    exact ⟨rest, hev, rfl⟩
  · have hr := congrArg Prod.snd he
    simp only at hr
    split at hr <;> cases hr

/-- The place of the subscriber that makes a move. -/
def Move.place? : Move → Option Place
  | .detach p | .receive p | .receiveAll p => some p
  | _ => none

/-- The emit that a move begins. -/
def Move.emit? : Move → Option (Ticket × Event)
  | .emit t e => some (t, e)
  | _ => none

/-- The emits that some moves begin, in that order. -/
def emitsOf (ms : List Move) : List (Ticket × Event) := ms.filterMap Move.emit?

/-- The move `m` makes `h` the hub `h'`, and the emits with these tickets return. -/
inductive Moved (h : Hub) : Move → Hub → List Ticket → Prop
  | accept {t e} : h.stage = .running → h.waiting = [] →
      h.inbound.length < h.settings.inbound →
      Moved h (.emit t e) { h.note (.emitted e) with inbound := h.inbound ++ [e] } [t]
  | queue {t e} : h.stage = .running →
      (h.waiting ≠ [] ∨ h.settings.inbound ≤ h.inbound.length) →
      Moved h (.emit t e) { h.note (.emitted e) with waiting := h.waiting ++ [(t, e)] } []
  | drop {t e} : h.stage ≠ .running →
      Moved h (.emit t e) ((h.note (.emitted e)).note (.dropped e)) [t]
  | attach : h.stage ≠ .stopped →
      Moved h .attach
        ({ h with
            queues := h.queues ++ [Queue.mk [] true]
            members := h.members ++ [h.queues.length] }.note
          (.attached h.queues.length (h.members.length + 1))) []
  | refuse : Moved h .attach h []
  | detach {p} : (h.queue p).held = true → Moved h (.detach p) (h.detach p) []
  | receive {p e rest} : (h.queue p).held = true → (h.queue p).events = e :: rest →
      Moved h (.receive p) ((h.setQueue p ⟨rest, true⟩).note (.received p e)) []
  | look {p} : (h.queue p).held = true → (h.queue p).events = [] → Moved h (.receive p) h []
  | receiveAll {p} : (h.queue p).held = true →
      Moved h (.receiveAll p)
        { h.setQueue p ⟨[], true⟩ with
          journal := h.journal ++ (h.queue p).events.map (.received p) } []
  | requestClose : Moved h .requestClose h.requestClose []
  | dropSender : Moved h .dropSender h.dropSender []
  | dispatch {now h' ts} : Dispatched now h h' ts → Moved h (.dispatch now) h' ts

theorem emit_moved (h : Hub) (t : Ticket) (e : Event) :
    Moved h (.emit t e) (h.emit t e).1 (if (h.emit t e).2 = .waiting then [] else [t]) := by
  by_cases hst : h.stage = .running
  · by_cases hw : h.waiting = [] ∧ h.inbound.length < h.settings.inbound
    · simpa [emit, note, hst, hw] using Moved.accept (t := t) (e := e) hst hw.1 hw.2
    · have hq : h.waiting ≠ [] ∨ h.settings.inbound ≤ h.inbound.length := by
        by_cases he : h.waiting = []
        · exact Or.inr (Nat.not_lt.1 fun hl => hw ⟨he, hl⟩)
        · exact Or.inl he
      simpa [emit, note, hst, hw] using Moved.queue (t := t) (e := e) hst hq
  · simpa [emit, note, hst] using Moved.drop (t := t) (e := e) hst

theorem moved_of_move? {h h' : Hub} {m : Move} {ts : List Ticket}
    (hm : h.move? m = some (h', ts)) : Moved h m h' ts := by
  cases m with
  | emit t e =>
    cases hm
    exact emit_moved h t e
  | attach =>
    simp only [move?] at hm
    split at hm
    · rename_i hat
      obtain ⟨hst, -, rfl⟩ := attach_eq_ok hat
      cases hm
      exact .attach hst
    · cases hm
      exact .refuse
  | detach p =>
    simp only [move?] at hm
    split at hm
    · rename_i hh
      cases hm
      exact .detach hh
    · cases hm
  | receive p =>
    simp only [move?, receive] at hm
    split at hm
    · rename_i hh
      split at hm
      · rename_i e rest he
        cases hm
        simpa only [hh] using Moved.receive hh he
      · rename_i he
        cases hm
        exact .look hh he
    · cases hm
  | receiveAll p =>
    simp only [move?, receiveAll] at hm
    split at hm
    · rename_i hh
      cases hm
      simpa only [hh] using Moved.receiveAll hh
    · cases hm
  | requestClose =>
    cases hm
    exact .requestClose
  | dropSender =>
    cases hm
    exact .dropSender
  | dispatch now => exact .dispatch (step?_eq_some_iff.1 hm)

/-- A hub that was told to close stays so. -/
theorem Moved.closing {h h' : Hub} {m : Move} {ts : List Ticket} (hm : Moved h m h' ts)
    (hc : h.closing = true) : h'.closing = true := by
  cases hm with
  | requestClose => rfl
  | dispatch hd => cases hd <;> exact hc
  | _ => exact hc

/-! ## Runs -/

theorem follow?_append {ms ns : List Move} {h h' h'' : Hub} {ts us : List Ticket}
    (h1 : h.follow? ms = some (h', ts)) (h2 : h'.follow? ns = some (h'', us)) :
    h.follow? (ms ++ ns) = some (h'', ts ++ us) := by
  induction ms generalizing h ts with
  | nil =>
    cases h1
    exact h2
  | cons m ms ih =>
    simp only [follow?] at h1
    split at h1
    · cases h1
    · rename_i g rs hm
      obtain ⟨r, hr, he⟩ := Option.map_eq_some_iff.1 h1
      cases he
      simp [follow?, hm, ih hr]

theorem follow?_singleton {h h' : Hub} {m : Move} {ts : List Ticket}
    (hm : h.move? m = some (h', ts)) : h.follow? [m] = some (h', ts) := by
  simp [follow?, hm]

/-- What holds of the first hub and is kept by every move holds along a run. -/
theorem follow_induction {h₀ : Hub} {P : List Move → Hub → List Ticket → Prop}
    (start : P [] h₀ [])
    (step : ∀ ms h ts m h' us, h₀.follow? ms = some (h, ts) → P ms h ts → Moved h m h' us →
      P (ms ++ [m]) h' (ts ++ us))
    {ms : List Move} {h : Hub} {ts : List Ticket} (hr : h₀.follow? ms = some (h, ts)) :
    P ms h ts := by
  suffices ∀ ns g us, h₀.follow? ns = some (g, us) → P ns g us → ∀ ms h ts,
      g.follow? ms = some (h, ts) → P (ns ++ ms) h (us ++ ts) from
    this [] h₀ [] rfl start ms h ts hr
  intro ns g us hg hP ms
  induction ms generalizing ns g us with
  | nil =>
    intro h ts hr
    cases hr
    simpa using hP
  | cons m ms ih =>
    intro h ts hr
    simp only [follow?] at hr
    split at hr
    · cases hr
    · rename_i g' rs hm
      obtain ⟨r, hr', he⟩ := Option.map_eq_some_iff.1 hr
      cases he
      have h1 := follow?_singleton hm
      have hP' := step ns g us m g' rs hg hP (moved_of_move? hm)
      simpa using ih (ns ++ [m]) g' (us ++ rs) (follow?_append hg h1) hP' r.1 r.2 hr'

/-- A hub that a run leads to. -/
def Arises (h : Hub) : Prop :=
  ∃ feed settings senders h₀ ms ts,
    start? feed settings senders = some h₀ ∧ h₀.follow? ms = some (h, ts)

theorem arises_of_start? {feed : Feed} {settings : Settings} {senders : Nat} {h : Hub}
    (h0 : start? feed settings senders = some h) : Arises h :=
  ⟨feed, settings, senders, h, [], [], h0, rfl⟩

theorem Arises.follow {h h' : Hub} {ms : List Move} {ts : List Ticket} (ha : Arises h)
    (hr : h.follow? ms = some (h', ts)) : Arises h' := by
  obtain ⟨feed, settings, senders, h₀, ns, us, h0, hn⟩ := ha
  exact ⟨feed, settings, senders, h₀, ns ++ ms, us ++ ts, h0, follow?_append hn hr⟩

/-- A run of moves of which `P` holds leads from `h` to `h'`. -/
def Leads (P : Move → Prop) (h h' : Hub) : Prop :=
  ∃ ms ts, h.follow? ms = some (h', ts) ∧ ∀ m ∈ ms, P m

namespace Leads
variable {P : Move → Prop} {h h' h'' : Hub}

theorem refl (P : Move → Prop) (h : Hub) : Leads P h h := ⟨[], [], rfl, by simp⟩

theorem single {m : Move} {ts : List Ticket} (hm : h.move? m = some (h', ts)) (hp : P m) :
    Leads P h h' :=
  ⟨[m], ts, follow?_singleton hm, fun _ hmem => List.mem_singleton.1 hmem ▸ hp⟩

theorem trans (h1 : Leads P h h') (h2 : Leads P h' h'') : Leads P h h'' := by
  obtain ⟨ms, ts, hr1, hp1⟩ := h1
  obtain ⟨ns, us, hr2, hp2⟩ := h2
  exact ⟨ms ++ ns, ts ++ us, follow?_append hr1 hr2,
    fun m hm => (List.mem_append.1 hm).elim (hp1 m) (hp2 m)⟩

theorem arises (hl : Leads P h h') (ha : Arises h) : Arises h' := by
  obtain ⟨ms, ts, hr, -⟩ := hl
  exact ha.follow hr

/-- What every move of which `P` holds keeps is kept by the run. -/
theorem induction {Q : Hub → Prop} (hl : Leads P h h') (h0 : Q h)
    (step : ∀ g m g' us, P m → Q g → Moved g m g' us → Q g') : Q h' := by
  obtain ⟨ms, ts, hr, hp⟩ := hl
  refine follow_induction (P := fun ns g _ => (∀ m ∈ ns, P m) → Q g) (fun _ => h0) ?_ hr hp
  intro ns g us m g' vs _ ih hm hall
  exact step g m g' vs (hall m (List.mem_append_right _ (List.mem_singleton_self _)))
    (ih fun k hk => hall k (List.mem_append_left _ hk)) hm

end Leads

end Hub

end CallFeed

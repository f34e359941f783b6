/-
  CallFeed — the dispatcher of a hub.

  * `Hub.step? now h` is what the dispatcher does next at the time `now`, or nothing
    if it can only wait. Between broadcasts a hub that was told to close closes its
    inbound queue before it takes another event; then it works off the events it
    had accepted, and stops;
  * within a broadcast, `Hub.serve?` delivers to the first subscriber ahead: a queue
    that nobody holds and a queue that stays full for as long as the limit fail the
    delivery, and the failed ones leave the set when the broadcast is over;
  * `Hub.settle` lets the dispatcher work until it can only wait: every step makes
    `Hub.work` smaller (`work_lt_of_step?`), so `step?_settle` holds.
-/
import CallFeed.Hub.Basic

namespace CallFeed

namespace Hub

/-! ## Broadcasts -/

/-- Begins the broadcast of an event to the present members. -/
def broadcast (h : Hub) (e : Event) : Hub :=
  { h with sending := some ⟨e, h.members, none, []⟩ }.note (.taken e h.members)

/-- Puts the event into the queue of the subscriber being served. -/
def deliver (h : Hub) (b : Broadcast) (p : Place) (rest : List Place) : Hub :=
  let q := h.queue p
  { (h.setQueue p { q with events := q.events ++ [b.event] }) with
    sending := some { b with ahead := rest, since := none } }.note (.delivered p b.event)

/-- Gives up the delivery to the subscriber being served. -/
def fail (h : Hub) (now : Nat) (b : Broadcast) (p : Place) (rest : List Place)
    (reason : Eviction) : Hub :=
  { h with
    sending := some
      { b with ahead := rest, since := none, failed := b.failed ++ [(p, reason)] } }.note
    (.failed p reason now)

/-- Begins to wait for space in the queue of the subscriber being served. -/
def await (h : Hub) (now : Nat) (b : Broadcast) (p : Place) : Hub :=
  { h with sending := some { b with since := some now } }.note (.waited p now)

/-- Whether a wait that began at `since` has reached the limit. -/
def isOverdue (h : Hub) (now since : Nat) : Bool :=
  match h.settings.limit with
  | some limit => since + limit ≤ now
  | none => false

/-- Ends a broadcast: the subscribers of failed deliveries leave the set. -/
def finish (h : Hub) (b : Broadcast) : Hub :=
  if b.failed = [] then { h with sending := none }
  else
    let members := h.members.filter fun p => !(b.failed.map Prod.fst).contains p
    { h with sending := none, members }.note (.evicted b.failed members.length)

/-- The next thing done in a broadcast, or nothing while a full queue is waited for. -/
def serve? (now : Nat) (h : Hub) (b : Broadcast) : Option Hub :=
  match b.ahead with
  | [] => some (h.finish b)
  | p :: rest =>
    if !(h.queue p).held then some (h.fail now b p rest .closed)
    else if (h.queue p).events.length < h.settings.subscriber then some (h.deliver b p rest)
    else
      match b.since with
      | none => some (h.await now b p)
      | some since =>
        if h.isOverdue now since then some (h.fail now b p rest .timeout) else none

/-! ## Between broadcasts -/

/-- Takes the first event of the inbound queue; the first waiting emit gets its space. -/
def take (h : Hub) (e : Event) (rest : List Event) : Hub × List Ticket :=
  match h.waiting with
  | [] => ({ h with inbound := rest }.broadcast e, [])
  | (t, e') :: more => ({ h with inbound := rest ++ [e'], waiting := more }.broadcast e, [t])

/-- Closes the inbound queue; the waiting emits end with their events dropped. -/
def closeInbound (h : Hub) : Hub × List Ticket :=
  ({ h with
      stage := .draining 0
      waiting := []
      journal := h.journal ++ .closed :: h.waiting.map fun w => .dropped w.2 },
    h.waiting.map Prod.fst)

def stop (h : Hub) (drained : Nat) : Hub :=
  { h with stage := .stopped, members := [] }.note (.stopped h.members.length drained)

/-- What the dispatcher does next, with the tickets of the emits that end by it, or
    nothing if it can only wait. -/
def step? (now : Nat) (h : Hub) : Option (Hub × List Ticket) :=
  match h.sending with
  | some b => (h.serve? now b).map fun h => (h, [])
  | none =>
    match h.stage with
    | .running =>
      if h.closing then some h.closeInbound
      else
        match h.inbound with
        | e :: rest => some (h.take e rest)
        | [] => if h.senders = 0 ∧ h.waiting = [] then some h.closeInbound else none
    | .draining n =>
      match h.inbound with
      | e :: rest => some ({ h with inbound := rest, stage := .draining (n + 1) }.broadcast e, [])
      | [] => some (h.stop n, [])
    | .stopped => none

/-! ## Settling -/

/-- How much work a broadcast is at most. -/
def sendingWork : Option Broadcast → Nat
  | none => 0
  | some b => 2 * b.ahead.length + (if b.since.isSome then 1 else 2)

/-- How much work is left before a hub has stopped. -/
def stageWork : Stage → Nat
  | .running => 2
  | .draining _ => 1
  | .stopped => 0

/-- How much work the dispatcher can have before it must wait. -/
def work (h : Hub) : Nat :=
  (h.inbound.length + h.waiting.length) * (2 * h.members.length + 3) + sendingWork h.sending +
    stageWork h.stage

/-- Lets the dispatcher take up to `n` steps. The tickets are those of the emits that
    end, in that order. -/
def run (now : Nat) : Nat → Hub → Hub × List Ticket
  | 0, h => (h, [])
  | n + 1, h =>
    match h.step? now with
    | none => (h, [])
    | some (h', tickets) =>
      let (h'', more) := run now n h'
      (h'', tickets ++ more)

/-- Lets the dispatcher work until it can only wait. -/
def settle (now : Nat) (h : Hub) : Hub × List Ticket :=
  h.run now h.work

/-! ## Settling ends -/

theorem one_le_sendingWork (b : Broadcast) : 2 * b.ahead.length + 1 ≤ sendingWork (some b) := by
  rw [sendingWork]
  split <;> omega

theorem work_lt_of_serve? {now : Nat} {h h' : Hub} {b : Broadcast} (hb : h.sending = some b)
    (hs : h.serve? now b = some h') : h'.work < h.work := by
  have hlow := one_le_sendingWork b
  rw [serve?] at hs
  split at hs
  · obtain rfl := Option.some.inj hs
    rw [finish]
    split
    · simp only [work, hb]
      simp only [sendingWork] at hlow ⊢
      omega
    · simp only [work, note, hb]
      have := Nat.mul_le_mul_left (h.inbound.length + h.waiting.length)
        (Nat.add_le_add_right (Nat.mul_le_mul_left 2
          (List.length_filter_le (fun p => !(b.failed.map Prod.fst).contains p) h.members)) 3)
      simp only [sendingWork] at hlow ⊢
      omega
  · rename_i p rest ha
    rw [ha, List.length_cons] at hlow
    split at hs
    · obtain rfl := Option.some.inj hs
      simp only [work, fail, note, hb]
      simp [sendingWork] at hlow ⊢
      omega
    · split at hs
      · obtain rfl := Option.some.inj hs
        simp only [work, deliver, setQueue, note, hb]
        simp [sendingWork] at hlow ⊢
        omega
      · split at hs
        · rename_i hsince
          obtain rfl := Option.some.inj hs
          simp [work, await, note, hb, sendingWork, hsince]
        · split at hs
          · obtain rfl := Option.some.inj hs
            simp only [work, fail, note, hb]
            simp [sendingWork] at hlow ⊢
            omega
          · cases hs

theorem work_broadcast (h : Hub) (e : Event) (hb : h.sending = none) :
    (h.broadcast e).work = h.work + (2 * h.members.length + 2) := by
  simp [work, broadcast, note, hb, sendingWork]
  omega

theorem work_closeInbound_lt {h : Hub} (hb : h.sending = none) (hst : h.stage = .running) :
    h.closeInbound.1.work < h.work := by
  simp only [work, closeInbound, hb, sendingWork, hst, stageWork, List.length_nil, Nat.add_zero]
  have := Nat.mul_le_mul_right (2 * h.members.length + 3)
    (Nat.le_add_right h.inbound.length h.waiting.length)
  omega

theorem work_take_lt {h : Hub} {e : Event} {rest : List Event} (hb : h.sending = none)
    (hin : h.inbound = e :: rest) : (h.take e rest).1.work < h.work := by
  rw [take]
  split
  · rename_i hw
    show (broadcast _ e).work < _
    rw [work_broadcast _ _ (by exact hb)]
    simp only [work, hb, hin, hw, List.length_cons, List.length_nil, Nat.add_zero, Nat.add_one_mul]
    omega
  · rename_i t e' more hw
    show (broadcast _ e).work < _
    rw [work_broadcast _ _ (by exact hb)]
    simp only [work, hb, hin, hw, List.length_cons, List.length_append, List.length_nil]
    rw [show rest.length + 1 + (more.length + 1) = rest.length + (0 + 1) + more.length + 1 by omega,
      Nat.add_one_mul (rest.length + (0 + 1) + more.length)]
    omega

/-- Every step of the dispatcher leaves less work. -/
theorem work_lt_of_step? {now : Nat} {h : Hub} {r : Hub × List Ticket}
    (hs : h.step? now = some r) : r.1.work < h.work := by
  rw [step?] at hs
  split at hs
  · rename_i b hb
    obtain ⟨h', hh, rfl⟩ := Option.map_eq_some_iff.1 hs
    exact work_lt_of_serve? hb hh
  · rename_i hb
    split at hs
    · rename_i hst
      split at hs
      · obtain rfl := Option.some.inj hs
        exact work_closeInbound_lt hb hst
      · split at hs
        · rename_i e rest hin
          obtain rfl := Option.some.inj hs
          exact work_take_lt hb hin
        · split at hs
          · obtain rfl := Option.some.inj hs
            exact work_closeInbound_lt hb hst
          · cases hs
    · rename_i n hst
      split at hs
      · rename_i e rest hin
        obtain rfl := Option.some.inj hs
        show (broadcast _ e).work < _
        rw [work_broadcast _ _ (by exact hb)]
        simp only [work, hb, hin, hst, stageWork, List.length_cons]
        rw [show rest.length + 1 + h.waiting.length = rest.length + h.waiting.length + 1 by omega,
          Nat.add_one_mul (rest.length + h.waiting.length)]
        omega
      · rename_i hin
        obtain rfl := Option.some.inj hs
        simp only [work, stop, note, hb, hin, hst, stageWork, List.length_nil]
        have := Nat.mul_le_mul_left (0 + h.waiting.length)
          (Nat.le_add_left 3 (2 * h.members.length))
        omega
    · cases hs

theorem step?_run {now : Nat} {n : Nat} {h : Hub} (hn : h.work ≤ n) :
    (h.run now n).1.step? now = none := by
  induction n generalizing h with
  | zero =>
    rw [run]
    cases hs : h.step? now with
    | none => rfl
    | some r => exact absurd (work_lt_of_step? hs) (by omega)
  | succ n ih =>
    rw [run]
    split
    · assumption
    · rename_i h' tickets hs
      exact ih (by have := work_lt_of_step? hs; simp only at this; omega)

/-- A settled dispatcher can only wait. -/
theorem step?_settle (now : Nat) (h : Hub) : (h.settle now).1.step? now = none :=
  step?_run (Nat.le_refl _)

end Hub

end CallFeed

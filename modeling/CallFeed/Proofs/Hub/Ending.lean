/-
  CallFeed — how a hub comes to its end.

  * `Leads.unattended`: a run after which no more subscribers have attached than before is one
    in which nobody attaches, so that the set does not grow (`Leads.members`);
  * `IsOpen`: a hub that was not told to close, and to which somebody can emit, does not end by
    itself (`Dispatched.isOpen`);
  * `follow?_senders`: how a hub closes has nothing to do with who can still emit.
-/
import CallFeed.Proofs.Hub.Register

namespace CallFeed

namespace Hub

/-! ## Nobody enters -/

/-- In a run after which no more subscribers have attached than before nobody attached. -/
theorem Leads.unattended {P : Move → Prop} {h h' : Hub} (hl : Leads P h h')
    (hlen : h'.queues.length = h.queues.length) :
    Leads (fun m => P m ∧ m ≠ .attach) h h' := by
  obtain ⟨ms, ts, hr, hp⟩ := hl
  induction ms generalizing h ts with
  | nil =>
    cases hr
    exact .refl _ _
  | cons m ms ih =>
    simp only [follow?] at hr
    split at hr
    · cases hr
    · rename_i g us hm
      obtain ⟨r, hrest, he⟩ := Option.map_eq_some_iff.1 hr
      cases he
      have hgrow := (moved_of_move? hm).members.1
      have hgrow' := (follow?_left hrest).1
      have hl := ih (by omega) r.2 hrest fun n hn => hp n (List.mem_cons_of_mem _ hn)
      by_cases hat : m = .attach
      · subst hat
        simp only [move?] at hm
        split at hm
        · rename_i hok
          obtain ⟨-, -, rfl⟩ := attach_eq_ok hok
          cases hm
          simp only [note, List.length_append, List.length_singleton] at hgrow'
          omega
        · cases hm
          exact hl
      · exact (Leads.single hm ⟨hp m List.mem_cons_self, hat⟩).trans hl

theorem Leads.members {P : Move → Prop} {h h' : Hub}
    (hl : Leads (fun m => P m ∧ m ≠ .attach) h h') : h'.members.Sublist h.members := by
  refine hl.induction (Q := fun g => g.members.Sublist h.members) (List.Sublist.refl _) ?_
  rintro g m g' us ⟨-, hne⟩ hg hm
  rcases hm.members.2 with hsub | ⟨hat, -⟩
  · exact hsub.trans hg
  · exact absurd hat hne

theorem Moved.queues_length {h h' : Hub} {m : Move} {ts : List Ticket} (hm : Moved h m h' ts)
    (hne : m ≠ .attach) : h'.queues.length = h.queues.length := by
  cases hm with
  | attach | refuse => exact absurd rfl hne
  | detach | receive | receiveAll => exact List.length_set
  | dispatch hd =>
    cases hd with
    | deliver => exact List.length_set
    | _ => rfl
  | _ => rfl

/-! ## Hubs that were not told to close -/

/-- The hub accepts events, was not told to close, and somebody can emit to it. -/
structure IsOpen (h : Hub) : Prop where
  closing : h.closing = false
  running : h.stage = .running
  senders : h.senders ≠ 0

theorem Dispatched.isOpen {now : Nat} {h h' : Hub} {ts : List Ticket} (ho : IsOpen h)
    (hd : Dispatched now h h' ts) : IsOpen h' := by
  cases hd with
  | close _ _ hc =>
    rcases hc with hc | ⟨-, hse, -⟩
    · cases ho.closing.symm.trans hc
    · exact absurd hse ho.senders
  | drain _ hst | stop _ hst => cases ho.running.symm.trans hst
  | _ => exact ⟨ho.closing, ho.running, ho.senders⟩

theorem emit_isOpen {h h' : Hub} {t : Ticket} {e : Event} {r : EmitStart} (ho : IsOpen h)
    (he : h.emit t e = (h', r)) : IsOpen h' := by
  simp only [emit, note, ho.running, if_true] at he
  split at he <;> cases he <;> exact ⟨ho.closing, rfl, ho.senders⟩

theorem attach_isOpen {h h' : Hub} {p : Place} (ho : IsOpen h) (hat : h.attach = .ok (h', p)) :
    IsOpen h' := by
  obtain ⟨-, -, rfl⟩ := attach_eq_ok hat
  exact ⟨ho.closing, ho.running, ho.senders⟩

theorem receive_isOpen {h : Hub} (p : Place) (ho : IsOpen h) : IsOpen (h.receive p).1 := by
  unfold receive
  split <;> exact ⟨ho.closing, ho.running, ho.senders⟩

/-! ## Hubs that were told to close -/

theorem requestClose_eq {h : Hub} (hc : h.closing = true) : h.requestClose = h := by
  cases h
  cases hc
  rfl

section
variable {h h' : Hub} {m : Move} {ts : List Ticket}

theorem Dispatched.senders {now : Nat} (hd : Dispatched now h h' ts) (hc : h.closing = true)
    (n : Nat) : Dispatched now { h with senders := n } { h' with senders := n } ts := by
  cases hd with
  | finish hb ha hf => exact .finish hb ha hf
  | evict hb ha hf hm => exact .evict hb ha hf hm
  | gone hb ha hh => exact .gone hb ha hh
  | deliver hb ha hh hl => exact .deliver hb ha hh hl
  | await hb ha hh hl hn => exact .await hb ha hh hl hn
  | overdue hb ha hh hl hn ho => exact .overdue hb ha hh hl hn ho
  | close hb hst => exact .close hb hst (Or.inl hc)
  | take _ _ hn | refill _ _ hn => cases hc.symm.trans hn
  | drain hb hst hin => exact .drain hb hst hin
  | stop hb hst hin => exact .stop hb hst hin

theorem attach_senders (h : Hub) (n : Nat) :
    { h with senders := n }.attach = h.attach.map fun r => ({ r.1 with senders := n }, r.2) := by
  unfold attach
  split
  · rfl
  · show (if h.isStopped then _ else _) = _
    split <;> rfl

/-- On a hub that was told to close, a move does not depend on who can still emit. -/
theorem move?_senders (hm : h.move? m = some (h', ts)) (hc : h.closing = true) (n : Nat) :
    ∃ n', { h with senders := n }.move? m = some ({ h' with senders := n' }, ts) := by
  cases m with
  | dispatch now => exact ⟨n, step?_eq_some_iff.2 ((step?_eq_some_iff.1 hm).senders hc n)⟩
  | dropSender =>
    cases hm
    exact ⟨n - 1, rfl⟩
  | requestClose =>
    cases hm
    exact ⟨n, rfl⟩
  | emit t e =>
    cases hm
    refine ⟨n, ?_⟩
    unfold move? emit
    dsimp only [note]
    split
    · split <;> rfl
    · rfl
  | attach =>
    refine ⟨n, ?_⟩
    simp only [move?, attach_senders] at hm ⊢
    cases hat : h.attach <;> rw [hat] at hm <;> cases hm <;> rfl
  | detach p =>
    refine ⟨n, ?_⟩
    obtain ⟨hh, he⟩ := Option.ite_none_right_eq_some.1 hm
    cases he
    exact if_pos hh
  | receive p =>
    refine ⟨n, ?_⟩
    obtain ⟨hh, he⟩ := Option.ite_none_right_eq_some.1 hm
    cases he
    refine (if_pos hh).trans ?_
    unfold receive
    dsimp only [queue]
    split <;> rfl
  | receiveAll p =>
    refine ⟨n, ?_⟩
    obtain ⟨hh, he⟩ := Option.ite_none_right_eq_some.1 hm
    cases he
    exact if_pos hh

theorem follow?_senders {ms : List Move} (hr : h.follow? ms = some (h', ts))
    (hc : h.closing = true) (n : Nat) :
    ∃ n', { h with senders := n }.follow? ms = some ({ h' with senders := n' }, ts) := by
  induction ms generalizing h ts n with
  | nil =>
    cases hr
    exact ⟨n, rfl⟩
  | cons m ms ih =>
    simp only [follow?] at hr ⊢
    split at hr
    · cases hr
    · rename_i g us hm
      obtain ⟨r, hrest, he⟩ := Option.map_eq_some_iff.1 hr
      cases he
      obtain ⟨n', hm'⟩ := move?_senders hm hc n
      obtain ⟨n'', hrest'⟩ := ih hrest ((moved_of_move? hm).closing hc) n'
      exact ⟨n'', by simp [hm', hrest']⟩

end

end Hub

end CallFeed

/-
  CallFeed — the end of a service.

  A service is shut down by its owner or by watchers, each of which waits for a signal from
  outside, and its owner lets go of it; all this happens while calls, clients and dispatchers
  go on, in whatever order.

  * `Answered` is a run in which the service is asked for something (`Asked`), with what was
    answered, next to the signals and those who wait for them (`Outside`);
  * `Alive`: before a shutdown and while its owner has not let go of it, a service has open
    hubs; `Stepped.leads_shutDown`: after a shutdown nobody enters a hub;
  * `shutdown_one_way` is what a run tells of the shutdown.
-/
import CallFeed.Proofs.Hub.Ending
import CallFeed.Proofs.Session.Driven

namespace CallFeed

namespace Service

variable {s : Service}

/-! ## Before a shutdown -/

/-- If the service was not shut down and not let go of, its hubs are open. -/
def Alive (s : Service) : Prop :=
  s.isShutDown = false → s.released = false → ∀ feed, (s.hub feed).IsOpen

theorem Alive.setHub (ha : Alive s) (feed : Feed) {h : Hub}
    (ho : (s.hub feed).IsOpen → h.IsOpen) : Alive (s.setHub feed h) := by
  intro hdown hrel feed'
  cases feed with
  | log =>
    cases feed' with
    | log => exact ho (ha hdown hrel .log)
    | stat => exact ha hdown hrel .stat
  | stat =>
    cases feed' with
    | log => exact ha hdown hrel .log
    | stat => exact ho (ha hdown hrel .stat)

theorem alive_shutDown (s : Service) : Alive s.shutDown.1 := by
  intro hdown
  unfold shutDown at hdown
  split at hdown
  · rename_i hs
    cases hdown.symm.trans hs
  · cases hdown

/-! ## After a shutdown -/

theorem attachLog_shutDown (hs : s.isShutDown = true) :
    s.attachLog = (s, .error (.fault .shuttingDown)) := by
  simp [attachLog, hs]

/-- A window that is too short is found out before anything else. -/
theorem attachStat_shutDown (hs : s.isShutDown = true) (now seconds : Nat) :
    s.attachStat now seconds =
      (s, .error (.fault (if seconds = 0 then .invalidWindow 0 else .shuttingDown))) := by
  by_cases h0 : seconds = 0
  · simp [attachStat, windowOf, shortestWindow, h0]
  · simp [attachStat, windowOf, shortestWindow, h0, hs]

end Service

namespace Session

variable {α : Type} {s s' : Session α} {g g' : List Telling} {who : Option Nat}

theorem Stepped.alive (ha : s.service.Alive) (hs : Stepped s g who s' g') : s'.service.Alive := by
  cases hs with
  | dispatch feed hstep => exact ha.setHub feed (Hub.step?_eq_some_iff.1 hstep).isOpen
  | @tell _ _ _ _ feed _ _ _ hemit | @wait _ _ _ _ feed _ _ hemit =>
    exact ha.setHub feed fun ho => Hub.emit_isOpen ho hemit
  | attachLog hat =>
    obtain ⟨h, hlog, rfl⟩ := Service.attachLog_eq_ok hat
    exact ha.setHub .log fun ho => Hub.attach_isOpen ho hlog
  | attachStat hat =>
    obtain ⟨h, p, hstat, rfl, -⟩ := Service.attachStat_eq_ok hat
    exact ha.setHub .stat fun ho => Hub.attach_isOpen ho hstat
  | refuseStat hat =>
    obtain rfl | ⟨h, p, hstat, rfl⟩ := Service.attachStat_eq_error hat
    · exact ha
    · refine ha.setHub .stat fun ho => ?_
      obtain ⟨hc, hst, hse⟩ := Hub.attach_isOpen ho hstat
      exact ⟨hc, hst, hse⟩
  | @giveUp _ i x =>
    cases x with
    | log p => exact ha.setHub .log fun ho => ⟨ho.closing, ho.running, ho.senders⟩
    | stat f => exact ha.setHub .stat fun ho => ⟨ho.closing, ho.running, ho.senders⟩
  | receive => exact ha.setHub .log (Hub.receive_isOpen _)
  | @poll _ i f =>
    show (s.service.setHub .stat (f.poll s.now s.service.stat).2.1).Alive
    rw [StatFeed.poll_hub]
    exact ha.setHub .stat fun ho => ⟨ho.closing, ho.running, ho.senders⟩
  | shutDown => exact Service.alive_shutDown s.service
  | release => rintro - ⟨⟩
  | finish | call | clock | note | watch | signal => exact ha

theorem Reached.alive (hr : Reached s g) : s.service.Alive := by
  induction hr with
  | start hs =>
    intro _ _ feed
    obtain ⟨-, -, hhub⟩ := Service.start?_eq_some hs
    obtain ⟨-, he⟩ := Hub.start?_eq_some (hhub feed)
    rw [he]
    exact ⟨rfl, rfl, by simp⟩
  | step _ hs ih => exact hs.alive ih

/-! ## After a shutdown -/

/-- A service that was shut down stays so, and one that was let go of. -/
theorem Stepped.latched (hs : Stepped s g who s' g') :
    (s.service.isShutDown = true → s'.service.isShutDown = true) ∧
      (s.service.released = true → s'.service.released = true) := by
  cases hs with
  | dispatch feed | @tell _ _ _ _ feed | @wait _ _ _ _ feed => cases feed <;> exact ⟨id, id⟩
  | attachLog hat =>
    obtain ⟨h, -, rfl⟩ := Service.attachLog_eq_ok hat
    exact ⟨id, id⟩
  | attachStat hat =>
    obtain ⟨h, p, -, rfl, -⟩ := Service.attachStat_eq_ok hat
    exact ⟨id, id⟩
  | refuseStat hat =>
    obtain rfl | ⟨h, p, -, rfl⟩ := Service.attachStat_eq_error hat <;> exact ⟨id, id⟩
  | @giveUp _ _ x => cases x <;> exact ⟨id, id⟩
  | shutDown =>
    show (_ → s.service.shutDown.1.isShutDown = true) ∧ (_ → s.service.shutDown.1.released = true)
    unfold Service.shutDown
    split
    · exact ⟨id, id⟩
    · exact ⟨fun _ => rfl, id⟩
  | release => exact ⟨id, fun _ => rfl⟩
  | receive | poll | finish | call | clock | note | watch | signal => exact ⟨id, id⟩

theorem queues_length_setHub (feed : Feed) {h : Hub}
    (hlen : h.queues.length = (s.service.hub feed).queues.length) (feed' : Feed) :
    ((s.setHub feed h).service.hub feed').queues.length =
      (s.service.hub feed').queues.length := by
  by_cases hf : feed' = feed
  · subst hf
    rwa [service_setHub_hub_self]
  · rw [service_setHub_hub_ne s hf]

theorem Stepped.queues_length (hdown : s.service.isShutDown = true)
    (hs : Stepped s g who s' g') (feed : Feed) :
    (s'.service.hub feed).queues.length = (s.service.hub feed).queues.length := by
  cases hs with
  | dispatch feed' hstep =>
    have hm := Hub.Moved.dispatch (Hub.step?_eq_some_iff.1 hstep)
    exact queues_length_setHub feed' (hm.queues_length (by simp)) feed
  | @tell _ _ t e feed' _ _ _ hemit | @wait _ _ t e feed' _ _ hemit =>
    have hlen := (Hub.emit_moved (s.service.hub feed') t e).queues_length (by simp)
    rw [hemit] at hlen
    exact queues_length_setHub feed' hlen feed
  | attachLog hat => cases (Service.attachLog_shutDown hdown).symm.trans hat
  | attachStat hat => cases (Service.attachStat_shutDown hdown _ _).symm.trans hat
  | refuseStat hat =>
    cases (Service.attachStat_shutDown hdown _ _).symm.trans hat
    rfl
  | @giveUp _ i x =>
    cases x with
    | log p =>
      exact queues_length_setHub (s := s) .log (h := s.service.log.detach p)
        List.length_set feed
    | stat f =>
      exact queues_length_setHub (s := s) .stat (h := s.service.stat.detach f.place)
        List.length_set feed
  | @receive _ i p =>
    refine queues_length_setHub .log ?_ feed
    show (s.service.log.receive p).1.queues.length = _
    unfold Hub.receive
    split
    · exact List.length_set
    · rfl
  | @poll _ i f =>
    refine queues_length_setHub (s := s) .stat (h := (f.poll s.now s.service.stat).2.1) ?_ feed
    rw [StatFeed.poll_hub]
    exact List.length_set
  | shutDown =>
    show (s.service.shutDown.1.hub feed).queues.length = _
    unfold Service.shutDown
    split
    · rfl
    · cases feed <;> rfl
  | release => cases feed <;> rfl
  | finish | call | clock | note | watch | signal => rfl

/-- After a shutdown each step moves each hub by moves of its own, and nobody attaches. -/
theorem Stepped.leads_shutDown (ho : Owned s) (hdown : s.service.isShutDown = true)
    (hs : Stepped s g who s' g') (feed : Feed) :
    (s.service.hub feed).Leads (fun m => s.MayMove who feed m ∧ m ≠ .attach)
      (s'.service.hub feed) :=
  (hs.leads ho feed).unattended (hs.queues_length hdown feed)

end Session

/-! ## Runs -/

/-- What the service is asked for, and what is answered. -/
inductive Asked where
  /-- It is shut down, by its owner or a watcher; the answer is whether it was the first time. -/
  | shutDown (first : Bool)
  | attachLog (answer : Except Failure Place)
  | attachStat (seconds : Nat) (answer : Except Failure StatFeed)
  /-- Its owner lets go of it. -/
  | release
  /-- Who has waited for the end of both hubs goes on. -/
  | closed

/-- What is around a service: signals, watchers, and those who wait for its end. -/
structure Outside where
  /-- The signals that were given. -/
  given : List Nat := []
  /-- The signals that the watchers wait for, each watcher for one. -/
  watched : List Nat := []
  /-- The hubs that were found stopped. -/
  found : List Feed := []

/-- Whether the service was asked to shut down. -/
def Asked.shutsDown : Asked → Bool
  | shutDown _ => true
  | _ => false

/-- What is answered once a shutdown has begun. -/
def Asked.IsLate : Asked → Prop
  | shutDown first => first = false
  | attachLog answer => answer = .error (.fault .shuttingDown)
  | attachStat seconds answer =>
    answer = .error (.fault (if seconds = 0 then .invalidWindow 0 else .shuttingDown))
  | release | closed => True

namespace Session

variable {α : Type}

/-- The service is asked for something by its owner, and answers. -/
inductive Asks (s : Session α) : Asked → Session α → Prop
  | shutDown : Asks s (.shutDown s.shutDown.2) s.shutDown.1
  | attachLog {service p} : s.service.attachLog = (service, .ok p) →
      Asks s (.attachLog (.ok p)) ({ s with service }.keep (.log p)).1
  | refuseLog {service f} : s.service.attachLog = (service, .error f) →
      Asks s (.attachLog (.error f)) { s with service }
  | attachStat {service seconds f} : s.service.attachStat s.now seconds = (service, .ok f) →
      Asks s (.attachStat seconds (.ok f)) ({ s with service }.keep (.stat f)).1
  | refuseStat {service seconds f} : s.service.attachStat s.now seconds = (service, .error f) →
      Asks s (.attachStat seconds (.error f)) { s with service }
  | release : Asks s .release { s with service := s.service.release }

/-- From `s₀`, where the calls `g₀` go on, things happen in which the service is asked for
    this; `o₀` becomes of what is around it. -/
inductive Answered (s₀ : Session α) (g₀ : List Telling) (o₀ : Outside) :
    List Asked → Outside → Session α → List Telling → Prop
  | start : Answered s₀ g₀ o₀ [] o₀ s₀ g₀
  /-- Something else happens. -/
  | aside {as o s g who s' g'} : Answered s₀ g₀ o₀ as o s g → Stepped s g who s' g' →
      s'.service.isShutDown = s.service.isShutDown →
      s'.service.released = s.service.released → Answered s₀ g₀ o₀ as o s' g'
  | ask {as o s g a s'} : Answered s₀ g₀ o₀ as o s g → s.service.released = false →
      Asks s a s' → Answered s₀ g₀ o₀ (as ++ [a]) o s' g
  | watch {as o s g} (signal : Nat) : Answered s₀ g₀ o₀ as o s g → s.service.released = false →
      Answered s₀ g₀ o₀ as { o with watched := signal :: o.watched } s g
  | signal {as o s g} (signal : Nat) : Answered s₀ g₀ o₀ as o s g →
      Answered s₀ g₀ o₀ as { o with given := signal :: o.given } s g
  /-- A watcher whose signal was given shuts the service down, if it is still there. -/
  | fire {as o s g ws signal vs} : Answered s₀ g₀ o₀ as o s g →
      o.watched = ws ++ signal :: vs → signal ∈ o.given → s.service.released = false →
      Answered s₀ g₀ o₀ (as ++ [.shutDown s.shutDown.2]) { o with watched := ws ++ vs }
        s.shutDown.1 g
  /-- A watcher of a service that was shut down or let go of has nothing to do. -/
  | leave {as o s g ws signal vs} : Answered s₀ g₀ o₀ as o s g →
      o.watched = ws ++ signal :: vs →
      s.service.isShutDown = true ∨ s.service.released = true →
      Answered s₀ g₀ o₀ as { o with watched := ws ++ vs } s g
  | find {as o s g} (feed : Feed) : Answered s₀ g₀ o₀ as o s g →
      (s.service.hub feed).isStopped = true →
      Answered s₀ g₀ o₀ as { o with found := feed :: o.found } s g
  | closed {as o s g} : Answered s₀ g₀ o₀ as o s g → (∀ feed, feed ∈ o.found) →
      Answered s₀ g₀ o₀ (as ++ [.closed]) o s g

section
variable {s₀ s s' : Session α} {g₀ g g' : List Telling} {o₀ o : Outside} {as : List Asked}
  {who : Option Nat}

/-- Asking is a step, or changes nothing. -/
theorem Asks.stepped {a : Asked} (ha : Asks s a s') (g : List Telling) :
    s' = s ∨ Stepped s g none s' g := by
  cases ha with
  | shutDown => exact Or.inr .shutDown
  | attachLog hat => exact Or.inr (.attachLog hat)
  | refuseLog hat =>
    obtain rfl := Service.attachLog_eq_error hat
    exact Or.inl rfl
  | attachStat hat => exact Or.inr (.attachStat hat)
  | refuseStat hat => exact Or.inr (.refuseStat hat)
  | release => exact Or.inr .release

/-- What every step keeps holds along a run. -/
theorem Answered.induction {Q : Session α → Prop} (hrun : Answered s₀ g₀ o₀ as o s g)
    (hr : Reached s₀ g₀) (h0 : Q s₀)
    (step : ∀ {s g who s' g'}, Reached s g → Stepped s g who s' g' → Q s → Q s') :
    Reached s g ∧ Q s := by
  induction hrun with
  | start => exact ⟨hr, h0⟩
  | aside _ hs _ _ ih => exact ⟨ih.1.step hs, step ih.1 hs ih.2⟩
  | @ask _ _ _ g _ _ _ _ ha ih =>
    rcases ha.stepped g with rfl | hs
    · exact ih
    · exact ⟨ih.1.step hs, step ih.1 hs ih.2⟩
  | fire _ _ _ _ ih => exact ⟨ih.1.step .shutDown, step ih.1 .shutDown ih.2⟩
  | watch _ _ _ ih | signal _ _ ih | leave _ _ _ ih | find _ _ _ ih | closed _ _ ih => exact ih

theorem Answered.reached (hrun : Answered s₀ g₀ o₀ as o s g) (hr : Reached s₀ g₀) :
    Reached s g :=
  (hrun.induction (Q := fun _ => True) hr trivial fun _ _ _ => trivial).1

/-- What is asked for once a shutdown has begun is answered so. -/
theorem Asks.isLate {a : Asked} (ha : Asks s a s') (hdown : s.service.isShutDown = true) :
    a.IsLate ∧ s'.service.isShutDown = true := by
  have hs' : s'.service.isShutDown = true := by
    rcases ha.stepped [] with rfl | hs
    · exact hdown
    · exact hs.latched.1 hdown
  refine ⟨?_, hs'⟩
  cases ha with
  | shutDown =>
    show s.service.shutDown.2 = false
    rw [Service.shutDown, if_pos hdown]
  | attachLog hat => cases (Service.attachLog_shutDown hdown).symm.trans hat
  | refuseLog hat =>
    cases (Service.attachLog_shutDown hdown).symm.trans hat
    rfl
  | attachStat hat => cases (Service.attachStat_shutDown hdown _ _).symm.trans hat
  | refuseStat hat =>
    cases (Service.attachStat_shutDown hdown _ _).symm.trans hat
    rfl
  | release => trivial

/-- Only the first shutdown begins it. -/
theorem Asks.isFirst {a : Asked} (ha : Asks s a s') (hdown : s.service.isShutDown = false) :
    a = .shutDown true ∧ s'.service.isShutDown = true ∨
      a.shutsDown = false ∧ s'.service.isShutDown = false := by
  cases ha with
  | shutDown =>
    have hs : s.service.shutDown = ({ s.service.closeHubs with isShutDown := true }, true) := by
      simp [Service.shutDown, hdown]
    refine Or.inl ⟨?_, ?_⟩
    · show Asked.shutDown s.service.shutDown.2 = _
      rw [hs]
    · show s.service.shutDown.1.isShutDown = true
      rw [hs]
  | attachLog hat =>
    obtain ⟨h, -, rfl⟩ := Service.attachLog_eq_ok hat
    exact Or.inr ⟨rfl, hdown⟩
  | refuseLog hat =>
    obtain rfl := Service.attachLog_eq_error hat
    exact Or.inr ⟨rfl, hdown⟩
  | attachStat hat =>
    obtain ⟨h, p, -, rfl, -⟩ := Service.attachStat_eq_ok hat
    exact Or.inr ⟨rfl, hdown⟩
  | refuseStat hat =>
    obtain rfl | ⟨h, p, -, rfl⟩ := Service.attachStat_eq_error hat <;> exact Or.inr ⟨rfl, hdown⟩
  | release => exact Or.inr ⟨rfl, hdown⟩

/-- What was answered, and whether a shutdown has begun in it. -/
inductive Course (as : List Asked) : Bool → Prop
  | before : (∀ a ∈ as, a.shutsDown = false) → Course as false
  /-- The first that shuts the service down is told so, and all others are late. -/
  | after {bs cs} : as = bs ++ .shutDown true :: cs → (∀ a ∈ bs, a.shutsDown = false) →
      (∀ a ∈ cs, a.IsLate) → Course as true

theorem Course.late {a : Asked} (hc : Course as true) (ha : a.IsLate) :
    Course (as ++ [a]) true := by
  obtain ⟨⟩ | @⟨bs, cs, rfl, hbefore, hlate⟩ := hc
  have hsplit : bs ++ .shutDown true :: cs ++ [a] = bs ++ .shutDown true :: (cs ++ [a]) := by simp
  exact .after hsplit hbefore (List.forall_mem_append.2 ⟨hlate, by simpa using ha⟩)

theorem Course.early {a : Asked} (hc : Course as false) (ha : a.shutsDown = false) :
    Course (as ++ [a]) false := by
  obtain ⟨hbefore⟩ := hc
  exact .before (List.forall_mem_append.2 ⟨hbefore, by simpa using ha⟩)

theorem Course.ask {a : Asked} (hc : Course as s.service.isShutDown) (ha : Asks s a s') :
    Course (as ++ [a]) s'.service.isShutDown := by
  cases hdown : s.service.isShutDown with
  | false =>
    rw [hdown] at hc
    rcases ha.isFirst hdown with ⟨rfl, hs'⟩ | ⟨hnot, hs'⟩
    · obtain ⟨hbefore⟩ := hc
      rw [hs']
      exact .after rfl hbefore (by simp)
    · rw [hs']
      exact hc.early hnot
  | true =>
    rw [hdown] at hc
    obtain ⟨ha, hs'⟩ := ha.isLate hdown
    rw [hs']
    exact hc.late ha

theorem Course.closed {b : Bool} (hc : Course as b) : Course (as ++ [.closed]) b := by
  cases b with
  | false => exact hc.early rfl
  | true => exact hc.late trivial

theorem Answered.course (hrun : Answered s₀ g₀ o₀ as o s g)
    (hdown : s₀.service.isShutDown = false) : Course as s.service.isShutDown := by
  induction hrun with
  | start => exact hdown ▸ .before (by simp)
  | aside _ _ hsame _ ih => exact hsame ▸ ih
  | ask _ _ ha ih => exact ih.ask ha
  | fire _ _ _ _ ih => exact ih.ask .shutDown
  | watch _ _ _ ih | signal _ _ ih | leave _ _ _ ih | find _ _ _ ih => exact ih
  | closed _ _ ih => exact ih.closed

theorem Answered.late (hrun : Answered s₀ g₀ o₀ as o s g)
    (hdown : s₀.service.isShutDown = true) :
    s.service.isShutDown = true ∧ ∀ a ∈ as, a.IsLate := by
  induction hrun with
  | start => exact ⟨hdown, by simp⟩
  | aside _ _ hsame _ ih => exact ⟨hsame.trans ih.1, ih.2⟩
  | ask _ _ ha ih =>
    obtain ⟨ha, hs'⟩ := ha.isLate ih.1
    exact ⟨hs', List.forall_mem_append.2 ⟨ih.2, by simpa using ha⟩⟩
  | fire _ _ _ _ ih =>
    obtain ⟨ha, hs'⟩ := Asks.shutDown.isLate ih.1
    exact ⟨hs', List.forall_mem_append.2 ⟨ih.2, by simpa using ha⟩⟩
  | watch _ _ _ ih | signal _ _ ih | leave _ _ _ ih | find _ _ _ ih => exact ih
  | closed _ _ ih => exact ⟨ih.1, List.forall_mem_append.2 ⟨ih.2, by simp [Asked.IsLate]⟩⟩

/-! ## Hubs that have stopped -/

/-- A hub that has stopped stays so, and accepts nothing more. -/
theorem Stepped.stopped (ho : Owned s) (hs : Stepped s g who s' g') {feed : Feed}
    (hst : (s.service.hub feed).stage = .stopped) :
    (s'.service.hub feed).stage = .stopped ∧
      (s'.service.hub feed).accepted = (s.service.hub feed).accepted := by
  refine (hs.leads ho feed).induction
    (Q := fun h => h.stage = .stopped ∧ h.accepted = (s.service.hub feed).accepted) ⟨hst, rfl⟩ ?_
  rintro h m h' us - ⟨hst, hacc⟩ hm
  obtain ⟨-, hacc', -⟩ := hm.closed (by simp [hst])
  exact ⟨hm.stopped hst, hacc'.trans hacc⟩

/-- Who waits for the end finds what has stopped. -/
theorem Answered.closes (hrun : Answered s₀ g₀ o₀ as o s g) (hr : Reached s₀ g₀)
    (h0 : ∀ feed ∈ o₀.found, (s₀.service.hub feed).stage = .stopped) :
    (∀ feed ∈ o.found, (s.service.hub feed).stage = .stopped) ∧
      (.closed ∈ as → ∀ feed, (s.service.hub feed).stage = .stopped) := by
  have hkeep : ∀ {s s' : Session α} {g g' : List Telling} {who : Option Nat} {as : List Asked}
      {o : Outside}, Answered s₀ g₀ o₀ as o s g → Stepped s g who s' g' → ∀ feed,
      (s.service.hub feed).stage = .stopped → (s'.service.hub feed).stage = .stopped :=
    fun hrun hs _ hst => (hs.stopped (hrun.reached hr).sound.owned hst).1
  induction hrun with
  | start => exact ⟨h0, by simp⟩
  | aside hrun hs _ _ ih =>
    exact ⟨fun feed hf => hkeep hrun hs feed (ih.1 feed hf),
      fun hc feed => hkeep hrun hs feed (ih.2 hc feed)⟩
  | @ask as o s g a s' hrun _ ha ih =>
    have hold : .closed ∈ as ++ [a] → .closed ∈ as := by
      intro hc
      rcases List.mem_append.1 hc with hc | hc
      · exact hc
      · cases List.mem_singleton.1 hc
        cases ha
    rcases ha.stepped g with rfl | hs
    · exact ⟨ih.1, fun hc => ih.2 (hold hc)⟩
    · exact ⟨fun feed hf => hkeep hrun hs feed (ih.1 feed hf),
        fun hc feed => hkeep hrun hs feed (ih.2 (hold hc) feed)⟩
  | fire hrun _ _ _ ih =>
    exact ⟨fun feed hf => hkeep hrun .shutDown feed (ih.1 feed hf),
      fun hc feed => hkeep hrun .shutDown feed (ih.2 (by simpa using hc) feed)⟩
  | watch _ _ _ ih | signal _ _ ih | leave _ _ _ ih => exact ih
  | find feed _ hst ih =>
    refine ⟨fun feed' hf => ?_, ih.2⟩
    rcases List.mem_cons.1 hf with rfl | hf
    · simpa [Hub.isStopped] using hst
    · exact ih.1 feed' hf
  | closed _ hall ih => exact ⟨ih.1, fun _ feed => ih.1 feed (hall feed)⟩

/-! ## Letting go of a service -/

/-- Letting go of a service closes its hubs as a shutdown does. -/
theorem Sound.release_hub (hd : Sound s) (feed : Feed) :
    (s.service.shutDown.1.hub feed).closing = true ∧ s.service.release.hub feed =
      { s.service.shutDown.1.hub feed with senders := (s.service.hub feed).senders - 1 } := by
  unfold Service.shutDown
  split
  · rename_i hdown
    have hc := hd.closing (Or.inl hdown) feed
    have he : s.service.release.hub feed = (s.service.hub feed).requestClose.dropSender := by
      cases feed <;> rfl
    exact ⟨hc, by rw [he, Hub.requestClose_eq hc]; rfl⟩
  · cases feed <;> exact ⟨rfl, rfl⟩

/-! ## The whole course -/

/-- What a run from `s₀`, in which the service was asked for `as`, tells of the shutdown when it
    has come to `s`. -/
structure OneWay (s₀ : Session α) (as : List Asked) (s : Session α) : Prop where
  /-- Nobody but the first begins the shutdown, and from then on all answers are late. -/
  course : s₀.service.isShutDown = false → Course as s.service.isShutDown
  /-- A shutdown that has begun is never undone, and nobody enters a hub any more. -/
  late : s₀.service.isShutDown = true → s.service.isShutDown = true ∧ (∀ a ∈ as, a.IsLate) ∧
    ∀ feed, (s.service.hub feed).members.Sublist (s₀.service.hub feed).members
  /-- What is asked for after that changes nothing. -/
  idle : s.service.isShutDown = true → s.shutDown = (s.note .alreadyShuttingDown, false) ∧
    s.service.attachLog.1 = s.service ∧
    ∀ seconds, (s.service.attachStat s.now seconds).1 = s.service
  /-- No hub of a service that is still there stops by itself. -/
  alive : s.service.released = false → ∀ feed, (s.service.hub feed).stage = .stopped →
    s.service.isShutDown = true
  /-- A hub that has stopped stays so, without subscribers, and drops what is emitted. -/
  stopped : ∀ feed, (s₀.service.hub feed).stage = .stopped →
    (s.service.hub feed).stage = .stopped ∧ (s.service.hub feed).members = [] ∧
    (s.service.hub feed).accepted = (s₀.service.hub feed).accepted ∧
    ∀ t e, (s.service.hub feed).emit t e =
      (((s.service.hub feed).note (.emitted e)).note (.dropped e), .dropped)
  closed : .closed ∈ as → s.service.isClosed = true
  /-- Hubs that were told to close come to an end but for subscribers that do not read. -/
  closing : s.service.isShutDown = true ∨ s.service.released = true → ∀ feed,
    (s.service.hub feed).closing = true ∧
    ((s.service.hub feed).step? s.now = none →
      (s.service.hub feed).stage = .stopped ∨ ∃ p, (s.service.hub feed).Blocked s.now p)
  /-- Whatever happens, a hub closes after a release as it does after a shutdown. -/
  release : ∀ feed ms h ts, (s.service.shutDown.1.hub feed).follow? ms = some (h, ts) →
    ∃ n, (s.service.release.hub feed).follow? ms = some ({ h with senders := n }, ts)

theorem shutdown_one_way (hr : Reached s₀ g₀)
    (h0 : ∀ feed ∈ o₀.found, (s₀.service.hub feed).stage = .stopped)
    (hrun : Answered s₀ g₀ o₀ as o s g) : OneWay s₀ as s where
  course := hrun.course
  late hdown := by
    obtain ⟨hs, hall⟩ := hrun.late hdown
    refine ⟨hs, hall, ?_⟩
    refine (hrun.induction (Q := fun s => s.service.isShutDown = true ∧ ∀ feed,
      (s.service.hub feed).members.Sublist (s₀.service.hub feed).members) hr
      ⟨hdown, fun _ => List.Sublist.refl _⟩ ?_).2.2
    rintro s g who s' g' hr' hs ⟨hdown, hsub⟩
    exact ⟨hs.latched.1 hdown, fun feed =>
      (hs.leads_shutDown hr'.sound.owned hdown feed).members.trans (hsub feed)⟩
  idle hdown := by
    refine ⟨?_, ?_, fun seconds => ?_⟩
    · unfold shutDown
      rw [Service.shutDown, if_pos hdown]
      rfl
    · rw [Service.attachLog_shutDown hdown]
    · rw [Service.attachStat_shutDown hdown]
  alive hrel feed hst := by
    by_contra hdown
    have ho := (hrun.reached hr).alive (by simpa using hdown) hrel feed
    cases ho.running.symm.trans hst
  stopped feed hst := by
    obtain ⟨hr', hst', hacc⟩ := hrun.induction
      (Q := fun s => (s.service.hub feed).stage = .stopped ∧
        (s.service.hub feed).accepted = (s₀.service.hub feed).accepted) hr ⟨hst, rfl⟩
      fun hr' hs hq => ⟨(hs.stopped hr'.sound.owned hq.1).1,
        (hs.stopped hr'.sound.owned hq.1).2.trans hq.2⟩
    refine ⟨hst', ((hr'.sound.arises feed).roster.ended hst').1, hacc, fun t e => ?_⟩
    simp [Hub.emit, Hub.note, hst']
  closed hc := by
    have hall := (hrun.closes hr h0).2 hc
    have hlog : s.service.log.stage = .stopped := hall .log
    have hstat : s.service.stat.stage = .stopped := hall .stat
    simp [Service.isClosed, Hub.isStopped, hlog, hstat]
  closing hdown feed := by
    have hd := (hrun.reached hr).sound
    refine ⟨hd.closing hdown feed, fun hn => ?_⟩
    obtain ⟨x, hx, -⟩ := (hd.arises feed).situation (hd.timely feed) hn
    cases x with
    | idle => cases (hd.closing hdown feed).symm.trans hx.2.1
    | blocked p => exact Or.inr ⟨p, hx⟩
    | stopped => exact Or.inl hx.1
  release feed ms h ts hf := by
    obtain ⟨hc, he⟩ := (hrun.reached hr).sound.release_hub feed
    rw [he]
    exact Hub.follow?_senders hf hc _

/-- A service with a subscriber is shut down by a watcher, and again by its owner; both hubs
    stop. -/
theorem shutdown_one_way_watcher : ∃ s₀ s : Session Unit,
    open? (AccessList.ofRows []) ⟨1, 1, some 5⟩ {} = some s₀ ∧ s.service.isClosed = true ∧
    OneWay s₀ [.attachLog (.ok 0), .shutDown true, .shutDown false,
      .attachLog (.error (.fault .shuttingDown)), .closed] s := by
  let s₀ : Session Unit := (open? (AccessList.ofRows []) ⟨1, 1, some 5⟩ {}).get rfl
  have ho : open? (AccessList.ofRows []) ⟨1, 1, some 5⟩ {} = some s₀ := rfl
  have hstart : Answered s₀ [] {} [] {} s₀ [] := .start
  have hattached := hstart.ask rfl (.attachLog rfl)
  have hwatched := (hattached.watch 0 rfl).signal 0
  have hfired := hwatched.fire (List.nil_append _).symm List.mem_cons_self rfl
  have hrefused := (hfired.ask rfl .shutDown).ask rfl (.refuseLog rfl)
  have hlog := (hrefused.aside (.dispatch .log rfl) rfl rfl).aside (.dispatch .log rfl) rfl rfl
  have hstat := (hlog.aside (.dispatch .stat rfl) rfl rfl).aside (.dispatch .stat rfl) rfl rfl
  have hclosed := ((hstat.find .log rfl).find .stat rfl).closed (by rintro (_ | _) <;> simp)
  exact ⟨s₀, _, ho, rfl, shutdown_one_way (reached_open? ho).1 (by simp) hclosed⟩

end

end Session

end CallFeed

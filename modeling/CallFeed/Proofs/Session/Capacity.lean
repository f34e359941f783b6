/-
  CallFeed — which configurations can be run.

  * `Config.load_eq_ok` and `Config.load_eq_error` say what is known of the variables when a
    configuration is loaded, and when it is not;
  * `Session.Serves` are the states of a service with a configuration: its hubs have the settings
    that were loaded, whatever happens;
  * `loaded_runs`: every capacity of a word is loaded, zero alone is refused, but a hub starts, and
    makes a queue for a subscriber, only up to the largest queue.
-/
import CallFeed.Proofs.Config.Loading
import CallFeed.Proofs.Hub.Timeline
import CallFeed.Proofs.Session.Subscribing

namespace CallFeed

/-! ## Loading -/

namespace Config

variable {vars : Variables} {name : String} {least standard n : Nat} {f : ConfigFault} {c : Config}

theorem load_eq_ok (hload : load vars = .ok c) :
    loadAccess vars = .ok c.access ∧
    IsCount vars inboundVariable 1 Settings.standard.inbound c.inbound ∧
    IsCount vars subscriberVariable 1 Settings.standard.subscriber c.subscriber := by
  have hloads := load_eq_ok_iff.1 hload
  exact ⟨loadAccess_eq_ok_iff.2 hloads.access, hloads.inbound, hloads.subscriber⟩

theorem load_eq_error (hload : load vars = .error f) :
    loadAccess vars = .error f ∨ IsMisread vars inboundVariable 1 f ∨
      IsMisread vars subscriberVariable 1 f ∨ IsMisread vars limitVariable 0 f := by
  cases load_eq_error_iff.1 hload with
  | missing hset => exact Or.inl (loadAccess_eq_error_iff.2 (Or.inl ⟨hset, rfl⟩))
  | access hset _ hread =>
    exact Or.inl (loadAccess_eq_error_iff.2 (Or.inr ⟨_, _, hset, hread, rfl⟩))
  | count _ _ hfirst =>
    obtain ⟨v, hv, hm⟩ := hfirst.exists_misread
    rw [counts, List.mem_cons, List.mem_cons, List.mem_singleton] at hv
    rcases hv with rfl | rfl | rfl
    · exact Or.inr (Or.inl hm)
    · exact Or.inr (Or.inr (Or.inl hm))
    · exact Or.inr (Or.inr (Or.inr hm))

/-- The counts of a loaded configuration are words. -/
theorem IsCount.le_maxWord (hn : IsCount vars name least standard n)
    (hstandard : standard ≤ Text.maxWord) : n ≤ Text.maxWord := by
  rcases hn with ⟨-, rfl⟩ | ⟨text, -, hread, -⟩
  · exact hstandard
  · exact Text.readCount_le hread

theorem IsCount.least_le (hn : IsCount vars name least standard n) (hstandard : least ≤ standard) :
    least ≤ n := by
  rcases hn with ⟨-, rfl⟩ | ⟨text, -, -, hle⟩
  · exact hstandard
  · exact hle

/-- Capacities that were loaded need no clamping. -/
theorem settings_of_pos (hi : 1 ≤ c.inbound) (hs : 1 ≤ c.subscriber) :
    c.settings = ⟨c.inbound, c.subscriber, c.limit⟩ := by
  simp [settings, Settings.clamp, Nat.max_eq_left hi, Nat.max_eq_left hs]

theorem settings_clamp (c : Config) : c.settings.clamp = c.settings := by
  simp [settings, Settings.clamp]

end Config

/-! ## Running -/

theorem Service.start?_isSome_iff {access : AccessList} {settings : Settings}
    {rules : DispatchRules} :
    (Service.start? access settings rules).isSome ↔ settings.clamp.inbound ≤ largestQueue := by
  unfold Service.start? Hub.start?
  by_cases hle : settings.clamp.inbound ≤ largestQueue <;> simp [hle]

namespace Session

variable {α : Type}

/-- The states that a service with the configuration `c` and its clients can come to. -/
inductive Serves (c : Config) : Session α → List Telling → Prop
  | start {service notices} : Service.start? c.access c.settings c.rules = some service →
      Serves c
        { service, now := 0, calls := [], subscriptions := [], signalled := false, watchers := 0
          notices } []
  | step {s g who s' g'} : Serves c s g → Stepped s g who s' g' → Serves c s' g'

variable {s s' : Session α} {g g' : List Telling} {who : Option Nat} {c : Config}

theorem Stepped.settings (ho : Owned s) (hs : Stepped s g who s' g') (feed : Feed) :
    (s'.service.hub feed).settings = (s.service.hub feed).settings :=
  (hs.leads ho feed).induction (Q := fun h => h.settings = (s.service.hub feed).settings) rfl
    fun _ _ _ _ _ hq hm => hm.settings.trans hq

namespace Serves

theorem reached (hc : Serves c s g) : Reached s g := by
  induction hc with
  | start hs => exact .start hs
  | step _ hs ih => exact ih.step hs

theorem onward (hc : Serves c s g) (ho : Onward s g s' g') : Serves c s' g' := by
  induction ho with
  | refl => exact hc
  | step _ hs _ ih => exact ih.step hs

theorem of_ofConfig? (ho : ofConfig? c = some s) : Serves c s [] := by
  obtain ⟨service, hs, rfl⟩ := Option.map_eq_some_iff.1 ho
  exact (Serves.start hs).onward (onward_settle (.start hs))

theorem perform (hc : Serves c s []) (d : Command α) : Serves c (s.perform d).1 [] :=
  hc.onward (onward_perform d hc.reached)

/-- Whatever happens, the hubs have the settings of the configuration. -/
theorem settings (hc : Serves c s g) (feed : Feed) :
    (s.service.hub feed).settings = c.settings := by
  induction hc with
  | start hs =>
    obtain ⟨-, -, hhub⟩ := Service.start?_eq_some hs
    obtain ⟨-, he⟩ := Hub.start?_eq_some (hhub feed)
    rw [he]
    exact c.settings_clamp
  | step hc hs ih => exact (hs.settings hc.reached.sound.owned feed).trans ih

end Serves

theorem ofConfig?_isSome_iff :
    (ofConfig? c : Option (Session α)).isSome ↔ c.settings.inbound ≤ largestQueue := by
  rw [ofConfig?, open?, Option.isSome_map, Service.start?_isSome_iff, c.settings_clamp]

/-- What can be done with a configuration that the variables give. -/
structure Runs (α : Type) (vars : Variables) (c : Config) : Prop where
  inbound : Config.IsCount vars Config.inboundVariable 1 Settings.standard.inbound c.inbound
  subscriber : Config.IsCount vars Config.subscriberVariable 1 Settings.standard.subscriber
    c.subscriber
  /-- Nothing but the width of a word bounds the capacities. -/
  words : c.inbound ≤ Text.maxWord ∧ c.subscriber ≤ Text.maxWord
  /-- The hubs have the capacities that were loaded. -/
  settings : ∀ (s : Session α) g, Serves c s g → ∀ feed,
    (s.service.hub feed).settings = ⟨c.inbound, c.subscriber, c.limit⟩
  starts : (ofConfig? c : Option (Session α)).isSome ↔ c.inbound ≤ largestQueue
  /-- In whatever state the service is, a request for the log feed breaks down only for a queue
      that cannot be made. -/
  attaches : ∀ (s : Session α) g, Serves c s g → s.service.released = false →
    ((s.act .attachLog).2 = .failed .breakdown ↔
      s.service.isShutDown = false ∧ largestQueue < c.subscriber)

/-- **What is loaded can be run up to the largest queue.** The variables give a configuration or
    name the one that is at fault: a capacity is refused if its text is no numeral of a word, or
    zero. All other capacities are loaded and reach the hubs as they are. A service starts with
    them if its inbound queues can be made, and then, whatever has happened, nobody is kept from
    the log feed by the size of a queue unless the subscribers' queues cannot be made. -/
theorem loaded_runs (vars : Variables) :
    (∀ f, Config.load vars = .error f →
      Config.loadAccess vars = .error f ∨
      Config.IsMisread vars Config.inboundVariable 1 f ∨
      Config.IsMisread vars Config.subscriberVariable 1 f ∨
      Config.IsMisread vars Config.limitVariable 0 f) ∧
    ∀ c, Config.load vars = .ok c → Runs α vars c := by
  refine ⟨fun f => Config.load_eq_error, fun c hload => ?_⟩
  obtain ⟨-, hinbound, hsubscriber⟩ := Config.load_eq_ok hload
  have hsettings := Config.settings_of_pos (c := c)
    (hinbound.least_le (by decide)) (hsubscriber.least_le (by decide))
  refine ⟨hinbound, hsubscriber, ⟨hinbound.le_maxWord (by decide),
    hsubscriber.le_maxWord (by decide)⟩, fun s g hc feed => (hc.settings feed).trans hsettings, ?_,
    fun s g hc hrel => ?_⟩
  · rw [ofConfig?_isSome_iff, hsettings]
  · have hlog : s.service.log.settings = ⟨c.inbound, c.subscriber, c.limit⟩ :=
      (hc.settings .log).trans hsettings
    rw [attachLog_breakdown_iff hc.reached hrel, hlog]

/-- A configuration whose subscribers' queues are larger than the largest queue. -/
def oversized : Config :=
  ⟨AccessList.ofRows [], 1024, 2305843009213693952, some 5000, [], []⟩

/-- A capacity beyond the largest queue is loaded. The service starts, and a call is told on its
    feeds, but nobody can have the log feed. -/
theorem loaded_runs_oversized : ∃ (vars : Variables) (s : Session Unit),
    vars Config.subscriberVariable = some "2305843009213693952" ∧
    Config.load vars = .ok oversized ∧ Runs Unit vars oversized ∧ ofConfig? oversized = some s ∧
    (s.perform (.call none (.report "a" "/m"))).2 = .called 1 (some .reported) ∧
    ((s.perform (.call none (.report "a" "/m"))).1.act .attachLog).2 = .failed .breakdown := by
  let vars : Variables := ([(Config.accessVariable, "\x7b\x7d"),
    (Config.subscriberVariable, "2305843009213693952"),
    (Config.logExemptVariable, "")].lookup ·)
  have hload : Config.load vars = .ok oversized := rfl
  have hruns : Runs Unit vars oversized := (loaded_runs vars).2 _ hload
  have ho : (ofConfig? oversized : Option (Session Unit)) = some _ := rfl
  have hserves := (Serves.of_ofConfig? ho).perform (.call none (.report "a" "/m"))
  exact ⟨vars, _, rfl, hload, hruns, ho, rfl,
    (hruns.attaches _ _ hserves rfl).2 ⟨rfl, by decide⟩⟩

/-- Not everything that is loaded can be run. -/
theorem loaded_not_always_run : ¬ ∀ (vars : Variables) (c : Config), Config.load vars = .ok c →
    (ofConfig? c : Option (Session Unit)).isSome := by
  intro hall
  let vars : Variables := ([(Config.accessVariable, "\x7b\x7d"),
    (Config.inboundVariable, "2305843009213693952")].lookup ·)
  have hstarts := hall vars _ rfl
  cases hstarts

end Session

end CallFeed

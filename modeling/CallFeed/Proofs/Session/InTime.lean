/-
  CallFeed — a shutdown comes to its end in time.

  With a limit for deliveries a hub has stopped soon after a shutdown, whatever its clients do:
  time passes only while it waits for a subscriber (`Prompt`), and how often it does so and how
  long is bounded (`Hub.Patient`).

  * `Prompt.patient`: steps that take no time, and the clock, leave the hub as patient as it was;
  * `shutdown_in_time` is the bound, and a better one for subscribers that do not read.
-/
import CallFeed.Proofs.Hub.Patience
import CallFeed.Proofs.Session.Prompt
import CallFeed.Proofs.Session.Shutdown

namespace CallFeed

namespace Session

variable {α : Type} {s₀ s s' : Session α} {g₀ g g' : List Telling} {who : Option Nat}
  {feed : Feed} {h₀ : Hub} {limit n t₀ : Nat}

/-- What is done to a hub that nobody enters takes no patience. -/
theorem patient_leads {P : Hub.Move → Prop} {h h' : Hub} {now : Nat}
    (hp : Hub.Patient h₀ limit n t₀ now h) (hl : h.Leads (fun m => P m ∧ m ≠ .attach) h') :
    Hub.Patient h₀ limit n t₀ now h' :=
  hl.induction hp fun _ _ _ _ hm hp hmv => hp.moved hmv hm.2

theorem Stepped.patient (hd : Sound s) (hdown : s.service.isShutDown = true)
    (hlimit : h₀.settings.limit = some limit) (hs : Stepped s g who s' g') (hpunct : Punctual s s')
    (htime : s'.now = s.now ∨ Settled s)
    (hp : Hub.Patient h₀ limit n t₀ s.now (s.service.hub feed)) :
    Hub.Patient h₀ limit n t₀ s'.now (s'.service.hub feed) := by
  have hsame : s'.now = s.now → Hub.Patient h₀ limit n t₀ s'.now (s'.service.hub feed) :=
    fun hnow => hnow ▸ patient_leads hp (hs.leads_shutDown hd.owned hdown feed)
  rcases hs.now_or_service with hnow | ⟨-, hservice⟩
  · exact hsame hnow
  · rcases htime with hnow | hset
    · exact hsame hnow
    · rw [hservice]
      exact hp.clock (hd.timely feed) hlimit (hset feed) (hpunct feed)

theorem Prompt.patient (ho : Prompt s₀ g₀ s g) (hr : Reached s₀ g₀)
    (hdown : s₀.service.isShutDown = true) (hlimit : h₀.settings.limit = some limit)
    (hp : Hub.Patient h₀ limit n t₀ s₀.now (s₀.service.hub feed)) :
    s.service.isShutDown = true ∧ Hub.Patient h₀ limit n t₀ s.now (s.service.hub feed) := by
  induction ho with
  | refl => exact ⟨hdown, hp⟩
  | step ho hs hpunct htime ih =>
    obtain ⟨hdown, hp⟩ := ih
    exact ⟨hs.latched.1 hdown, hs.patient (ho.reached hr).sound hdown hlimit hpunct htime hp⟩

theorem shutDown_hub (hdown : s.service.isShutDown = false) (feed : Feed) :
    s.shutDown.1.service.hub feed = (s.service.hub feed).requestClose := by
  show s.service.shutDown.1.hub feed = _
  rw [Service.shutDown, if_neg (by simp [hdown])]
  cases feed <;> rfl

/-- **A shutdown comes to its end in time.** From the moment on at which a service is shut down,
    whatever happens, a hub with a limit for deliveries has stopped in every state in which it has
    nothing to do and in which so much time has passed as one limit for each of its subscribers and
    each event that it could accept, and one more for each subscriber; and if nobody has read from
    it, as one limit for each subscriber, however many events were left. -/
theorem shutdown_in_time (feed : Feed) (hr : Reached s g) (hdown : s.service.isShutDown = false)
    (hlimit : (s.service.hub feed).settings.limit = some limit) (ho : Prompt s.shutDown.1 g s' g')
    (hs : (s'.service.hub feed).step? s'.now = none) :
    (s.now + ((s.service.hub feed).settings.inbound + 1) * (s.service.hub feed).members.length *
        limit ≤ s'.now → (s'.service.hub feed).stage = .stopped) ∧
    ((∀ p, receivedFrom p (s'.service.hub feed).journal =
        receivedFrom p (s.service.hub feed).journal) →
      s.now + (s.service.hub feed).members.length * limit ≤ s'.now →
      (s'.service.hub feed).stage = .stopped) := by
  have hr₀ : Reached s.shutDown.1 g := hr.step .shutDown
  have hd₀ := hr₀.sound
  have hdown₀ : s.shutDown.1.service.isShutDown = true := by
    show s.service.shutDown.1.isShutDown = true
    rw [Service.shutDown, if_neg (by simp [hdown])]
  have hstart := Hub.Patient.start (hd₀.arises feed).roster (hd₀.arises feed).bounds
    (hd₀.closing (Or.inl hdown₀) feed) limit s.shutDown.1.now
  have hlimit₀ : (s.shutDown.1.service.hub feed).settings.limit = some limit := by
    rwa [shutDown_hub hdown]
  obtain ⟨-, hp⟩ := ho.patient hr₀ hdown₀ hlimit₀ hstart
  have hstopped := hp.stopped ((ho.reached hr₀).sound.timely feed) hlimit₀ hs
  rwa [shutDown_hub hdown] at hstopped

/-- Three calls are told to a subscriber that does not read and whose queue holds one event: one is
    in the queue, one waits for it, and one is still to be broadcast. -/
theorem shutdown_in_time_unread : ∃ s s' : Session Unit, ∃ g', s.service.isShutDown = false ∧
    (s.service.hub .log).members.length = 1 ∧ (s.service.hub .log).inbound.length = 1 ∧
    Prompt s.shutDown.1 [] s' g' ∧ s'.now = s.now + 1 * 5 ∧
    (s'.service.hub .log).stage = .stopped := by
  have ho : (open? (AccessList.ofRows []) ⟨1, 1, some 5⟩ {} : Option (Session Unit)) =
      some _ := rfl
  obtain ⟨hr, -⟩ := reached_open? ho
  have hcalled := reached_perform (.call (some 3) (.report "a" "/m"))
    (reached_perform .attachLog hr)
  have hdown : Reached _ [] := hcalled.step .shutDown
  have hpath := (prompt_settle hdown).trans (prompt_perform (.advance 5)
    ((prompt_settle hdown).reached hdown) (settled_settle hdown))
  have hend := shutdown_in_time .log hcalled rfl rfl hpath rfl
  exact ⟨_, _, _, rfl, rfl, rfl, hpath, rfl, hend.2 (fun p => rfl) (by decide)⟩

end Session

end CallFeed

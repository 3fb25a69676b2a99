import PortForward.Proofs.LifeCycle
import PortForward.Proofs.Stream.Course
import PortForward.Proofs.Stream.Isolation
import PortForward.Proofs.Stream.Ledger

/-!
# Every client accounted for

Each client that a stream proxy accepts is announced once, has the backend dialed for it at most
once and has its end told once, unless it still lives. So the lines of a run and the relays that
are left add up to the clients, at every moment; and no client that fails is felt by another.
-/

namespace PortForward

namespace StreamService

open StreamRelay (Course)

variable {frontend : Address} {backend : StreamBackend} {past : List (Moment StreamService)}
variable {p : Proxy} {s : StreamService} {client : Nat}

/-- A close, or the failure of a listener. -/
def IsClosing (events : List Proxy.Event) : Prop :=
  .close ∈ events ∨ ∃ event e, .service event ∈ events ∧ event.failure? = some e

/-- The clients of a proxy after a run, and what the next failure of one of them comes to. -/
structure Reckoned (past : List (Moment StreamService)) (p : Proxy) (s : StreamService) :
    Prop where
  accepted_eq : s.accepted = (past.flatMap arrivals).length
  course : ∀ client peer, (past.flatMap arrivals)[client]? = some peer →
    Course client peer (past.flatMap (stepsOf client)) (s.relay? client)
  dialed : ∀ client, (past.flatMap (·.effects)).count (.dial client) ≤ 1
  /-- lines and relays add up to the clients -/
  announced : (past.flatMap (·.effects)).countP (·.isAnnouncement) +
    s.relays.countP (·.isWaiting) = s.accepted
  ended : (past.flatMap (·.effects)).countP (·.isEnding) + s.relays.length = s.accepted
  /-- with nothing left to do all clients are announced, and those that live are connected -/
  quiet : p.IsQuiet → (past.flatMap (·.effects)).countP (·.isAnnouncement) = s.accepted ∧
    ∀ r ∈ s.relays, r.phase.isCopying
  dismissed : p.IsQuiet → p.isClosed → s.relays = []
  /-- what finds the proxy closed comes after a close or the failure of the listener -/
  closing : ∀ early m later, past = early ++ m :: later → m.closed = true →
    IsClosing (early.map (·.event))
  isolated : ∀ client event cause q effects, event.failure? = some cause →
    p.step (.service (.stream (.relay client event))) = some (q, effects) →
    Proxy.Isolated client cause p s q effects

/-- What is asked for once in the course of a client is asked for at most once. -/
theorem count_dial_of_course {peer : Address} {steps : List StreamRelay.Step}
    {next : Option StreamRelay} (h : Course client peer steps next) :
    (steps.flatMap (·.effects)).count (.dial client) ≤ 1 := by
  have hcount : (steps.flatMap (·.effects)).count (.dial client) =
      (milestones (steps.flatMap (·.effects))).count (.dial client) :=
    (List.count_filter rfl).symm
  rw [hcount]
  cases h with
  | living _ _ heq =>
    rw [heq]
    cases StreamRelay.phase _ <;> simp [StreamPhase.milestones]
  | ended _ heq | undialed _ heq =>
    rw [heq]
    simp

theorem Connected.count_dial_le (h : Connected past s) (client : Nat) :
    (past.flatMap (·.effects)).count (.dial client) ≤ 1 := by
  have hown : ∀ effect : Effect, effect == .dial client → effect.client? = some client := by
    intro effect heq
    rw [eq_of_beq heq, Effect.client?]
  have hcount : (past.flatMap (·.effects)).count (.dial client) =
      ((past.flatMap (stepsOf client)).flatMap (·.effects)).count (.dial client) := by
    simp only [List.count, List.countP_eq_length_filter]
    rw [h.filter_eq hown]
  rw [hcount]
  cases hpeer : (past.flatMap arrivals)[client]? with
  | some peer =>
    exact count_dial_of_course (StreamRelay.course_of_life (h.roster.life client peer hpeer))
  | none =>
    rw [h.roster.unborn client (List.getElem?_eq_none_iff.mp hpeer)]
    exact Nat.zero_le 1

theorem isCopying_of_quiet {closed : Bool} (hone : s.HasOneEach)
    (hquiet : (Service.stream s).IsQuiet closed) {r : StreamRelay} (hr : r ∈ s.relays) :
    r.phase.isCopying := by
  have hstuck : ∀ event, (Service.Event.stream (.relay r.client event)).isOwn →
      r.step closed event = none := by
    intro event hown
    have hnone := Option.map_eq_none_iff.mp (hquiet (.stream (.relay r.client event)) hown)
    rw [step, relay?, hone.find?_of_mem hr] at hnone
    exact Option.map_eq_none_iff.mp hnone
  cases hphase : r.phase with
  | accepted => simpa [StreamRelay.step, hphase] using hstuck .announce rfl
  | announced => simpa [StreamRelay.step, hphase] using hstuck .dial rfl
  | dialing => simpa [StreamRelay.step, hphase] using hstuck (.connected (.ok ())) rfl
  | copying => rfl

/-- A proxy that is closed was closed by a call or by the failure of its listener. -/
theorem isClosing_of_governed {events : List Proxy.Event} (h : p.Governed events)
    (hclosed : p.isClosed = true) : IsClosing events := by
  rcases h.closed_iff.mp hclosed with hclose | ⟨e, hfailed⟩
  · exact .inl hclose
  · obtain ⟨event, hmem, he⟩ := h.failed e hfailed
    exact .inr ⟨event, e, hmem, he⟩

theorem reckoned_of_history
    (h : History .stream (.bound frontend (.stream (.idle backend))) past p s) :
    Reckoned past p s := by
  have hconnected := connected_of_history h
  have hbalanced := balanced_of_history h
  constructor
  case accepted_eq => exact hconnected.accepted_eq
  case course =>
    exact fun client peer hpeer =>
      StreamRelay.course_of_life (hconnected.roster.life client peer hpeer)
  case dialed => exact hconnected.count_dial_le
  case announced => exact hbalanced.announced
  case ended => exact hbalanced.ended
  case quiet =>
    intro hquiet
    rw [Proxy.IsQuiet, h.service_eq] at hquiet
    have hone := hasOneEach_of_history h
    have hcopying := fun r hr => isCopying_of_quiet hone hquiet (r := r) hr
    refine ⟨?_, hcopying⟩
    have hnone : s.relays.countP (·.isWaiting) = 0 := by
      apply List.countP_eq_zero.mpr
      intro r hr hwaiting
      have hphase : r.phase = .accepted := by simpa [StreamRelay.isWaiting] using hwaiting
      have hcopies := hcopying r hr
      rw [hphase] at hcopies
      cases hcopies
    rw [← hbalanced.announced, hnone, Nat.add_zero]
  case dismissed =>
    intro hquiet hclosed
    rw [Proxy.IsQuiet, h.service_eq, hclosed] at hquiet
    exact (hasOneEach_of_history h).relays_eq_nil_of_quiet hquiet
  case closing =>
    rintro early m later rfl hclosed
    obtain ⟨q, -, hearly, hsame, -, -⟩ := h.of_moment
    have hgoverned := Proxy.governed_of_runAll (.stream backend) hearly.runAll_eq
    exact isClosing_of_governed hgoverned (hsame.trans hclosed)
  case isolated =>
    intro client event cause q effects hfailed hstep
    refine Proxy.isolated_of_failure h.service_eq ?_ hfailed hstep
    intro r hr
    rw [hconnected.accepted_eq]
    exact hconnected.roster.client_lt hr

/-- In every run of a stream proxy all clients are accounted for, and none is felt by another. -/
theorem reckoned_of_runAll {events : List Proxy.Event} {effects : List Effect}
    (h : (Proxy.bound frontend (.stream (.idle backend))).runAll events = some (p, effects)) :
    ∃ past s, History .stream (.bound frontend (.stream (.idle backend))) past p s ∧
      past.map (·.event) = events ∧ past.flatMap (·.effects) = effects ∧ Reckoned past p s := by
  obtain ⟨past, s, hist, hevents, heffects⟩ := exists_history Service.isKind_stream rfl h
  exact ⟨past, s, hist, hevents, heffects, reckoned_of_history hist⟩

/-- Of four clients the first is refused by the backend, the second is served to the end, and the
others are dropped when the listener fails: one as it copies and one before it has dialed. -/
theorem reckoned_after_failure :
    let frontend : Address := .stream (.v4 .loopback 80)
    let backend : StreamBackend := .ip (.v4 .loopback 8080)
    let peer : Nat → Address := fun n => .stream (.v4 .loopback (5000 + .ofNat n))
    let relay : Nat → StreamRelay.Event → Proxy.Event := fun client event =>
      .service (.stream (.relay client event))
    let events : List Proxy.Event :=
      .run :: (List.range 4).map (fun n => .service (.stream (.accept (.ok (peer n))))) ++
      [.announce, .dial, .connected (.error (.os 111))].map (relay 0) ++
      [.announce, .dial, .connected (.ok ()), .copy .client (.read (.ok [])),
        .copy .client (.shutdown (.ok ())), .copy .backend (.read (.ok [])),
        .copy .backend (.shutdown (.ok ()))].map (relay 1) ++
      [.announce, .dial, .connected (.ok ())].map (relay 2) ++
      [.service (.stream (.accept (.error (.os 24)))), relay 3 .announce, relay 3 .drop,
        relay 2 .drop]
    let effects : List Effect :=
      [.log (.streamRunning frontend backend.address),
        .log (.clientAccepted (peer 0)), .dial 0,
        .log (.connectionFailed (peer 0) (.os 111)), .release 0,
        .log (.clientAccepted (peer 1)), .dial 1, .endStream 1 .backend, .endStream 1 .client,
        .log (.connectionEnded 0 0), .release 1,
        .log (.clientAccepted (peer 2)), .dial 2, .log (.streamStopped frontend),
        .log (.clientAccepted (peer 3)), .log (.clientDropped (peer 3)), .release 3,
        .log (.clientDropped (peer 2)), .release 2]
    let made := Proxy.bound frontend (.stream (.idle backend))
    ∃ p, made.runAll events = some (p, effects) ∧
      ∃ past s, History .stream made past p s ∧ past.map (·.event) = events ∧
        past.flatMap (·.effects) = effects ∧ Reckoned past p s := by
  intro frontend backend peer relay events effects made
  have hfinal : (made.runAll events).map Prod.snd = some effects := by decide +kernel
  obtain ⟨⟨p, shown⟩, hrun, rfl⟩ := Option.map_eq_some_iff.mp hfinal
  exact ⟨p, hrun, reckoned_of_runAll hrun⟩

end StreamService

end PortForward

import PortForward.Proofs.Departure
import PortForward.Proofs.Framed.Dismissal
import PortForward.Proofs.Stream.Dismissal

/-!
# A closed proxy falls silent

A proxy is closed by a call or by the failure of its listener. Its relays and tasks learn of it in
different ways, and some have work to finish first. Once there is nothing left to do they are all
gone, with every socket they held, but for the framed relays whose clients do not read a reply that
is being written. From then on nothing makes the proxy do anything, unless such a client reads or
breaks off: what the others, the backend and the clock do finds nobody who waits for it.
-/

namespace PortForward

namespace Service

/-- How many clients have been accepted, where there is such a thing. -/
def accepted : Service → Nat
  | stream s => s.accepted
  | framed s => s.accepted
  | datagram _ => 0

/-- Nothing is left of the service, no loop, no relay, no flow and no task, but for framed relays
of these clients. -/
def IsOverBut (held : Nat → Prop) : Service → Prop
  | stream s => s.accepting = false ∧ s.relays = []
  | framed s => s.accepting = false ∧ ∀ r ∈ s.relays, held r.client
  | datagram r => r.loop.isAtWork = false ∧ r.table = [] ∧ r.tasks = []

/-- The service some time later, if nobody does anything. Only datagram relays know the time. -/
def later (duration : Nat) : Service → Service
  | datagram r => datagram { r with now := r.now + duration }
  | s => s

/-- How many steps are left at most until all clients of a closed proxy are dismissed. -/
def stepsLeft : Service → Nat
  | stream s => s.stepsLeft
  | framed s => s.stepsLeft
  | datagram _ => 0

variable {closed : Bool} {s : Service} {event : Event} {turn : Turn Service} {held : Nat → Prop}

@[simp] theorem later_zero (s : Service) : s.later 0 = s := by
  cases s <;> rfl

@[simp] theorem later_later (s : Service) (d e : Nat) : (s.later d).later e = s.later (d + e) := by
  cases s with
  | datagram r => simp [later, Nat.add_assoc]
  | _ => rfl

theorem HeldUp.later {task : Nat} (h : s.HeldUp task) (duration : Nat) :
    (s.later duration).HeldUp task := by
  obtain ⟨f, r, socket, rest, rfl, hr, hphase⟩ := h
  exact ⟨f, r, socket, rest, rfl, hr, hphase⟩

namespace IsOverBut

theorem not_looping (h : s.IsOverBut held) : s.isLooping = false := by
  cases s <;> exact h.1

theorem not_holding (h : s.IsOverBut held) : s.holdsFrontend = false := by
  cases s with
  | stream | framed => exact h.1
  | datagram r =>
    obtain ⟨hidle, -, htasks⟩ := h
    rw [holdsFrontend, DatagramRelay.holdsFrontend, htasks]
    cases hloop : r.loop with
    | idle | ended => rfl
    | _ => simp [hloop, LoopPhase.isAtWork] at hidle

theorem of_lives {task : Nat} (h : s.IsOverBut held) (hlives : s.lives task = true) :
    held task := by
  cases s with
  | stream s => simp [lives, StreamService.relay?, h.2] at hlives
  | framed s =>
    obtain ⟨r, hr⟩ := Option.isSome_iff_exists.mp hlives
    exact FramedService.client_of_relay? hr ▸ h.2 r (List.mem_of_find?_eq_some hr)
  | datagram r => simp [lives, DatagramRelay.task?, h.2.2] at hlives

theorem stream_step {s : StreamService} {event : StreamService.Event}
    (h : (stream s).IsOverBut held) : s.step closed event = none := by
  obtain ⟨hidle, hgone⟩ := h
  cases event with
  | accept result => cases result <;> simp [StreamService.step, hidle]
  | stop => simp [StreamService.step, hidle]
  | relay client event => simp [StreamService.step, StreamService.relay?, hgone]

theorem framed_step {s : FramedService} {event : FramedService.Event} {turn : Turn FramedService}
    (h : (framed s).IsOverBut held) (hstep : s.step closed event = some turn) :
    ∃ client e, event = .relay client e ∧ held client ∧ turn.loopEnd = none ∧
      (framed turn.next).IsOverBut held := by
  obtain ⟨hidle, hheld⟩ := h
  cases FramedService.transition_of_step hstep with
  | accepted haccepting | failed haccepting | stopped haccepting =>
    cases hidle.symm.trans haccepting
  | @moved client e r next effects hr ht =>
    have hclient := FramedService.client_of_relay? hr
    have hself : held client := hclient ▸ hheld r (List.mem_of_find?_eq_some hr)
    refine ⟨client, e, rfl, hself, rfl, ?_, ?_⟩
    · rw [Turn.on_next, FramedService.accepting_countOpened]
      exact hidle
    · intro x hx
      rw [Turn.on_next, FramedService.relays_countOpened] at hx
      obtain ⟨y, hy, hxy⟩ := List.mem_filterMap.mp hx
      split at hxy
      · rw [(ht.keeps hxy).1, hclient]
        exact hself
      · cases hxy
        exact hheld x hy

/-- Of all that a datagram relay waits for only the clock is left. -/
theorem datagram_step {r : DatagramRelay} {event : DatagramRelay.Event} {turn : Turn DatagramRelay}
    (h : (datagram r).IsOverBut held) (hstep : r.step closed event = some turn) :
    ∃ d, event = .advance d ∧ turn = .on { r with now := r.now + d } [] := by
  obtain ⟨hidle, -, htasks⟩ := h
  have htask : ∀ socket, r.task? socket = none := by
    intro socket
    rw [DatagramRelay.task?, htasks, List.find?_nil]
  have hloop : r.loop = .idle ∨ r.loop = .ended := by
    cases hphase : r.loop with
    | idle => exact .inl rfl
    | ended => exact .inr rfl
    | _ => simp [hphase, LoopPhase.isAtWork] at hidle
  cases event with
  | advance d =>
    cases hstep
    exact ⟨d, rfl, rfl⟩
  | replyReceive | refresh | replySend | forget | replyStop =>
    simp [DatagramRelay.step, htask] at hstep
  | _ => rcases hloop with hloop | hloop <;> simp [DatagramRelay.step, hloop] at hstep

/-- Time may pass, and those clients may be served; nothing else happens. -/
theorem step (h : s.IsOverBut held) (hstep : s.step closed event = some turn) :
    turn.loopEnd = none ∧ turn.next.IsOverBut held ∧
      ((event.isOwn = false ∧ turn.effects = [] ∧ ∃ d, turn.next = s.later d) ∨
        ∃ client e, event = .framed (.relay client e) ∧ held client) := by
  cases s with
  | stream s =>
    obtain ⟨e, t, -, ht, -⟩ := exists_stream_step hstep
    cases h.stream_step.symm.trans ht
  | framed s =>
    obtain ⟨e, t, rfl, ht, rfl⟩ := exists_framed_step hstep
    obtain ⟨client, e, rfl, hheld, hend, hnext⟩ := h.framed_step ht
    exact ⟨hend, hnext, .inr ⟨client, e, rfl, hheld⟩⟩
  | datagram r =>
    obtain ⟨e, t, rfl, ht, rfl⟩ := exists_datagram_step hstep
    obtain ⟨d, rfl, rfl⟩ := h.datagram_step ht
    exact ⟨rfl, h, .inl ⟨rfl, rfl, d, rfl⟩⟩

/-- A framed proxy is over but for the relays that write, if there are no others. -/
theorem of_writing {s : FramedService} (hone : s.HasOneEach) (hidle : s.accepting = false)
    (hwriting : ∀ r ∈ s.relays, ∃ socket rest, r.phase = .writing socket rest) :
    (framed s).IsOverBut (framed s).HeldUp := by
  refine ⟨hidle, fun r hr => ?_⟩
  obtain ⟨socket, rest, hphase⟩ := hwriting r hr
  exact ⟨s, r, socket, rest, rfl, hone.find?_of_mem hr, hphase⟩

theorem isQuiet (h : s.IsOverBut s.HeldUp) : s.IsQuiet closed := by
  intro event hown
  apply Option.eq_none_iff_forall_ne_some.mpr
  intro turn hstep
  obtain ⟨-, -, ⟨hnot, -⟩ | ⟨client, e, rfl, hheld⟩⟩ := h.step hstep
  · cases hown.symm.trans hnot
  · obtain ⟨result, rfl⟩ := hheld.write_of_step hstep
    cases hown

end IsOverBut

end Service

namespace Proxy

open StreamService (Dismissed)

/-- The proxy is closed, nobody can run it, and nothing is left of its service but framed relays of
these clients. -/
structure IsOverBut (held : Nat → Prop) (p : Proxy) : Prop where
  closed : p.isClosed = true
  empty : p.gate.slot = none
  service : p.service.IsOverBut held

variable {p q made : Proxy} {events : List Event} {event : Event} {effects : List Effect}
variable {held : Nat → Prop}

namespace IsOverBut

theorem unbound (h : p.IsOverBut held) : p.isBound = false := by
  rw [isBound, h.empty, h.service.not_holding]
  rfl

theorem step (h : p.IsOverBut held) (hstep : p.step event = some (q, effects)) :
    q.IsOverBut held ∧ ((effects = [] ∧ ∃ d, q.service = p.service.later d) ∨
      ∃ client e, event = .service (.framed (.relay client e)) ∧ held client) := by
  have hpasses := passes_of_step hstep
  have hclosed := isClosed_of_step hstep h.closed
  have hempty := slot_of_step hstep h.empty
  suffices hservice : q.service.IsOverBut held ∧
      ((effects = [] ∧ ∃ d, q.service = p.service.later d) ∨
        ∃ client e, event = .service (.framed (.relay client e)) ∧ held client) from
    ⟨⟨hclosed, hempty, hservice.1⟩, hservice.2⟩
  rw [h.closed] at hpasses
  generalize q.service = t at hpasses ⊢
  cases hpasses with
  | refused | closed => exact ⟨h.service, .inl ⟨rfl, 0, (Service.later_zero _).symm⟩⟩
  | started hopen => cases hopen
  | moved hturn _ =>
    obtain ⟨-, hnext, ⟨-, hsilent, hlater⟩ | ⟨client, e, rfl, hheld⟩⟩ := h.service.step hturn
    · exact ⟨hnext, .inl ⟨hsilent, hlater⟩⟩
    · exact ⟨hnext, .inr ⟨client, e, rfl, hheld⟩⟩
  | finished hturn hend =>
    rw [(h.service.step hturn).1] at hend
    cases hend

theorem runAll (h : p.IsOverBut held) (hrun : p.runAll events = some (q, effects)) :
    q.IsOverBut held :=
  runAll_induction (motive := fun _ q => q.IsOverBut held) h (fun h hstep => (h.step hstep).1) hrun

/-- Where those clients neither read nor break off, nothing happens but that time passes. -/
theorem runAll_unread (h : p.IsOverBut held)
    (hheld : ∀ client, held client → p.service.HeldUp client)
    (hrun : p.runAll events = some (q, effects))
    (hunread : ∀ client result, held client →
      .service (.framed (.relay client (.write result))) ∉ events) :
    effects = [] ∧ ∃ d, q.service = p.service.later d := by
  induction events generalizing p effects with
  | nil =>
    cases hrun
    exact ⟨rfl, 0, (Service.later_zero _).symm⟩
  | cons event events ih =>
    obtain ⟨⟨p', first⟩, hstep, hrun⟩ := Option.bind_eq_some_iff.mp hrun
    obtain ⟨⟨q', rest⟩, hrest, heq⟩ := Option.map_eq_some_iff.mp hrun
    cases heq
    obtain ⟨hnext, ⟨rfl, d, hd⟩ | ⟨client, e, rfl, hclient⟩⟩ := h.step hstep
    · have hstill : ∀ client, held client → p'.service.HeldUp client := by
        intro client hclient
        rw [hd]
        exact (hheld client hclient).later d
      obtain ⟨rfl, e, he⟩ := ih hnext hstill hrest fun client result hclient hmem =>
        hunread client result hclient (List.mem_cons_of_mem _ hmem)
      exact ⟨rfl, d + e, by rw [he, hd, Service.later_later]⟩
    · obtain ⟨turn, hturn, -⟩ := step_service hstep
      obtain ⟨result, rfl⟩ := (hheld client hclient).write_of_step hturn
      exact absurd List.mem_cons_self (hunread client result hclient)

end IsOverBut

/-- What is left of a proxy that was closed, after a list of events with these effects. -/
structure Silent (made : Proxy) (events : List Event) (effects : List Effect) (p : Proxy) :
    Prop where
  closed : p.isClosed = true
  unbound : p.isBound = false
  idle : p.service.isLooping = false
  /-- what lives is a relay whose client does not read the reply that it writes -/
  lives_iff : ∀ task, p.service.lives task = true ↔ p.service.HeldUp task
  flows : ∀ r, p.service = .datagram r → r.table = [] ∧ ∀ socket, r.isOpen socket = false
  released : ∀ client < p.service.accepted,
    effects.count (.release client) = if p.service.lives client then 0 else 1
  dismissed : ∀ s, p.service = .stream s → s.relays = [] ∧ ∃ past, History .stream made past p s ∧
    past.map (·.event) = events ∧ past.flatMap (·.effects) = effects ∧ Dismissed made past
  /-- until such a client reads or breaks off, nothing happens any more -/
  nothing_later : ∀ more q late, p.runAll more = some (q, late) →
    (∀ client result, p.service.HeldUp client →
      .service (.framed (.relay client (.write result))) ∉ more) →
    late = [] ∧ q.isBound = false ∧ ∃ d, q.service = p.service.later d
  /-- and whatever happens is done by the relay of such a client -/
  held_up_only : ∀ more q late event q' shown, p.runAll more = some (q, late) →
    q.step event = some (q', shown) → shown ≠ [] →
    ∃ client e, event = .service (.framed (.relay client e)) ∧ p.service.HeldUp client

section Cause

variable (hgoverned : Governed events p)
variable (hcause : .close ∈ events ∨ ∃ event e, .service event ∈ events ∧ event.failure? = some e)
include hgoverned hcause

theorem isClosed_or_leaving : p.isClosed = true ∨ ∃ e, p.service.leaving? = some (.failed e) := by
  rcases hcause with hclose | ⟨event, e, hmem, he⟩
  · exact .inl (hgoverned.closed_iff.mpr (.inl hclose))
  · exact (hgoverned.noticed event e hmem he).imp_right fun hleaving => ⟨e, hleaving⟩

theorem isClosed_of_quiet (hquiet : p.IsQuiet) : p.isClosed = true := by
  rcases isClosed_or_leaving hgoverned hcause with hclosed | ⟨e, hleaving⟩
  · exact hclosed
  · have hlooping := Service.isLooping_of_leaving hleaving
    cases (hquiet.of_looping hlooping).2.symm.trans hleaving

end Cause

theorem isOpen_of_isOverBut {r : DatagramRelay} (h : (Service.datagram r).IsOverBut held)
    (socket : Nat) : r.isOpen socket = false := by
  obtain ⟨hidle, htable, htasks⟩ := h
  have hloop : r.loop.socket? = none := by
    cases hphase : r.loop with
    | sending => simp [hphase, LoopPhase.isAtWork] at hidle
    | _ => rfl
  simp [DatagramRelay.isOpen, htable, htasks, hloop, FlowTable.sockets]

theorem IsOverBut.silent (h : p.IsOverBut p.service.HeldUp)
    (hreleased : ∀ client < p.service.accepted,
      effects.count (.release client) = if p.service.lives client then 0 else 1)
    (hdismissed : ∀ s, p.service = .stream s → ∃ past, History .stream made past p s ∧
      past.map (·.event) = events ∧ past.flatMap (·.effects) = effects ∧ Dismissed made past) :
    Silent made events effects p := by
  constructor
  case closed => exact h.closed
  case unbound => exact h.unbound
  case idle => exact h.service.not_looping
  case lives_iff => exact fun task => ⟨h.service.of_lives, Service.HeldUp.lives⟩
  case flows =>
    intro r hr
    have hservice := h.service
    rw [hr] at hservice
    exact ⟨hservice.2.1, isOpen_of_isOverBut hservice⟩
  case released => exact hreleased
  case dismissed =>
    intro s hs
    have hservice := h.service
    rw [hs] at hservice
    exact ⟨hservice.2, hdismissed s hs⟩
  case nothing_later =>
    intro more q late hrun hunread
    obtain ⟨hlate, hlater⟩ := h.runAll_unread (fun _ => id) hrun hunread
    exact ⟨hlate, (h.runAll hrun).unbound, hlater⟩
  case held_up_only =>
    intro more q late event q' shown hrun hstep hshown
    obtain ⟨-, ⟨hnone, -⟩ | hheld⟩ := (h.runAll hrun).step hstep
    · exact absurd hnone hshown
    · exact hheld

section Kinds

variable {frontend : Address} (hclosed : p.isClosed = true) (hempty : p.gate.slot = none)
include hclosed hempty

theorem silent_of_stream {backend : StreamBackend} {past : List (Moment StreamService)}
    {s : StreamService}
    (h : History .stream (bound frontend (.stream (.idle backend))) past p s)
    (hquiet : (Service.stream s).IsQuiet true) :
    Silent (bound frontend (.stream (.idle backend))) (past.map (·.event))
      (past.flatMap (·.effects)) p := by
  have hgone := (StreamService.hasOneEach_of_history h).relays_eq_nil_of_quiet hquiet
  refine IsOverBut.silent ⟨hclosed, hempty, ?_⟩ ?_ ?_
  · rw [h.service_eq]
    exact ⟨hquiet.not_looping, hgone⟩
  · intro client hlt
    rw [h.service_eq] at hlt ⊢
    rw [(StreamService.connected_of_history h).count_release hgone hlt]
    simp [Service.lives, StreamService.relay?, hgone]
  · intro s' hs'
    cases hs'.symm.trans h.service_eq
    exact ⟨past, h, rfl, rfl, StreamService.dismissed_of_quiet h hgone⟩

theorem silent_of_framed {backend : SocketAddress} {past : List (Moment FramedService)}
    {s : FramedService}
    (h : History .framed (bound frontend (.framed (.idle backend))) past p s)
    (hquiet : (Service.framed s).IsQuiet true) :
    Silent (bound frontend (.framed (.idle backend))) (past.map (·.event))
      (past.flatMap (·.effects)) p := by
  have hone := FramedService.hasOneEach_of_history h
  refine IsOverBut.silent ⟨hclosed, hempty, ?_⟩ ?_ ?_
  · rw [h.service_eq]
    exact .of_writing hone hquiet.not_looping (hone.writing_of_quiet hquiet)
  · intro client hlt
    rw [h.service_eq] at hlt ⊢
    exact (FramedService.connected_of_history h).count_release hlt
  · intro s' hs'
    cases hs'.symm.trans h.service_eq

/-- A quiet relay of a closed proxy has no flows: its loop has ended all of them. -/
theorem silent_of_datagram {backend : SocketAddress} {level : Level} {timeout : Nat}
    {past : List (Moment DatagramRelay)} {r : DatagramRelay}
    (h : History .datagram (.ofDatagrams frontend backend level timeout) past p r)
    (hquiet : r.IsQuiet true) :
    Silent (.ofDatagrams frontend backend level timeout) (past.map (·.event))
      (past.flatMap (·.effects)) p := by
  obtain ⟨htracks, -⟩ := DatagramRelay.tracks_of_history h
  have hties : r.loop.isAtWork = false ∧ r.table.ties = [] := by
    rcases hquiet.loop_eq with hloop | hloop | ⟨-, hopen, -⟩
    · rw [hloop]
      exact ⟨rfl, (htracks.empty_of_idle hloop).1⟩
    · rw [hloop]
      exact ⟨rfl, htracks.empty_of_ended hloop⟩
    · cases hopen
  refine IsOverBut.silent ⟨hclosed, hempty, ?_⟩ ?_ ?_
  · rw [h.service_eq]
    exact ⟨hties.1, List.map_eq_nil_iff.mp hties.2, Service.tasks_eq_nil_of_quiet hquiet⟩
  · intro client hlt
    rw [h.service_eq] at hlt
    cases hlt
  · intro s hs
    cases hs.symm.trans h.service_eq

end Kinds

section Settling

variable {frontend : Address}

/-- Where every step that is left brings the end nearer, the end is reached. -/
theorem settles_of_step {σ : Type} {service : σ → Service} (kind : Service.IsKind service)
    {past : List (Moment σ)} {s : σ}
    (hgoes : ∀ {past p s}, History service made past p s →
      ¬ (service s).IsOverBut (service s).HeldUp →
      ∃ event turn, event.isOwn ∧ (service s).step true event = some turn ∧
        turn.next.stepsLeft < (service s).stepsLeft)
    (h : History service made past p s) (hclosed : p.isClosed = true) : p.Settles := by
  induction hleft : (service s).stepsLeft using Nat.strongRecOn generalizing past p s with
  | ind n ih =>
    by_cases hover : (service s).IsOverBut (service s).HeldUp
    · refine ⟨[], p, [], nofun, rfl, ?_⟩
      rw [IsQuiet, h.service_eq]
      exact hover.isQuiet
    obtain ⟨event, turn, hown, hturn, hlt⟩ := hgoes h hover
    rw [← h.service_eq, ← hclosed] at hturn
    obtain ⟨p', first, hstep, hnext⟩ := exists_step hturn
    obtain ⟨s', hs'⟩ := step_keeps_kind kind h.service_eq hstep
    have hless : (service s').stepsLeft < n := by
      rw [← hs', hnext, ← hleft]
      exact hlt
    obtain ⟨own, q, late, hevents, hrun, hquiet⟩ :=
      ih _ hless (h.snoc hstep hs') (isClosed_of_step hstep hclosed) rfl
    refine ⟨event :: own, q, first ++ late, ?_, runAll_cons hstep hrun, hquiet⟩
    intro e he
    rcases List.mem_cons.mp he with rfl | he
    · exact hown
    · exact hevents e he

theorem settles_of_stream {backend : StreamBackend} {past : List (Moment StreamService)}
    {s : StreamService} (h : History .stream (bound frontend (.stream (.idle backend))) past p s)
    (hclosed : p.isClosed = true) : p.Settles := by
  refine settles_of_step Service.isKind_stream ?_ h hclosed
  intro past p s hist hnot
  obtain ⟨event, turn, hown, hstep, hlt⟩ :=
    (StreamService.hasOneEach_of_history hist).exists_step_of_closed hnot
  exact ⟨.stream event, _, hown, Option.map_eq_some_iff.mpr ⟨turn, hstep, rfl⟩, hlt⟩

theorem settles_of_framed {backend : SocketAddress} {past : List (Moment FramedService)}
    {s : FramedService} (h : History .framed (bound frontend (.framed (.idle backend))) past p s)
    (hclosed : p.isClosed = true) : p.Settles := by
  refine settles_of_step Service.isKind_framed ?_ h hclosed
  intro past p s hist hnot
  have hone := FramedService.hasOneEach_of_history hist
  obtain ⟨event, turn, hown, hstep, hlt⟩ := hone.exists_step_of_closed fun hleft =>
    hnot (.of_writing hone hleft.1 hleft.2)
  exact ⟨.framed event, _, hown, Option.map_eq_some_iff.mpr ⟨turn, hstep, rfl⟩, hlt⟩

end Settling

/-- A proxy of any kind that was closed, before, during or without a run, or whose listener has
failed, can come to rest on its own; and once it has nothing left to do it is silent, until a client
reads that had a reply under way. -/
theorem silent_of_runAll (hnew : made.IsNew) (h : made.runAll events = some (p, effects))
    (hcause : .close ∈ events ∨ ∃ event e, .service event ∈ events ∧ event.failure? = some e) :
    p.Settles ∧ (p.IsQuiet → Silent made events effects p) := by
  obtain ⟨frontend, service, rfl, hfresh⟩ := hnew
  have hgoverned := governed_of_runAll hfresh h
  have hrest : p.IsQuiet → p.isClosed = true ∧ p.gate.slot = none ∧ p.service.IsQuiet true := by
    intro hquiet
    have hclosed := isClosed_of_quiet hgoverned hcause hquiet
    rw [IsQuiet, hclosed] at hquiet
    exact ⟨hclosed, hgoverned.slot_eq_none (.inr hclosed), hquiet⟩
  have hclosed := isClosed_or_leaving hgoverned hcause
  cases hfresh with
  | stream backend =>
    obtain ⟨past, s, hist, rfl, rfl⟩ := exists_history Service.isKind_stream rfl h
    rw [hist.service_eq] at hrest hclosed
    refine ⟨settles_of_stream hist (hclosed.resolve_right (by simp [Service.leaving?])), ?_⟩
    intro hquiet
    obtain ⟨hclosed, hempty, hquiet⟩ := hrest hquiet
    exact silent_of_stream hclosed hempty hist hquiet
  | framed backend =>
    obtain ⟨past, s, hist, rfl, rfl⟩ := exists_history Service.isKind_framed rfl h
    rw [hist.service_eq] at hrest hclosed
    refine ⟨settles_of_framed hist (hclosed.resolve_right (by simp [Service.leaving?])), ?_⟩
    intro hquiet
    obtain ⟨hclosed, hempty, hquiet⟩ := hrest hquiet
    exact silent_of_framed hclosed hempty hist hquiet
  | datagram backend level timeout =>
    obtain ⟨past, r, hist, rfl, rfl⟩ := exists_history Service.isKind_datagram rfl h
    rw [hist.service_eq] at hrest
    refine ⟨settles_of_datagram hist, ?_⟩
    intro hquiet
    obtain ⟨hclosed, hempty, hquiet⟩ := hrest hquiet
    exact silent_of_datagram hclosed hempty hist (Service.isQuiet_datagram.mp hquiet)

/-- The listener of a proxy that the factory has made fails while one relay has bytes in hand and the
other is dialing. -/
theorem silent_after_failure :
    let frontend : Address := .stream (.v4 .loopback 80)
    let backend : StreamBackend := .ip (.v4 .loopback 8080)
    let first : Address := .stream (.v4 .loopback 5001)
    let second : Address := .stream (.v4 .loopback 5002)
    let cause : IoError := .os 24
    let ofRelay := fun (client : Nat) (events : List StreamRelay.Event) =>
      events.map fun event => Event.service (.stream (.relay client event))
    let events : List Event :=
      [.run, .service (.stream (.accept (.ok first))),
        .service (.stream (.accept (.ok second)))] ++
      ofRelay 0 [.announce, .dial, .connected (.ok ()), .copy .client (.read (.ok [1, 2]))] ++
      ofRelay 1 [.announce, .dial] ++ [.service (.stream (.accept (.error cause)))] ++
      ofRelay 1 [.drop] ++ [.run] ++ ofRelay 0 [.drop]
    let effects : List Effect :=
      [.log (.streamRunning frontend backend.address), .log (.clientAccepted first), .dial 0,
        .log (.clientAccepted second), .dial 1, .log (.streamStopped frontend),
        .log (.clientDropped second), .release 1, .log (.clientDropped first), .release 0]
    let made := bound frontend (.stream (.idle backend))
    let p : Proxy :=
      ⟨frontend, ⟨none, true⟩, [.failed (.io cause), .failed .closed],
        .stream ⟨backend, false, 2, []⟩⟩
    (make (.system .info) .info frontend backend.address (.fresh .isolated [])).1 = .ok made ∧
      made.runAll events = some (p, effects) ∧ p.IsQuiet ∧ Silent made events effects p := by
  intro frontend backend first second cause ofRelay events effects made p
  have hmade : (make (.system .info) .info frontend backend.address (.fresh .isolated [])).1 =
      .ok made := rfl
  have hrun : made.runAll events = some (p, effects) := by decide +kernel
  have hover : p.service.IsOverBut p.service.HeldUp := ⟨rfl, rfl⟩
  have hfailed : .service (.stream (.accept (.error cause))) ∈ events := by simp [events]
  obtain ⟨-, hsilent⟩ := silent_of_runAll (isNew_of_ofRoute (Prod.ext hmade rfl)) hrun
    (.inr ⟨_, cause, hfailed, rfl⟩)
  exact ⟨hmade, hrun, hover.isQuiet, hsilent hover.isQuiet⟩

/-- A closed proxy has nothing left to do, and its relay lives with a reply in its hands. When its
client reads, the proxy sends once more. -/
theorem sends_once_read :
    let frontend : Address := .vsock ⟨.any, 53⟩
    let backend : SocketAddress := .v4 .loopback 53
    let peer : Address := .vsock ⟨.id 3, 1024⟩
    let events : List Event :=
      [.run, .service (.framed (.accept (.ok peer)))] ++
      ofConnection 0 [.announce, .opened (.ok ()), .read (.ok [1, 0, 97]), .decode, .send (.ok ()),
        .receive (.ok [98])] ++ [.close, .service (.framed .stop)]
    let p : Proxy :=
      ⟨frontend, ⟨none, true⟩, [.stopped],
        .framed ⟨backend, false, 1, 1, [⟨0, peer, .writing 0 [1, 0, 98], .empty, true, false⟩]⟩⟩
    ((bound frontend (.framed (.idle backend))).runAll events).map Prod.fst = some p ∧
      .close ∈ events ∧ p.IsQuiet ∧ p.service.lives 0 = true ∧
      (p.step (.service (.framed (.relay 0 (.write (.ok 3)))))).map Prod.snd =
        some [.deliver 0 .client [1, 0, 98]] := by
  intro frontend backend peer events p
  have hover : p.service.IsOverBut p.service.HeldUp := by
    refine ⟨rfl, fun r hr => ?_⟩
    cases List.mem_singleton.mp hr
    exact ⟨_, _, 0, [1, 0, 98], rfl, rfl, rfl⟩
  exact ⟨by decide +kernel, by simp [events], hover.isQuiet, rfl, rfl⟩

end Proxy

end PortForward

import PortForward.Construction
import PortForward.Proofs.Datagram.Passage
import PortForward.Proofs.Datagram.Quiet
import PortForward.Proofs.Framed.Passage
import PortForward.Proofs.Stream.Passage

/-!
# The loop of a service

Every service listens in a loop of its own kind. To their proxy these loops are alike: a loop
is at work from the start of a run until that run returns, and it ends because the proxy is
closed or because the listener has failed. The loop of a datagram proxy first leaves and then
tells so in a step of its own; the others do both at once.
-/

namespace PortForward

def LoopPhase.isAtWork : LoopPhase → Bool
  | idle | ended => false
  | _ => true

def LoopPhase.leaving? : LoopPhase → Option LoopEnd
  | draining loopEnd => some loopEnd
  | _ => none

namespace Service

/-- A service as a proxy is made with it. -/
inductive IsFresh : Service → Prop
  | stream (backend : StreamBackend) : IsFresh (.stream (.idle backend))
  | framed (backend : SocketAddress) : IsFresh (.framed (.idle backend))
  | datagram (backend : SocketAddress) (level : Level) (timeout : Nat) :
      IsFresh (.datagram (.fresh backend level timeout))

theorem isFresh_of_route (route : Route) (level : Level) : (route.service level).IsFresh := by
  cases route with
  | datagram => exact .datagram _ _ _
  | stream | vsockStream => exact .stream _
  | vsockDatagram => exact .framed _

/-- The task of this number lives: the relay of a client, or the replies on a socket. -/
def lives (task : Nat) : Service → Bool
  | stream s => (s.relay? task).isSome
  | framed s => (s.relay? task).isSome
  | datagram r => (r.task? task).isSome

/-- The task is a framed relay that has bytes of a reply left to write to its client. -/
def HeldUp (task : Nat) (s : Service) : Prop :=
  ∃ f r socket rest, s = .framed f ∧ f.relay? task = some r ∧ r.phase = .writing socket rest

namespace Event

/-- The failure of a listener. -/
def failure? : Event → Option IoError
  | .stream (.accept (.error e)) | .framed (.accept (.error e)) | .datagram (.receive (.error e)) =>
    some e
  | _ => none

/-- The step waits for nobody: not for a client, not for the backend, not for time to pass. A write
on a stream may have to wait until whoever is at its other end reads. Calls that dial, or that send
a datagram, are taken to return, for good or ill. -/
def isOwn : Event → Bool
  | .stream (.accept _) | .stream (.relay _ (.copy _ (.read _)))
  | .stream (.relay _ (.copy _ (.write _))) => false
  | .framed (.accept _) | .framed (.relay _ (.read _)) | .framed (.relay _ (.receive _))
  | .framed (.relay _ (.write _)) => false
  | .datagram event => event.isOwn
  | _ => true

end Event

/-- The service has nothing left to do. -/
def IsQuiet (closed : Bool) (s : Service) : Prop :=
  ∀ event : Event, event.isOwn → s.step closed event = none

def isLooping : Service → Bool
  | stream s => s.accepting
  | framed s => s.accepting
  | datagram r => r.loop.isAtWork

/-- How the loop ends that has left and not yet told so. -/
def leaving? : Service → Option LoopEnd
  | datagram r => r.loop.leaving?
  | _ => none

theorem isLooping_of_leaving {s : Service} {loopEnd : LoopEnd} (h : s.leaving? = some loopEnd) :
    s.isLooping = true := by
  cases s with
  | datagram r =>
    cases hloop : r.loop with
    | draining => simp [isLooping, hloop, LoopPhase.isAtWork]
    | _ => simp [leaving?, hloop, LoopPhase.leaving?] at h
  | _ => cases h

/-- Why a loop ends at an event. -/
inductive Ends (closed : Bool) (event : Event) : LoopEnd → Prop
  | closed : closed = true → event.failure? = none → Ends closed event .closed
  | failed {e} : event.failure? = some e → Ends closed event (.failed e)

/-- What a step of a service does to its loop. -/
inductive LoopStep (closed : Bool) (s : Service) (event : Event) (turn : Turn Service) : Prop
  | kept : event.failure? = none → turn.loopEnd = none → turn.next.isLooping = s.isLooping →
      turn.next.leaving? = s.leaving? → LoopStep closed s event turn
  | left {loopEnd} : Ends closed event loopEnd → s.isLooping = true → s.leaving? = none →
      turn.loopEnd = none → turn.next.isLooping = true → turn.next.leaving? = some loopEnd →
      LoopStep closed s event turn
  | told {loopEnd} : event.failure? = none → s.isLooping = true → s.leaving? = some loopEnd →
      turn.loopEnd = some loopEnd → turn.next.isLooping = false → turn.next.leaving? = none →
      LoopStep closed s event turn
  | ended {loopEnd} : Ends closed event loopEnd → s.isLooping = true → s.leaving? = none →
      turn.loopEnd = some loopEnd → turn.next.isLooping = false → turn.next.leaving? = none →
      LoopStep closed s event turn

variable {closed : Bool} {s : Service} {event : Event} {turn : Turn Service}

theorem loopStep_stream {s : StreamService} {event : StreamService.Event}
    {turn : Turn StreamService} (h : StreamService.Transition closed s event turn) :
    LoopStep closed (.stream s) (.stream event)
      ⟨.stream turn.next, turn.effects, turn.loopEnd⟩ := by
  cases h with
  | accepted | moved => exact .kept rfl rfl rfl rfl
  | failed haccepting => exact .ended (.failed rfl) haccepting rfl rfl rfl rfl
  | stopped haccepting hclosed => exact .ended (.closed hclosed rfl) haccepting rfl rfl rfl rfl

theorem loopStep_framed {s : FramedService} {event : FramedService.Event}
    {turn : Turn FramedService} (h : FramedService.Transition closed s event turn) :
    LoopStep closed (.framed s) (.framed event)
      ⟨.framed turn.next, turn.effects, turn.loopEnd⟩ := by
  cases h with
  | accepted => exact .kept rfl rfl rfl rfl
  | moved => exact .kept rfl rfl (FramedService.accepting_countOpened _) rfl
  | failed haccepting => exact .ended (.failed rfl) haccepting rfl rfl rfl rfl
  | stopped haccepting hclosed => exact .ended (.closed hclosed rfl) haccepting rfl rfl rfl rfl

theorem loopStep_datagram {r : DatagramRelay} {event : DatagramRelay.Event}
    {turn : Turn DatagramRelay} (h : DatagramRelay.Transition closed r event turn) :
    LoopStep closed (.datagram r) (.datagram event)
      ⟨.datagram turn.next, turn.effects, turn.loopEnd⟩ := by
  have hwaiting : r.loop = .waiting → r.loop.isAtWork = true ∧ r.loop.leaving? = none := by
    intro hloop
    rw [hloop]
    exact ⟨rfl, rfl⟩
  cases h with
  | receiveFailed hloop =>
    exact .left (.failed rfl) (hwaiting hloop).1 (hwaiting hloop).2 rfl rfl rfl
  | stopped hloop hclosed =>
    exact .left (.closed hclosed rfl) (hwaiting hloop).1 (hwaiting hloop).2 rfl rfl rfl
  | drained hloop =>
    refine .told rfl ?_ ?_ rfl rfl rfl
    · rw [isLooping, hloop]
      rfl
    · rw [leaving?, hloop]
      rfl
  | advance | sweep | replyReceived | replyRefused | replyBroken | refreshed | replied | replyFailed
  | forgot | replyStopped => exact .kept rfl rfl rfl rfl
  | received hloop | found _ hloop | unopened hloop | unnamed hloop | opened hloop | sent hloop
  | refusedOnce hloop | sendFailed hloop =>
    refine .kept rfl rfl ?_ ?_
    · rw [isLooping, isLooping, hloop]
      rfl
    · rw [leaving?, leaving?, hloop]
      rfl

theorem loopStep_of_step (h : s.step closed event = some turn) : LoopStep closed s event turn := by
  cases s with
  | stream =>
    obtain ⟨e, t, rfl, ht, rfl⟩ := exists_stream_step h
    exact loopStep_stream (StreamService.transition_of_step ht)
  | framed =>
    obtain ⟨e, t, rfl, ht, rfl⟩ := exists_framed_step h
    exact loopStep_framed (FramedService.transition_of_step ht)
  | datagram =>
    obtain ⟨e, t, rfl, ht, rfl⟩ := exists_datagram_step h
    exact loopStep_datagram (DatagramRelay.transition_of_step ht)

section Quiet

theorem isQuiet_datagram {r : DatagramRelay} :
    (datagram r).IsQuiet closed ↔ r.IsQuiet closed := by
  constructor
  · intro h event hown
    exact Option.map_eq_none_iff.mp (h (.datagram event) hown)
  · intro h event hown
    cases event with
    | datagram event => exact Option.map_eq_none_iff.mpr (h event hown)
    | _ => rfl

/-- A quiet loop that is at work waits, and its proxy is not closed. -/
theorem IsQuiet.of_looping (h : s.IsQuiet closed) (hlooping : s.isLooping = true) :
    closed = false ∧ s.leaving? = none := by
  cases s with
  | stream s =>
    have hstop := h (.stream .stop) rfl
    have haccepting : s.accepting = true := hlooping
    refine ⟨?_, rfl⟩
    simpa [step, StreamService.step, haccepting] using hstop
  | framed s =>
    have hstop := h (.framed .stop) rfl
    have haccepting : s.accepting = true := hlooping
    refine ⟨?_, rfl⟩
    simpa [step, FramedService.step, haccepting] using hstop
  | datagram r =>
    rcases (isQuiet_datagram.mp h).loop_eq with hloop | hloop | ⟨hloop, hopen, -⟩
    · simp [isLooping, hloop, LoopPhase.isAtWork] at hlooping
    · simp [isLooping, hloop, LoopPhase.isAtWork] at hlooping
    · refine ⟨hopen, ?_⟩
      rw [leaving?, hloop]
      rfl

theorem IsQuiet.not_looping (h : s.IsQuiet true) : s.isLooping = false := by
  rw [Bool.eq_false_iff]
  intro hlooping
  cases (h.of_looping hlooping).1

/-- A quiet relay of a closed proxy has no tasks: each of them would have ended. -/
theorem tasks_eq_nil_of_quiet {r : DatagramRelay} (h : r.IsQuiet true) : r.tasks = [] := by
  apply List.eq_nil_iff_forall_not_mem.mpr
  intro t ht
  cases htask : r.task? t.socket with
  | none => simpa using List.find?_eq_none.mp htask t ht
  | some t' => cases (h.task_eq htask).2.2

theorem IsQuiet.not_holding (h : s.IsQuiet true) : s.holdsFrontend = false := by
  have hidle := h.not_looping
  cases s with
  | stream | framed => exact hidle
  | datagram r =>
    have htasks := tasks_eq_nil_of_quiet (isQuiet_datagram.mp h)
    have hloop : r.loop.isAtWork = false := hidle
    rw [holdsFrontend, DatagramRelay.holdsFrontend, htasks]
    cases hphase : r.loop with
    | idle | ended => rfl
    | _ => simp [hphase, LoopPhase.isAtWork] at hloop

end Quiet

end Service

namespace Proxy

/-- A proxy as the factories make it, before anything is done with it. -/
def IsNew (p : Proxy) : Prop := ∃ frontend service, p = bound frontend service ∧ service.IsFresh

variable {σ : Type} {b : Binder σ} {level : Level} {s s' : σ} {p : Proxy}

theorem isNew_of_ofRoute {route : Except Failure Route}
    (h : ofRoute route b level s = (.ok p, s')) : p.IsNew := by
  cases route with
  | error e => cases h
  | ok route =>
    simp only [ofRoute, Route.build] at h
    split at h
    · cases h
    · cases h
      exact ⟨_, _, rfl, Service.isFresh_of_route route level⟩

theorem IsNew.withTimeout (h : p.IsNew) (timeout : Nat) : (p.withTimeout timeout).IsNew := by
  obtain ⟨frontend, service, rfl, hfresh⟩ := h
  cases hfresh with
  | stream backend => exact ⟨frontend, _, rfl, .stream backend⟩
  | framed backend => exact ⟨frontend, _, rfl, .framed backend⟩
  | datagram backend level => exact ⟨frontend, _, rfl, .datagram backend level timeout⟩

end Proxy

end PortForward

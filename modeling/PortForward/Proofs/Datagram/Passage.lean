import PortForward.Proofs.Datagram.Transition
import PortForward.Proofs.History

/-!
# Passages of a datagram proxy

Everything that a step of a datagram proxy does to its relay. A relay is started once at
most, since the slot of the gate is full only before that, and its loop ends only together
with the gate: whoever finds it ended finds the proxy closed.

What holds before the first step and outlives every passage holds in all runs.
-/

namespace PortForward

namespace DatagramRelay

def fresh (backend : SocketAddress) (level : Level) (timeout : Nat) : DatagramRelay :=
  { idle backend level with timeout }

/-- What a step of the proxy does to its relay and to whether the proxy is closed. -/
inductive Passage (r : DatagramRelay) (closed : Bool) :
    Proxy.Event → List Effect → Bool → DatagramRelay → Prop
  | refused : Passage r closed .run [] closed r
  | started {frontend} : r.loop = .idle → closed = false →
      Passage r closed .run [.log (.datagramRunning frontend (.datagram r.backend))] closed r.start
  | closed : Passage r closed .close [] true r
  | moved {event turn} : Transition closed r event turn → turn.loopEnd = none →
      Passage r closed (.service (.datagram event)) turn.effects closed turn.next
  | finished {event turn frontend} : Transition closed r event turn → turn.loopEnd.isSome →
      Passage r closed (.service (.datagram event))
        (turn.effects ++ [.log (.datagramStopped frontend)]) true turn.next

theorem Passage.backend_eq {r r' : DatagramRelay} {closed closed' : Bool} {event : Proxy.Event}
    {effects : List Effect} (h : Passage r closed event effects closed' r') :
    r'.backend = r.backend := by
  cases h with
  | refused | started | closed => rfl
  | moved ht | finished ht => cases ht <;> rfl

end DatagramRelay

open DatagramRelay

def ofRelay (events : List DatagramRelay.Event) : List Proxy.Event :=
  events.map fun event => .service (.datagram event)

namespace Proxy

def ofDatagrams (frontend : Address) (backend : SocketAddress) (level : Level) (timeout : Nat) :
    Proxy :=
  (bound frontend (.datagram (.idle backend level))).withTimeout timeout

/-- How the gate and the runs of a datagram proxy go with the phase of its loop. -/
structure InPhase (p : Proxy) (r : DatagramRelay) : Prop where
  idle_of_full : p.gate.slot.isSome → r.loop = .idle
  closed_of_stopping : r.loop = .draining .closed → p.isClosed
  closed_of_ended : r.loop = .ended → p.isClosed
  running_iff : .running ∈ p.runs ↔ r.loop ≠ .idle ∧ r.loop ≠ .ended

variable {frontend : Address} {backend : SocketAddress} {level : Level} {timeout : Nat}
variable {p q : Proxy} {r r' : DatagramRelay} {event : Event} {effects : List Effect}

theorem inPhase_fresh :
    (ofDatagrams frontend backend level timeout).InPhase (.fresh backend level timeout) where
  idle_of_full _ := rfl
  closed_of_stopping h := by cases h
  closed_of_ended h := by cases h
  running_iff := by simp [ofDatagrams, withTimeout, bound, fresh, idle]

theorem passage_of_run (hphase : p.InPhase r) (hr : p.service = .datagram r)
    (hstep : p.step .run = some (q, effects)) (hr' : q.service = .datagram r') :
    Passage r p.isClosed .run effects q.isClosed r' ∧ q.InPhase r' := by
  have hrun : p.run = (q, effects) := Option.some.inj hstep
  rcases p.run_cases with ⟨hopen, hfull, heq⟩ | ⟨e, heq⟩
  · obtain ⟨rfl, rfl⟩ := Prod.mk.inj (heq.symm.trans hrun)
    have hidle : r.loop = .idle := hphase.idle_of_full (by rw [hfull]; rfl)
    rw [hr] at hr' ⊢
    cases hr'
    refine ⟨.started hidle hopen, ?_⟩
    constructor <;> simp [Gate.emptySlot, DatagramRelay.start]
  · obtain ⟨rfl, rfl⟩ := Prod.mk.inj (heq.symm.trans hrun)
    cases hr.symm.trans hr'
    refine ⟨.refused, ?_, hphase.closed_of_stopping, hphase.closed_of_ended, ?_⟩
    · simp [Gate.emptySlot]
    · simpa using hphase.running_iff

theorem passage_of_close (hphase : p.InPhase r) (hr : p.service = .datagram r)
    (hstep : p.step .close = some (q, effects)) (hr' : q.service = .datagram r') :
    Passage r p.isClosed .close effects q.isClosed r' ∧ q.InPhase r' := by
  cases hstep
  cases hr.symm.trans hr'
  refine ⟨.closed, ?_, fun _ => rfl, fun _ => rfl, hphase.running_iff⟩
  simp [Proxy.close, Gate.close, Gate.emptySlot]

theorem inPhase_of_moved {e : DatagramRelay.Event} {turn : Turn DatagramRelay}
    (hphase : p.InPhase r) (ht : Transition p.isClosed r e turn) (hend : turn.loopEnd = none) :
    ({ p with service := .datagram turn.next } : Proxy).InPhase turn.next := by
  rcases ht.loop_eq_or hend with hloop | ⟨hbefore, hafter, hstop⟩
  · obtain ⟨hfull, hstop, hended, hrun⟩ := hphase
    rw [← hloop] at hfull hstop hended hrun
    exact ⟨hfull, hstop, hended, hrun⟩
  · refine ⟨?_, hstop, fun h => absurd h hafter.2, ?_⟩
    · intro hfull
      exact absurd (hphase.idle_of_full hfull) hbefore.1
    · exact hphase.running_iff.trans (iff_of_true hbefore hafter)

theorem inPhase_of_finished {e : DatagramRelay.Event} {turn : Turn DatagramRelay}
    {loopEnd : LoopEnd} (hphase : p.InPhase r) (ht : Transition p.isClosed r e turn)
    (hend : turn.loopEnd = some loopEnd) :
    let q := ({ p with service := .datagram turn.next }.finish loopEnd).1
    q.isClosed = true ∧ q.InPhase turn.next := by
  obtain ⟨hbefore, hafter⟩ := ht.loop_of_end hend
  have hclosed : ({ p with service := .datagram turn.next }.finish loopEnd).1.isClosed = true := by
    cases loopEnd with
    | closed => exact hphase.closed_of_stopping hbefore
    | failed e => rfl
  refine ⟨hclosed, ?_, fun _ => hclosed, fun _ => hclosed, ?_⟩
  · intro hfull
    have hslot : p.gate.slot.isSome := by
      cases loopEnd with
      | closed => exact hfull
      | failed e => simp [finish, LoopEnd.result, Gate.finish, Gate.close, Gate.emptySlot] at hfull
    have hidle := hphase.idle_of_full hslot
    rw [hbefore] at hidle
    cases hidle
  · have hresult : Run.ofResult loopEnd.result ≠ .running := by
      cases loopEnd <;> simp [LoopEnd.result, Run.ofResult]
    simp only [hafter, finish, List.mem_map]
    constructor
    · rintro ⟨run, -, hrun⟩
      split at hrun
      · exact absurd hrun hresult
      · exact absurd hrun ‹_›
    · exact fun h => absurd rfl h.2

theorem passage_of_step (hphase : p.InPhase r) (hr : p.service = .datagram r)
    (hstep : p.step event = some (q, effects)) (hr' : q.service = .datagram r') :
    Passage r p.isClosed event effects q.isClosed r' ∧ q.InPhase r' := by
  cases event with
  | run => exact passage_of_run hphase hr hstep hr'
  | close => exact passage_of_close hphase hr hstep hr'
  | service event =>
    obtain ⟨turn, hturn, hq⟩ := step_service hstep
    rw [hr] at hturn
    cases event with
    | datagram e =>
      obtain ⟨t, ht, rfl⟩ := Option.map_eq_some_iff.mp hturn
      have htrans := transition_of_step ht
      rcases hq with ⟨hend, rfl, rfl⟩ | ⟨loopEnd, hend, rfl, rfl⟩
      · cases hr'
        exact ⟨.moved htrans hend, inPhase_of_moved hphase htrans hend⟩
      · cases hr'
        obtain ⟨hclosed, hphase'⟩ := inPhase_of_finished hphase htrans hend
        rw [hclosed]
        exact ⟨.finished htrans (Option.isSome_iff_exists.mpr ⟨loopEnd, hend⟩), hphase'⟩
    | _ => cases hturn

theorem step_of_transition {e : DatagramRelay.Event} {turn : Turn DatagramRelay}
    (hr : p.service = .datagram r) (h : Transition p.isClosed r e turn)
    (hend : turn.loopEnd = none) :
    p.step (.service (.datagram e)) =
      some ({ p with service := .datagram turn.next }, turn.effects) := by
  simp only [step, hr, Service.step, DatagramRelay.step_of_transition h, Option.map_some, hend]

end Proxy

/-- What holds of a relay at first and is kept by every passage holds from then on. -/
theorem History.passage_induction {start p : Proxy} {r₀ r : DatagramRelay}
    {motive : List (Moment DatagramRelay) → Bool → DatagramRelay → Prop}
    (hphase : start.InPhase r₀) (hr₀ : start.service = .datagram r₀)
    (init : motive [] start.isClosed r₀)
    (passage : ∀ {past closed r event effects closed' r'}, motive past closed r →
      Passage r closed event effects closed' r' →
      motive (past ++ [⟨closed, r, event, effects, r'⟩]) closed' r')
    {past : List (Moment DatagramRelay)} (h : History .datagram start past p r) :
    motive past p.isClosed r ∧ p.InPhase r := by
  induction h with
  | nil hs =>
    cases hr₀.symm.trans hs
    exact ⟨init, hphase⟩
  | snoc hist hstep hs ih =>
    obtain ⟨hpass, hphase⟩ := Proxy.passage_of_step ih.2 hist.service_eq hstep hs
    exact ⟨passage ih.1 hpass, hphase⟩

/-- What holds of a fresh relay and is kept by every passage holds in all runs. -/
theorem History.datagram_induction {frontend : Address} {backend : SocketAddress} {level : Level}
    {timeout : Nat} {motive : List (Moment DatagramRelay) → Bool → DatagramRelay → Prop}
    (fresh : motive [] false (.fresh backend level timeout))
    (passage : ∀ {past closed r event effects closed' r'}, motive past closed r →
      Passage r closed event effects closed' r' →
      motive (past ++ [⟨closed, r, event, effects, r'⟩]) closed' r')
    {past : List (Moment DatagramRelay)} {p : Proxy} {r : DatagramRelay}
    (h : History .datagram (.ofDatagrams frontend backend level timeout) past p r) :
    motive past p.isClosed r ∧ p.InPhase r :=
  h.passage_induction Proxy.inPhase_fresh rfl fresh passage

end PortForward

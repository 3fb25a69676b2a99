import PortForward.Proofs.Stream.Passage

/-!
# A failed client and the others

A relay whose backend cannot be dialed, or one of whose calls fails, is gone with that step.
Everything else is as it was, and goes on as if the failed relay was still there and did nothing.
-/

namespace PortForward

theorem StreamRelay.Transition.of_failure {closed : Bool} {r : StreamRelay} {event : Event}
    {next : Option StreamRelay} {effects : List Effect} {cause : IoError}
    (ht : Transition closed r event next effects) (hfailed : event.failure? = some cause) :
    next = none ∧ effects = [.log (.connectionFailed r.peer cause), .release r.client] := by
  cases ht with
  | failed _ he =>
    cases he.symm.trans hfailed
    exact ⟨rfl, rfl⟩
  | moved _ ht | completed _ ht => cases ht.failure_eq_none.symm.trans hfailed
  | _ => cases hfailed

namespace StreamService

def without (s : StreamService) (client : Nat) : StreamService := s.replace client none

variable {s : StreamService} {client other : Nat} {closed : Bool} {event : Event}

theorem relay?_without (hne : other ≠ client) : (s.without client).relay? other = s.relay? other :=
  relay?_replace_of_ne hne nofun

theorem replace_without {next : Option StreamRelay} (hne : other ≠ client)
    (hnext : ∀ r, next = some r → r.client = other) :
    (s.without client).replace other next = (s.replace other next).without client := by
  simp only [without, replace, List.filterMap_filterMap]
  congr 1
  apply List.filterMap_congr
  intro r _
  by_cases hr : r.client = client
  · simp [hr, Ne.symm hne]
  · by_cases hother : r.client = other
    · cases next with
      | none => simp [hne, hother]
      | some r' => simp [hne, hother, hnext r' rfl]
    · simp [hr, hother]

/-- The step of anyone else is the same without the relay. -/
theorem step_without (hlt : client < s.accepted) (hevent : ∀ e, event ≠ .relay client e) :
    (s.without client).step closed event =
      (s.step closed event).map fun turn => { turn with next := turn.next.without client } := by
  have haccepting : (s.without client).accepting = s.accepting := rfl
  cases event with
  | accept result =>
    cases result with
    | ok peer =>
      have hne : ¬ s.accepted = client := by omega
      simp only [step, haccepting]
      split
      · simp [without, replace, hne, Turn.on]
      · rfl
    | error e =>
      simp only [step, haccepting]
      split <;> rfl
  | stop =>
    simp only [step, haccepting]
    split <;> rfl
  | relay other e =>
    have hne : other ≠ client := by
      rintro rfl
      exact hevent e rfl
    simp only [step, relay?_without hne]
    cases hr : s.relay? other with
    | none => rfl
    | some r =>
      cases hstep : r.step closed e with
      | none => simp [hstep]
      | some answer =>
        obtain ⟨next, effects⟩ := answer
        have hnext : ∀ r', next = some r' → r'.client = other := fun r' hr' =>
          ((StreamRelay.transition_of_step hstep).keeps hr').1.trans (client_of_relay? hr)
        simp [hstep, Turn.on, replace_without hne hnext]

end StreamService

namespace Proxy

open StreamService (Passage)

/-- The proxy without the relay of a client. -/
def without (p : Proxy) (client : Nat) : Proxy :=
  match p.service with
  | .stream s => { p with service := .stream (s.without client) }
  | _ => p

/-- The event is a step of the relay of a client. -/
def Event.isOf (client : Nat) : Event → Bool
  | .service (.stream (.relay i _)) => i = client
  | _ => false

variable {p q : Proxy} {s : StreamService} {client : Nat} {event : Event} {effects : List Effect}

theorem without_of_stream (hs : p.service = .stream s) :
    p.without client = { p with service := .stream (s.without client) } := by
  simp only [without, hs]

theorem step_without (hs : p.service = .stream s) (hlt : client < s.accepted)
    (hevent : event.isOf client = false) :
    (p.without client).step event =
      (p.step event).map fun (q, effects) => (q.without client, effects) := by
  rw [without_of_stream hs]
  cases event with
  | run =>
    simp only [step, run, hs, Option.map_some]
    rcases p.gate.start with ⟨_ | _, gate⟩ <;> rfl
  | close => simp only [step, close, Option.map_some, without, hs]
  | service event =>
    cases event with
    | stream e =>
      have he : ∀ e', e ≠ .relay client e' := by
        rintro e' rfl
        simp [Event.isOf] at hevent
      simp only [step, hs, Service.step, isClosed, StreamService.step_without hlt he]
      cases s.step p.gate.cancelled e with
      | none => rfl
      | some turn =>
        obtain ⟨next, effects, loopEnd⟩ := turn
        cases loopEnd <;> rfl
    | _ => simp [step, hs, Service.step]

/-- Everyone else goes on the same without the relay. -/
theorem runAll_without {later : List Event} (hs : p.service = .stream s) (hlt : client < s.accepted)
    (hlater : ∀ event ∈ later, event.isOf client = false) :
    (p.without client).runAll later =
      (p.runAll later).map fun (q, effects) => (q.without client, effects) := by
  induction later generalizing p s with
  | nil => rfl
  | cons event later ih =>
    simp only [runAll, step_without hs hlt (hlater event List.mem_cons_self)]
    cases hstep : p.step event with
    | none => rfl
    | some answer =>
      obtain ⟨q, first⟩ := answer
      obtain ⟨s', hs'⟩ := step_keeps_kind Service.isKind_stream hs hstep
      have hlt' : client < s'.accepted := by
        have hpassage := streamPassage_of_step hs hstep hs'
        cases hpassage with
        | accepted => exact Nat.lt_succ_of_lt hlt
        | _ => exact hlt
      simp only [Option.map_some, Option.bind_some,
        ih hs' hlt' fun event hmem => hlater event (List.mem_cons_of_mem _ hmem), Option.map_map]
      rfl

/-- What the failure of one client does to a proxy, and what it leaves alone. -/
structure Isolated (client : Nat) (cause : IoError) (p : Proxy) (s : StreamService) (q : Proxy)
    (effects : List Effect) : Prop where
  shown : ∃ r, s.relay? client = some r ∧
    effects = [.log (.connectionFailed r.peer cause), .release client]
  /-- the gate, the runs, the loop and the number of clients are the same -/
  rest : q = { p with service := .stream (s.without client) }
  gone : (s.without client).relay? client = none
  others : ∀ other, other ≠ client → (s.without client).relay? other = s.relay? other
  goesOn : ∀ later, (∀ event ∈ later, event.isOf client = false) →
    q.runAll later = (p.runAll later).map fun (p', shown) => (p'.without client, shown)

theorem isolated_of_failure (hs : p.service = .stream s)
    (hlt : ∀ r, s.relay? client = some r → client < s.accepted)
    {e : StreamRelay.Event} {cause : IoError} (hfailed : e.failure? = some cause)
    (hstep : p.step (.service (.stream (.relay client e))) = some (q, effects)) :
    Isolated client cause p s q effects := by
  simp only [step, hs, Service.step, StreamService.step, Option.map_eq_some_iff,
    Option.bind_eq_some_iff] at hstep
  obtain ⟨-, ⟨-, ⟨r, hr, ⟨next, shown⟩, hnext, rfl⟩, rfl⟩, heq⟩ := hstep
  obtain ⟨rfl, rfl⟩ := (StreamRelay.transition_of_step hnext).of_failure hfailed
  cases heq
  constructor
  case shown => exact ⟨r, hr, by rw [StreamService.client_of_relay? hr]; rfl⟩
  case rest => rfl
  case gone => exact StreamService.relay?_replace_self hr fun _ hnone => absurd hnone (by simp)
  case others => exact fun other hne => StreamService.relay?_without hne
  case goesOn =>
    intro later hlater
    rw [← runAll_without hs (hlt r hr) hlater, without_of_stream hs]
    rfl

end Proxy

end PortForward

import PortForward.Relay.Stream

/-!
# Transitions of a stream relay

Everything that a step of one direction, and of a whole relay, can do. Before a relay copies,
both its directions count as fresh, so that there is a direction from each side in every phase.
-/

namespace PortForward

namespace Half

def held : Half → Bytes
  | copying held _ | ending held _ => held
  | ended _ => []

/-- The source may still have something to say. -/
def isCopying : Half → Bool
  | copying .. => true
  | _ => false

namespace Event

def bytes : Event → Bytes
  | read (.ok bytes) => bytes
  | _ => []

def failure? : Event → Option IoError
  | read (.error e) | write (.error e) | shutdown (.error e) => some e
  | _ => none

end Event

/-- The steps of a direction towards the given side in which no call fails. -/
inductive Transition (client : Nat) (target : Side) : Half → Event → Half → List Effect → Prop
  | read {held n bytes} : bytes ≠ [] → held.length < capacity →
      held.length + bytes.length ≤ capacity →
      Transition client target (copying held n) (.read (.ok bytes)) (copying (held ++ bytes) n) []
  | sourceEnded {held n} : held.length < capacity →
      Transition client target (copying held n) (.read (.ok [])) (ending held n) []
  | wrote {held n k} : 0 < k → k ≤ held.length →
      Transition client target (copying held n) (.write (.ok k)) (copying (held.drop k) (n + k))
        [.deliver client target (held.take k)]
  | wroteLast {held n k} : 0 < k → k ≤ held.length →
      Transition client target (ending held n) (.write (.ok k)) (ending (held.drop k) (n + k))
        [.deliver client target (held.take k)]
  | shut {n} :
      Transition client target (ending [] n) (.shutdown (.ok ())) (ended n)
        [.endStream client target]

variable {client : Nat} {target : Side} {h h' : Half} {event : Event} {effects : List Effect}

theorem transition_of_step (hstep : h.step client target event = some (.ok (h', effects))) :
    Transition client target h event h' effects := by
  cases event with
  | read result =>
    simp only [step] at hstep
    split at hstep
    · rename_i held n
      split at hstep
      · rename_i hroom
        split at hstep
        · cases hstep
        · cases hstep
          exact .sourceEnded hroom
        · rename_i bytes hbytes
          split at hstep
          · rename_i hfits
            cases hstep
            exact .read hbytes hroom hfits
          · cases hstep
      · cases hstep
    · cases hstep
  | write result =>
    simp only [step] at hstep
    split at hstep
    · split at hstep
      · rename_i hk
        cases hstep
        exact .wrote hk.1 hk.2
      · cases hstep
    · split at hstep
      · rename_i hk
        cases hstep
        exact .wroteLast hk.1 hk.2
      · cases hstep
    · split at hstep <;> cases hstep
    · split at hstep <;> cases hstep
    · cases hstep
  | shutdown result =>
    simp only [step] at hstep
    split at hstep
    · split at hstep
      · cases hstep
        exact .shut
      · cases hstep
    · cases hstep

theorem failure_of_step {e : IoError} (hstep : h.step client target event = some (.error e)) :
    event.failure? = some e := by
  cases event with
  | read result =>
    simp only [step] at hstep
    split at hstep
    · split at hstep
      · split at hstep
        · cases hstep
          rfl
        · cases hstep
        · split at hstep <;> cases hstep
      · cases hstep
    · cases hstep
  | write result =>
    simp only [step] at hstep
    split at hstep
    · split at hstep <;> cases hstep
    · split at hstep <;> cases hstep
    · split at hstep
      · cases hstep
      · cases hstep
        rfl
    · split at hstep
      · cases hstep
      · cases hstep
        rfl
    · cases hstep
  | shutdown result =>
    simp only [step] at hstep
    split at hstep
    · split at hstep
      · cases hstep
      · cases hstep
        rfl
    · cases hstep

theorem Transition.failure_eq_none (ht : Transition client target h event h' effects) :
    event.failure? = none := by
  cases ht <;> rfl

end Half

namespace StreamPhase

/-- The direction that starts at the given side. -/
def half : StreamPhase → Side → Half
  | copying up _, .client => up
  | copying _ down, .backend => down
  | _, _ => .fresh

def setHalf : StreamPhase → Side → Half → StreamPhase
  | copying _ down, .client, h => copying h down
  | copying up _, .backend, h => copying up h
  | phase, _, _ => phase

def isCopying : StreamPhase → Bool
  | copying .. => true
  | _ => false

variable {phase : StreamPhase} {source other : Side} {h : Half}

theorem half_setHalf_self (hcopying : phase.isCopying) : (phase.setHalf source h).half source = h := by
  cases phase with
  | copying up down => cases source <;> rfl
  | _ => cases hcopying

theorem half_setHalf_of_ne (hne : other ≠ source) :
    (phase.setHalf source h).half other = phase.half other := by
  cases phase with
  | copying up down => cases source <;> cases other <;> first | rfl | exact absurd rfl hne
  | _ => rfl

theorem isCopying_setHalf (hcopying : phase.isCopying) : (phase.setHalf source h).isCopying := by
  cases phase with
  | copying up down => cases source <;> rfl
  | _ => cases hcopying

theorem copying_half (hcopying : phase.isCopying) :
    .copying (phase.half .client) (phase.half .backend) = phase := by
  cases phase with
  | copying => rfl
  | _ => cases hcopying

theorem half_of_not_copying (hnot : phase.isCopying = false) : phase.half source = .fresh := by
  cases phase with
  | copying => cases hnot
  | _ => rfl

end StreamPhase

namespace StreamRelay

def Event.failure? : Event → Option IoError
  | .connected (.error e) => some e
  | .copy _ event => event.failure?
  | _ => none

/-- The steps of a relay, given whether its proxy is closed. -/
inductive Transition (closed : Bool) (r : StreamRelay) :
    Event → Option StreamRelay → List Effect → Prop
  | announced : r.phase = .accepted →
      Transition closed r .announce (some { r with phase := .announced })
        [.log (.clientAccepted r.peer)]
  | dialed : r.phase = .announced →
      Transition closed r .dial (some { r with phase := .dialing }) [.dial r.client]
  | connected : r.phase = .dialing →
      Transition closed r (.connected (.ok ())) (some { r with phase := .copying .fresh .fresh }) []
  | moved {source event h effects} : r.phase.isCopying →
      Half.Transition r.client source.other (r.phase.half source) event h effects →
      ¬ (∀ side, ((r.phase.setHalf source h).half side).isEnded) →
      Transition closed r (.copy source event)
        (some { r with phase := r.phase.setHalf source h }) effects
  /-- the second direction has ended -/
  | completed {source event h effects} : r.phase.isCopying →
      Half.Transition r.client source.other (r.phase.half source) event h effects →
      (∀ side, ((r.phase.setHalf source h).half side).isEnded) →
      Transition closed r (.copy source event) none (effects ++
        [.log (.connectionEnded ((r.phase.setHalf source h).half .client).moved
          ((r.phase.setHalf source h).half .backend).moved), .release r.client])
  | failed {event e} : r.phase = .dialing ∨ r.phase.isCopying → event.failure? = some e →
      Transition closed r event none [.log (.connectionFailed r.peer e), .release r.client]
  | dropped : closed = true → r.phase ≠ .accepted →
      Transition closed r .drop none [.log (.clientDropped r.peer), .release r.client]

variable {closed : Bool} {r : StreamRelay} {event : Event} {next : Option StreamRelay}
variable {effects : List Effect}

theorem Transition.keeps (ht : Transition closed r event next effects) {r' : StreamRelay}
    (hr' : next = some r') : r'.client = r.client ∧ r'.peer = r.peer := by
  cases ht <;> cases hr' <;> exact ⟨rfl, rfl⟩

theorem step_copy {source : Side} {e : Half.Event} (hcopying : r.phase.isCopying) :
    r.step closed (.copy source e) =
      ((r.phase.half source).step r.client source.other e).map fun
        | .ok (h, effects) =>
          r.copied ((r.phase.setHalf source h).half .client)
            ((r.phase.setHalf source h).half .backend) effects
        | .error e => r.fail e := by
  cases hphase : r.phase with
  | copying up down => cases source <;> simp only [step, hphase] <;> rfl
  | _ => simp [hphase, StreamPhase.isCopying] at hcopying

theorem transition_of_copy {source : Side} {e : Half.Event}
    (hstep : r.step closed (.copy source e) = some (next, effects)) :
    Transition closed r (.copy source e) next effects := by
  have hcopying : r.phase.isCopying := by
    cases hphase : r.phase with
    | copying => rfl
    | _ => simp [step, hphase] at hstep
  rw [step_copy hcopying] at hstep
  obtain ⟨answer, hanswer, hstep⟩ := Option.map_eq_some_iff.mp hstep
  cases answer with
  | error e' =>
    cases hstep
    exact .failed (.inr hcopying) (Half.failure_of_step hanswer)
  | ok answer =>
    obtain ⟨h, moved⟩ := answer
    have ht := Half.transition_of_step hanswer
    have hphase : StreamPhase.copying ((r.phase.setHalf source h).half .client)
        ((r.phase.setHalf source h).half .backend) = r.phase.setHalf source h :=
      StreamPhase.copying_half (StreamPhase.isCopying_setHalf hcopying)
    dsimp only [copied] at hstep
    rw [hphase] at hstep
    split at hstep
    · rename_i hended
      cases hstep
      refine .completed hcopying ht ?_
      intro side
      cases side
      · exact hended.1
      · exact hended.2
    · rename_i hnot
      cases hstep
      exact .moved hcopying ht fun hended => hnot ⟨hended .client, hended .backend⟩

theorem transition_of_step (hstep : r.step closed event = some (next, effects)) :
    Transition closed r event next effects := by
  cases event with
  | announce =>
    simp only [step] at hstep
    split at hstep
    · cases hstep
      exact .announced ‹_›
    · cases hstep
  | dial =>
    simp only [step] at hstep
    split at hstep
    · cases hstep
      exact .dialed ‹_›
    · cases hstep
  | connected result =>
    simp only [step] at hstep
    split at hstep
    · cases hstep
      exact .connected ‹_›
    · cases hstep
      exact .failed (.inl ‹_›) rfl
    · cases hstep
  | copy source e => exact transition_of_copy hstep
  | drop =>
    simp only [step] at hstep
    split at hstep
    · cases hstep
    · rename_i hphase
      cases hstep
      exact .dropped rfl hphase
    · cases hstep

end StreamRelay

end PortForward

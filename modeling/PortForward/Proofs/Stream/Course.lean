import PortForward.Proofs.Stream.Dismissal

/-!
# The course of a client

Of all that a stream proxy does for a client three things are told or asked for once at most:
the client is announced, the backend is dialed, and a line says how the relay has ended. They
come in this order, and how far a client has come is how far its relay has. A relay that ends
undialed was dropped.
-/

namespace PortForward

/-- The effect marks how far a client has come. -/
def Effect.isMilestone : Effect → Bool
  | log (.clientAccepted _) | dial _ => true
  | effect => effect.isFarewell

def milestones (effects : List Effect) : List Effect := effects.filter (·.isMilestone)

/-- The milestones that a client has passed by a phase of its relay. -/
def StreamPhase.milestones (client : Nat) (peer : Address) : StreamPhase → List Effect
  | accepted => []
  | announced => [.log (.clientAccepted peer)]
  | dialing | copying .. => [.log (.clientAccepted peer), .dial client]

theorem milestones_append (effects more : List Effect) :
    milestones (effects ++ more) = milestones effects ++ milestones more := List.filter_append ..

theorem Half.Transition.no_milestone {client : Nat} {target : Side} {h h' : Half} {event : Event}
    {effects : List Effect} (ht : Transition client target h event h' effects) :
    milestones effects = [] := by
  cases ht <;> rfl

namespace StreamRelay

/-- How an accepted client fares, by the steps of its relay. -/
inductive Course (client : Nat) (peer : Address) (steps : List Step) :
    Option StreamRelay → Prop
  | living {r : StreamRelay} : r.client = client → r.peer = peer →
      milestones (steps.flatMap (·.effects)) = r.phase.milestones client peer →
      Course client peer steps (some r)
  | ended {line : Notice} : Farewell peer steps line →
      milestones (steps.flatMap (·.effects)) =
        [.log (.clientAccepted peer), .dial client, .log line, .release client] →
      (∀ up down, line = .connectionEnded up down → ∀ side,
        .endStream client side ∈ steps.flatMap (·.effects)) →
      Course client peer steps none
  /-- the proxy was closed before the backend was dialed -/
  | undialed : Farewell peer steps (.clientDropped peer) →
      milestones (steps.flatMap (·.effects)) =
        [.log (.clientAccepted peer), .log (.clientDropped peer), .release client] →
      Course client peer steps none

variable {client : Nat} {peer : Address} {steps : List Step} {r r' : StreamRelay}
variable {closed : Bool} {event : Event} {effects : List Effect} {next : Option StreamRelay}

/-- What a step adds to the milestones of a relay that goes on. -/
theorem Transition.milestones_eq (ht : Transition closed r event (some r') effects) :
    r.phase.milestones r.client r.peer ++ milestones effects =
      r'.phase.milestones r.client r.peer := by
  cases ht with
  | announced hphase | dialed hphase | connected hphase =>
    rw [hphase]
    rfl
  | @moved source event h effects hcopying ht =>
    rw [ht.no_milestone, List.append_nil]
    cases hphase : r.phase with
    | copying => cases source <;> rfl
    | _ => simp [hphase, StreamPhase.isCopying] at hcopying

theorem milestones_of_life (h : Life (born client peer) steps next) (hnext : next = some r) :
    milestones (steps.flatMap (·.effects)) = r.phase.milestones client peer := by
  induction h generalizing r with
  | accepted =>
    cases hnext
    rfl
  | step hlife ht ih =>
    cases hnext
    have hliving := living_of_life hlife rfl
    have hadded := ht.milestones_eq
    rw [hliving.client_eq, hliving.peer_eq, ← ih rfl] at hadded
    rw [List.flatMap_append, List.flatMap_singleton, milestones_append, hadded]

/-- The last step of a relay adds its farewell. A relay that was not dialing yet was dropped. -/
theorem Transition.milestones_last (ht : Transition closed r event none effects) :
    milestones effects = farewells effects ∧
      ((∃ up down, r.phase = .copying up down) ∨ r.phase = .dialing ∨
        (r.phase = .announced ∧ event = .drop)) := by
  cases ht with
  | completed hcopying ht =>
    refine ⟨?_, .inl ?_⟩
    · rw [milestones_append, ht.no_milestone, farewells, List.filter_append]
      exact congrArg (· ++ _) ht.no_farewell.symm
    · cases hphase : r.phase with
      | copying up down => exact ⟨up, down, rfl⟩
      | _ => simp [hphase, StreamPhase.isCopying] at hcopying
  | failed hphase =>
    refine ⟨rfl, ?_⟩
    rcases hphase with hdialing | hcopying
    · exact .inr (.inl hdialing)
    · cases hphase : r.phase with
      | copying up down => exact .inl ⟨up, down, rfl⟩
      | _ => simp [hphase, StreamPhase.isCopying] at hcopying
  | dropped _ hphase =>
    refine ⟨rfl, ?_⟩
    cases hr : r.phase with
    | accepted => exact absurd hr hphase
    | announced => exact .inr (.inr ⟨rfl, rfl⟩)
    | dialing => exact .inr (.inl rfl)
    | copying up down => exact .inl ⟨up, down, rfl⟩

/-- A relay that has ended lived until its last step. -/
theorem life_before {start : StreamRelay} {before : List Step} {last : Step}
    (h : Life start (before ++ [last]) none) :
    ∃ r, Life start before (some r) ∧ Transition last.closed r last.event none last.effects := by
  generalize heq : before ++ [last] = steps at h
  cases h with
  | step hlife ht =>
    obtain ⟨rfl, hlast⟩ := List.append_inj' heq rfl
    cases hlast
    exact ⟨_, hlife, ht⟩

theorem farewells_last {start : StreamRelay} {before : List Step} {last : Step}
    (h : Life start (before ++ [last]) none) :
    farewells ((before ++ [last]).flatMap (·.effects)) = farewells last.effects := by
  obtain ⟨r, hlife, -⟩ := life_before h
  have hbefore := no_farewell_of_life hlife rfl
  rw [farewells] at hbefore
  rw [List.flatMap_append, List.flatMap_singleton, farewells, List.filter_append, hbefore]
  rfl

/-- A relay whose line says that its connection has ended has ended both streams. -/
theorem endStream_of_life (h : Life (born client peer) steps none) {up down : Nat}
    {rest : List Effect}
    (hline : farewells (steps.flatMap (·.effects)) = .log (.connectionEnded up down) :: rest)
    (side : Side) : .endStream client side ∈ steps.flatMap (·.effects) := by
  obtain ⟨halves, before, last, rfl, haccount, -, hending⟩ := ending_of_life h
  rw [farewells_last h] at hline
  have hended : ∀ side, (halves side).isEnded := by
    cases hending with
    | completed hended => exact hended
    | failed | dropped => simp [farewells, Effect.isFarewell] at hline
  have hother : side.other.other = side := by
    cases side <;> rfl
  obtain ⟨bytes, ⟨pieces, -, htowards⟩, -, -⟩ := (haccount side.other).conveys
  rw [hended, hother, if_pos rfl] at htowards
  have hmem : .endStream client side ∈
      towards client side ((before ++ [last]).flatMap (·.effects)) := by
    rw [htowards]
    exact List.mem_append_right _ List.mem_cons_self
  exact List.mem_of_mem_filter hmem

theorem course_of_life (h : Life (born client peer) steps next) :
    Course client peer steps next := by
  cases next with
  | some r =>
    have hliving := living_of_life h rfl
    exact .living hliving.client_eq hliving.peer_eq (milestones_of_life h rfl)
  | none =>
    obtain ⟨before, last, line, rfl, hfarewell, hfarewells, hsilent⟩ := farewell_of_life h
    have hend := fun up down (hline : line = .connectionEnded up down) =>
      endStream_of_life h (hline ▸ hfarewells)
    obtain ⟨r, hlife, ht⟩ := life_before h
    obtain ⟨hlast, hphase⟩ := ht.milestones_last
    have hmilestones : milestones ((before ++ [last]).flatMap (·.effects)) =
        r.phase.milestones client peer ++ [.log line, .release client] := by
      rw [List.flatMap_append, List.flatMap_singleton, milestones_append,
        milestones_of_life hlife rfl, hlast, ← farewells_last h, hfarewells]
    rcases hphase with ⟨up, down, hphase⟩ | hphase | ⟨hphase, hdrop⟩
    · rw [hphase] at hmilestones
      exact .ended hfarewell hmilestones hend
    · rw [hphase] at hmilestones
      exact .ended hfarewell hmilestones hend
    · have hline := hsilent (by rw [hdrop]; rfl)
      rw [hphase] at hmilestones
      subst hline
      exact .undialed hfarewell hmilestones

end StreamRelay

end PortForward

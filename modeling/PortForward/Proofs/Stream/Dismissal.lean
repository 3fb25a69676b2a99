import PortForward.Proofs.Loop
import PortForward.Proofs.Stream.Separation

/-!
# How clients of a stream proxy are dismissed

Whatever ends a relay, its client is released in the last step and in no other, with one line
that says why. Once its proxy is closed a relay can always end, so that nothing is left of the
relays when there is nothing left to do; and a client that lives is dropped, unless its relay
fails or completes before it notices the close.
-/

namespace PortForward

/-- The client is released, or a line says how its relay has ended. -/
def Effect.isFarewell : Effect → Bool
  | release _ | log (.clientDropped _) | log (.connectionFailed ..) | log (.connectionEnded ..) =>
    true
  | _ => false

def farewells (effects : List Effect) : List Effect := effects.filter (·.isFarewell)

theorem Half.Transition.no_farewell {client : Nat} {target : Side} {h h' : Half} {event : Event}
    {effects : List Effect} (ht : Transition client target h event h' effects) :
    farewells effects = [] := by
  cases ht <;> rfl

namespace StreamRelay

/-- A call of the relay returns. -/
def Event.isAnswer : Event → Bool
  | connected _ | copy .. => true
  | _ => false

theorem Event.isAnswer_of_failure {event : Event} {e : IoError} (h : event.failure? = some e) :
    event.isAnswer = true := by
  cases event with
  | connected | copy => rfl
  | _ => cases h

/-- Why a relay has ended, as its log line says it. -/
inductive Farewell (peer : Address) (steps : List Step) : Notice → Prop
  | failed {step e} : step ∈ steps → step.event.failure? = some e →
      Farewell peer steps (.connectionFailed peer e)
  | dropped {step} : step ∈ steps → step.event = .drop → step.closed = true →
      Farewell peer steps (.clientDropped peer)
  | completed {up down} : (∀ side, ∃ step ∈ steps, step.event.isEndOf side) →
      Farewell peer steps (.connectionEnded up down)

variable {client : Nat} {peer : Address} {steps early late : List Step} {r r' : StreamRelay}
variable {last : Step} {closed : Bool} {event : Event} {effects : List Effect}

theorem Transition.no_farewell (ht : Transition closed r event (some r') effects) :
    farewells effects = [] := by
  cases ht with
  | announced | dialed | connected => rfl
  | moved _ ht => exact ht.no_farewell

theorem no_farewell_of_life {start : StreamRelay} {next : Option StreamRelay}
    (h : Life start steps next) (hnext : next = some r) :
    farewells (steps.flatMap (·.effects)) = [] := by
  induction h generalizing r with
  | accepted => rfl
  | step _ ht ih =>
    cases hnext
    rw [farewells, List.flatMap_append, List.filter_append, List.flatMap_singleton]
    exact List.append_eq_nil_iff.mpr ⟨ih rfl, ht.no_farewell⟩

/-- A relay that has ended made its farewell in its last step. -/
theorem farewells_of_life (h : Life (born client peer) (early ++ [last]) none) :
    farewells ((early ++ [last]).flatMap (·.effects)) = farewells last.effects := by
  have hearly : farewells (early.flatMap (·.effects)) = [] := by
    generalize hsteps : early ++ [last] = steps at h
    cases h with
    | step hlife =>
      obtain ⟨rfl, -⟩ := List.append_inj' hsteps rfl
      exact no_farewell_of_life hlife rfl
  rw [farewells, List.flatMap_append, List.filter_append, List.flatMap_singleton]
  exact congrArg (· ++ farewells last.effects) hearly

theorem farewell_of_life (h : Life (born client peer) steps none) :
    ∃ before last line, steps = before ++ [last] ∧ Farewell peer steps line ∧
      farewells (steps.flatMap (·.effects)) = [.log line, .release client] ∧
      (last.event.isAnswer = false → line = .clientDropped peer) := by
  obtain ⟨halves, before, last, rfl, haccount, -, hending⟩ := ending_of_life h
  have hlast : last ∈ before ++ [last] := List.mem_append_right _ List.mem_cons_self
  rw [farewells_of_life h]
  cases hending with
  | failed hfailed =>
    refine ⟨before, _, _, rfl, .failed hlast hfailed, rfl, ?_⟩
    intro hsilent
    cases (Event.isAnswer_of_failure hfailed).symm.trans hsilent
  | dropped => exact ⟨before, _, _, rfl, .dropped hlast rfl rfl, rfl, fun _ => rfl⟩
  | completed hended =>
    refine ⟨before, _, _, rfl, .completed ?_, rfl, nofun⟩
    intro side
    apply (haccount side).spent_iff.mpr
    have hside := hended side
    cases hhalf : halves side with
    | ended => rfl
    | _ =>
      rw [hhalf] at hside
      cases hside

/-- A relay that lived at some time and has ended since did so in one last step. -/
theorem ending_of_living (hlive : Life (born client peer) early (some r))
    (h : Life (born client peer) (early ++ late) none) :
    ∃ halves before last, late = before ++ [last] ∧ Ending client peer halves last ∧
      farewells ((early ++ late).flatMap (·.effects)) = farewells last.effects := by
  obtain ⟨halves, before, last, heq, -, -, hending⟩ := ending_of_life h
  rcases List.eq_nil_or_concat late with rfl | ⟨late, last', rfl⟩
  · obtain ⟨-, -, line, -, -, hfarewells, -⟩ := farewell_of_life h
    rw [List.append_nil, no_farewell_of_life hlive rfl] at hfarewells
    cases hfarewells
  · rw [List.concat_eq_append, ← List.append_assoc] at heq h ⊢
    obtain ⟨-, hlast⟩ := List.append_inj' heq rfl
    cases hlast
    exact ⟨halves, late, last, rfl, hending, farewells_of_life h⟩

/-- How many steps a relay is away from the end that the close of its proxy brings. -/
def toGo (r : StreamRelay) : Nat := if r.phase = .accepted then 2 else 1

/-- Once its proxy is closed a relay can go on by itself in every phase. -/
theorem exists_step_of_closed (r : StreamRelay) :
    ∃ event next effects, event.isAnswer = false ∧ r.step true event = some (next, effects) ∧
      next.elim 0 toGo < r.toGo := by
  by_cases hphase : r.phase = .accepted
  · refine ⟨.announce, _, _, rfl, by simp only [step, hphase]; rfl, ?_⟩
    simp [toGo, hphase]
  · refine ⟨.drop, none, [.log (.clientDropped r.peer), .release r.client], rfl, ?_, ?_⟩
    · cases hr : r.phase with
      | accepted => exact absurd hr hphase
      | _ => simp only [step, hr]
    · simp [toGo, hphase]

end StreamRelay

namespace StreamService

open StreamRelay (Farewell)

variable {frontend : Address} {backend : StreamBackend} {past : List (Moment StreamService)}
variable {p : Proxy} {s : StreamService} {client : Nat} {peer : Address}

/-- How many steps a closed proxy can go on dismissing its clients. -/
def stepsLeft (s : StreamService) : Nat :=
  PortForward.stepsLeft StreamRelay.toGo s.relays + if s.accepting then 1 else 0

theorem HasOneEach.exists_step_of_closed (h : s.HasOneEach)
    (hleft : ¬ (s.accepting = false ∧ s.relays = [])) :
    ∃ event turn, (Service.Event.stream event).isOwn ∧ s.step true event = some turn ∧
      turn.next.stepsLeft < s.stepsLeft := by
  cases haccepting : s.accepting with
  | true =>
    refine ⟨.stop, _, rfl, by simp only [step, haccepting, and_self, if_true]; rfl, ?_⟩
    simp [stepsLeft, haccepting]
  | false =>
    obtain ⟨r, hmem⟩ := List.exists_mem_of_ne_nil _ fun hgone => hleft ⟨haccepting, hgone⟩
    obtain ⟨event, next, effects, hown, hstep, htoGo⟩ := r.exists_step_of_closed
    have hr : s.relay? r.client = some r := h.find?_of_mem hmem
    refine ⟨.relay r.client event, .on (s.replace r.client next) effects, ?_, ?_, ?_⟩
    · cases event with
      | copy => cases hown
      | _ => rfl
    · simp only [step, hr, hstep, Option.bind_some, Option.map_some]
    · exact Nat.add_lt_add_right (h.stepsLeft_replace_lt hr htoGo) _

theorem HasOneEach.relays_eq_nil_of_quiet (h : s.HasOneEach)
    (hquiet : (Service.stream s).IsQuiet true) : s.relays = [] := by
  by_contra hleft
  obtain ⟨event, turn, hown, hstep, -⟩ := h.exists_step_of_closed fun hgone => hleft hgone.2
  cases (Option.map_eq_none_iff.mp (hquiet (.stream event) hown)).symm.trans hstep

/-- All clients that a proxy has accepted are dismissed, each with the line it deserves. -/
structure Dismissed (made : Proxy) (past : List (Moment StreamService)) : Prop where
  farewell : ∀ client peer, (past.flatMap arrivals)[client]? = some peer →
    ∃ line, Farewell peer (past.flatMap (stepsOf client)) line ∧
      farewells ((past.flatMap (stepsOf client)).flatMap (·.effects)) =
        [.log line, .release client]
  /-- a client that lives at some moment is dropped after it, unless its relay ends by itself -/
  dropped : ∀ early later q s client r, past = early ++ later → History .stream made early q s →
    s.relay? client = some r →
    ∃ halves before last, later.flatMap (stepsOf client) = before ++ [last] ∧
      StreamRelay.Ending client r.peer halves last ∧
      farewells ((past.flatMap (stepsOf client)).flatMap (·.effects)) = farewells last.effects

theorem Connected.life_of_gone (h : Connected past s) (hgone : s.relays = [])
    (hpeer : (past.flatMap arrivals)[client]? = some peer) :
    StreamRelay.Life (.born client peer) (past.flatMap (stepsOf client)) none := by
  have hlife := h.roster.life client peer hpeer
  rwa [relay?, hgone] at hlife

theorem dismissed_of_quiet
    (h : History .stream (.bound frontend (.stream (.idle backend))) past p s)
    (hgone : s.relays = []) : Dismissed (.bound frontend (.stream (.idle backend))) past := by
  have hconnected := connected_of_history h
  constructor
  case farewell =>
    intro client peer hpeer
    obtain ⟨-, -, line, -, hline, hfarewells, -⟩ :=
      StreamRelay.farewell_of_life (hconnected.life_of_gone hgone hpeer)
    exact ⟨line, hline, hfarewells⟩
  case dropped =>
    rintro early later q s' client r rfl hearly hr
    obtain ⟨peer, hpeer, hlive⟩ := (connected_of_history hearly).roster.exists_peer hr
    have hstill : ((early ++ later).flatMap arrivals)[client]? = some peer := by
      obtain ⟨hlt, -⟩ := List.getElem?_eq_some_iff.mp hpeer
      rw [List.flatMap_append, List.getElem?_append_left hlt]
      exact hpeer
    have hlife := hconnected.life_of_gone hgone hstill
    rw [List.flatMap_append] at hlife ⊢
    rw [(StreamRelay.living_of_life hlive rfl).peer_eq]
    exact StreamRelay.ending_of_living hlive hlife

/-- The client of a relay that has ended is released once, and by nobody else. -/
theorem Connected.count_release (h : Connected past s) (hgone : s.relays = [])
    (hlt : client < s.accepted) :
    (past.flatMap (·.effects)).count (.release client) = 1 := by
  rw [h.accepted_eq] at hlt
  obtain ⟨-, -, line, -, -, hfarewells, -⟩ :=
    StreamRelay.farewell_of_life (h.life_of_gone hgone (List.getElem?_eq_getElem hlt))
  calc (past.flatMap (·.effects)).count (.release client)
    _ = ((past.flatMap (stepsOf client)).flatMap (·.effects)).count (.release client) :=
      h.count_release_eq client
    _ = (farewells ((past.flatMap (stepsOf client)).flatMap (·.effects))).count
          (.release client) :=
      (List.count_filter rfl).symm
    _ = 1 := by
      rw [hfarewells]
      simp

end StreamService

end PortForward

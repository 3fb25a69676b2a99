import PortForward.Proofs.Framed.Refinement
import PortForward.Proofs.Loop

/-!
# How clients of a framed proxy are dismissed

A framed relay looks for the close of its proxy only while it waits. Whatever else it does comes
to an end first, be it with a failure, but for a reply that its client does not read. Every end of
a relay releases its client.
-/

namespace PortForward

namespace FramedRelay

variable {closed : Bool} {backend : SocketAddress} {number client : Nat} {peer : Address}
variable {r : FramedRelay} {event : Event} {next : Option FramedRelay} {effects : List Effect}
variable {steps : List Step}

theorem Transition.count_release (h : Transition closed backend number r event next effects) :
    effects.count (.release r.client) = if next.isSome then 0 else 1 := by
  cases h <;> simp

theorem count_release_of_life (h : Life backend (accepted client peer) steps next) :
    (steps.flatMap (·.effects)).count (.release client) = if next.isSome then 0 else 1 := by
  induction h with
  | accepted => rfl
  | @step steps r step next hlife ht ih =>
    have hclient : r.client = client := (account_of_life hlife rfl).client_eq
    rw [List.flatMap_append, List.count_append, ih, List.flatMap_singleton, ← hclient,
      ht.count_release]
    exact Nat.zero_add _

/-- How many steps a relay is away from the end that the close of its proxy brings, if it need not
wait for its client. -/
def toGo (r : FramedRelay) : Nat :=
  match r.phase with
  | .accepted => 3
  | .opening | .sending .. => 2
  | .waiting _ => 1
  | .writing .. => 0

/-- Once its proxy is closed a relay that is not writing can go on by itself. -/
theorem exists_step_of_closed (hphase : ∀ socket rest, r.phase ≠ .writing socket rest)
    (backend : SocketAddress) (number : Nat) :
    ∃ event next effects, (∀ client, (Service.Event.framed (.relay client event)).isOwn) ∧
      r.step true backend number event = some (next, effects) ∧ next.elim 0 toGo < r.toGo := by
  cases hr : r.phase with
  | accepted =>
    refine ⟨.announce, _, _, fun _ => rfl, by simp only [step, hr]; rfl, ?_⟩
    simp [toGo, hr]
  | opening =>
    refine ⟨.opened (.ok ()), _, _, fun _ => rfl, by simp only [step, hr]; rfl, ?_⟩
    simp [toGo, hr]
  | waiting socket =>
    refine ⟨.stop, none, [.release r.client], fun _ => rfl, by simp only [step, hr], ?_⟩
    simp [toGo, hr]
  | sending socket payload retried =>
    refine ⟨.send (.ok ()), _, _, fun _ => rfl, by simp only [step, hr]; rfl, ?_⟩
    simp [toGo, hr]
  | writing socket rest => exact absurd hr (hphase socket rest)

end FramedRelay

namespace FramedService

open FramedRelay (Life)

variable {backend : SocketAddress} {past : List (Moment FramedService)} {s : FramedService}
variable {client : Nat}

/-- How many steps a closed proxy can go on dismissing its clients. -/
def stepsLeft (s : FramedService) : Nat :=
  PortForward.stepsLeft FramedRelay.toGo s.relays + if s.accepting then 1 else 0

@[simp] theorem stepsLeft_countOpened (event : FramedRelay.Event) :
    (s.countOpened event).stepsLeft = s.stepsLeft := by
  simp only [stepsLeft, relays_countOpened, accepting_countOpened]

/-- A closed proxy can go on until all relays that are left are writing. -/
theorem HasOneEach.exists_step_of_closed (h : s.HasOneEach)
    (hleft : ¬ (s.accepting = false ∧
      ∀ r ∈ s.relays, ∃ socket rest, r.phase = .writing socket rest)) :
    ∃ event turn, (Service.Event.framed event).isOwn ∧ s.step true event = some turn ∧
      turn.next.stepsLeft < s.stepsLeft := by
  cases haccepting : s.accepting with
  | true =>
    refine ⟨.stop, _, rfl, by simp only [step, haccepting, and_self, if_true]; rfl, ?_⟩
    simp [stepsLeft, haccepting]
  | false =>
    obtain ⟨r, hmem, hphase⟩ : ∃ r ∈ s.relays, ∀ socket rest, r.phase ≠ .writing socket rest := by
      simpa [haccepting] using hleft
    obtain ⟨event, next, effects, hown, hstep, htoGo⟩ :=
      FramedRelay.exists_step_of_closed hphase s.backend s.opened
    have hr : s.relay? r.client = some r := h.find?_of_mem hmem
    refine ⟨.relay r.client event, .on ((s.replace r.client next).countOpened event) effects,
      hown r.client, ?_, ?_⟩
    · simp only [step, hr, hstep, Option.bind_some, Option.map_some]
    · rw [Turn.on_next, stepsLeft_countOpened]
      exact Nat.add_lt_add_right (h.stepsLeft_replace_lt hr htoGo) _

theorem HasOneEach.writing_of_quiet (h : s.HasOneEach) (hquiet : (Service.framed s).IsQuiet true) :
    ∀ r ∈ s.relays, ∃ socket rest, r.phase = .writing socket rest := by
  by_contra hleft
  obtain ⟨event, turn, hown, hstep, -⟩ := h.exists_step_of_closed fun hwriting => hleft hwriting.2
  cases (Option.map_eq_none_iff.mp (hquiet (.framed event) hown)).symm.trans hstep

theorem Connected.count_release_eq (h : Connected backend past s) (client : Nat) :
    (past.flatMap (·.effects)).count (.release client) =
      ((past.flatMap (·.steps client)).flatMap (·.effects)).count (.release client) := by
  simp only [List.count, List.countP_eq_length_filter]
  rw [filter_effects_eq]
  · intro m hm hsteps effect heffect
    rw [beq_eq_false_iff_ne]
    rintro rfl
    exact h.keepsTo m hm _ heffect hsteps
  · exact fun m _ => Moment.effects_of_steps

/-- A client is released once, by the end of its own relay. -/
theorem Connected.count_release (h : Connected backend past s) (hlt : client < s.accepted) :
    (past.flatMap (·.effects)).count (.release client) =
      if (s.relay? client).isSome then 0 else 1 := by
  rw [h.accepted_eq] at hlt
  rw [h.count_release_eq]
  exact FramedRelay.count_release_of_life (h.life client _ (List.getElem?_eq_getElem hlt))

end FramedService

end PortForward

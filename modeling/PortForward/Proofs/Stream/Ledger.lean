import PortForward.Proofs.Stream.Passage

/-!
# The ledger of a stream proxy

Lines about clients counted against the relays that live. A relay that has not run yet is still
to be announced, and a relay that lives is still to end; nothing else stands between the clients
that were accepted and the lines that were written about them.
-/

namespace PortForward

namespace Effect

def isAnnouncement : Effect → Bool
  | log (.clientAccepted _) => true
  | _ => false

/-- A line says how the relay of a client has ended. -/
def isEnding : Effect → Bool
  | log (.clientDropped _) | log (.connectionFailed ..) | log (.connectionEnded ..) => true
  | _ => false

end Effect

theorem Half.Transition.no_line {client : Nat} {target : Side} {h h' : Half} {event : Event}
    {effects : List Effect} (ht : Transition client target h event h' effects) :
    effects.countP (·.isAnnouncement) = 0 ∧ effects.countP (·.isEnding) = 0 := by
  cases ht <;> exact ⟨rfl, rfl⟩

namespace StreamRelay

/-- The relay has not run yet. -/
def isWaiting (r : StreamRelay) : Bool := r.phase = .accepted

variable {closed : Bool} {r : StreamRelay} {event : Event} {next : Option StreamRelay}
variable {effects : List Effect}

/-- What a step writes is what the relay is still to be announced or to end by. -/
theorem Transition.lines (ht : Transition closed r event next effects) :
    effects.countP (·.isAnnouncement) + next.toList.countP (·.isWaiting) =
        [r].countP (·.isWaiting) ∧
      effects.countP (·.isEnding) + next.toList.length = 1 := by
  have hcopying : ∀ phase : StreamPhase, phase.isCopying → ¬ phase = .accepted := by
    rintro phase hphase rfl
    cases hphase
  cases ht with
  | announced hphase => simp [Effect.isAnnouncement, Effect.isEnding, isWaiting, hphase]
  | dialed hphase | connected hphase =>
    simp [Effect.isAnnouncement, Effect.isEnding, isWaiting, hphase]
  | moved hphase ht =>
    obtain ⟨hannouncements, hendings⟩ := ht.no_line
    rw [hannouncements, hendings]
    simp [isWaiting, hcopying _ hphase, hcopying _ (StreamPhase.isCopying_setHalf hphase)]
  | completed hphase ht =>
    obtain ⟨hannouncements, hendings⟩ := ht.no_line
    rw [List.countP_append, List.countP_append, hannouncements, hendings]
    simp [Effect.isAnnouncement, Effect.isEnding, isWaiting, hcopying _ hphase]
  | failed hphase =>
    have hnot : ¬ r.phase = .accepted := by
      rcases hphase with hdialing | hphase
      · rw [hdialing]
        nofun
      · exact hcopying _ hphase
    simp [Effect.isAnnouncement, Effect.isEnding, isWaiting, hnot]
  | dropped _ hphase => simp [Effect.isAnnouncement, Effect.isEnding, isWaiting, hphase]

end StreamRelay

namespace StreamService

variable {s : StreamService} {client : Nat} {r : StreamRelay}

/-- Lines about clients, and the relays that live, add up to the clients that were accepted. -/
structure Balanced (effects : List Effect) (s : StreamService) : Prop where
  announced : effects.countP (·.isAnnouncement) + s.relays.countP (·.isWaiting) = s.accepted
  ended : effects.countP (·.isEnding) + s.relays.length = s.accepted

variable {effects : List Effect}

theorem balanced_idle {backend : StreamBackend} : Balanced [] (.idle backend) where
  announced := rfl
  ended := rfl

theorem Balanced.accept (h : Balanced effects s) (peer : Address) :
    Balanced effects
      { s with accepted := s.accepted + 1, relays := s.relays ++ [.born s.accepted peer] } := by
  constructor
  case announced =>
    have hannounced := h.announced
    rw [List.countP_append, List.countP_singleton]
    simp only [StreamRelay.isWaiting, StreamRelay.born, decide_true, if_true] at hannounced ⊢
    omega
  case ended =>
    have hended := h.ended
    rw [List.length_append, List.length_singleton]
    simp only
    omega

theorem Balanced.move (h : Balanced effects s) (hone : s.HasOneEach) (hr : s.relay? client = some r)
    {closed : Bool} {event : StreamRelay.Event} {next : Option StreamRelay} {more : List Effect}
    (ht : StreamRelay.Transition closed r event next more) :
    Balanced (effects ++ more) (s.replace client next) := by
  obtain ⟨pre, post, heq, hreplace⟩ := hone.replace_eq hr
  have hreplace : (s.replace client next).relays = pre ++ next.toList ++ post := hreplace next
  have haccepted : (s.replace client next).accepted = s.accepted := rfl
  obtain ⟨hannouncements, hendings⟩ := ht.lines
  constructor
  case announced =>
    have hannounced := h.announced
    rw [heq, List.countP_append, ← List.singleton_append, List.countP_append] at hannounced
    rw [hreplace, haccepted, List.countP_append, List.countP_append, List.countP_append]
    omega
  case ended =>
    have hended := h.ended
    rw [heq, List.length_append, List.length_cons] at hended
    rw [hreplace, haccepted, List.countP_append, List.length_append, List.length_append]
    omega

theorem balanced_of_history {frontend : Address} {backend : StreamBackend}
    {past : List (Moment StreamService)} {p : Proxy}
    (h : History .stream (.bound frontend (.stream (.idle backend))) past p s) :
    Balanced (past.flatMap (·.effects)) s := by
  refine (h.stream_induction (motive := fun past s =>
    s.HasOneEach ∧ Balanced (past.flatMap (·.effects)) s) ⟨.empty, balanced_idle⟩ ?_).2
  rintro past s closed event effects s' ⟨hone, hbalanced⟩ hpassage
  refine ⟨hpassage.hasOneEach hone, ?_⟩
  rw [List.flatMap_append, List.flatMap_singleton]
  cases hpassage with
  | refused | closed => rwa [List.append_nil]
  | started | failed | stopped =>
    refine ⟨?_, ?_⟩
    · rw [List.countP_append]
      exact hbalanced.announced
    · rw [List.countP_append]
      exact hbalanced.ended
  | accepted =>
    rw [List.append_nil]
    exact hbalanced.accept _
  | moved hr ht => exact hbalanced.move hone hr ht

end StreamService

end PortForward

import PortForward.Proofs.History
import PortForward.Proofs.Roster
import PortForward.Proofs.Stream.Transition

/-!
# Passages of a stream proxy

Everything that a step of a stream proxy does to its service. A step of one relay replaces
that relay and no other; the loop only ever adds relays, one for each accepted client.
-/

namespace PortForward

namespace StreamRelay

def born (client : Nat) (peer : Address) : StreamRelay := ⟨client, peer, .accepted⟩

end StreamRelay

namespace StreamService

/-- The steps of a service, given whether its proxy is closed. -/
inductive Transition (closed : Bool) (s : StreamService) : Event → Turn StreamService → Prop
  | accepted {peer} : s.accepting = true →
      Transition closed s (.accept (.ok peer))
        (.on { s with accepted := s.accepted + 1, relays := s.relays ++ [.born s.accepted peer] } [])
  | failed {e} : s.accepting = true →
      Transition closed s (.accept (.error e)) ⟨{ s with accepting := false }, [], some (.failed e)⟩
  | stopped : s.accepting = true → closed = true →
      Transition closed s .stop ⟨{ s with accepting := false }, [], some .closed⟩
  | moved {client event r next effects} : s.relay? client = some r →
      StreamRelay.Transition closed r event next effects →
      Transition closed s (.relay client event) (.on (s.replace client next) effects)

theorem transition_of_step {closed : Bool} {s : StreamService} {event : Event}
    {turn : Turn StreamService} (h : s.step closed event = some turn) :
    Transition closed s event turn := by
  cases event with
  | accept result =>
    cases result with
    | ok peer =>
      simp only [step] at h
      split at h
      · cases h
        exact .accepted ‹_›
      · cases h
    | error e =>
      simp only [step] at h
      split at h
      · cases h
        exact .failed ‹_›
      · cases h
  | stop =>
    simp only [step] at h
    split at h
    · rename_i hstop
      cases h
      exact .stopped hstop.1 hstop.2
    · cases h
  | relay client e =>
    obtain ⟨r, hr, h⟩ := Option.bind_eq_some_iff.mp h
    obtain ⟨⟨next, effects⟩, hnext, rfl⟩ := Option.map_eq_some_iff.mp h
    exact .moved hr (StreamRelay.transition_of_step hnext)

/-- What a step of the proxy does to its service. -/
inductive Passage (closed : Bool) (s : StreamService) :
    Proxy.Event → List Effect → StreamService → Prop
  | refused : Passage closed s .run [] s
  | started {frontend} :
      Passage closed s .run [.log (.streamRunning frontend s.backend.address)] s.start
  | closed : Passage closed s .close [] s
  | accepted {peer} : s.accepting = true →
      Passage closed s (.service (.stream (.accept (.ok peer)))) []
        { s with accepted := s.accepted + 1, relays := s.relays ++ [.born s.accepted peer] }
  | failed {e frontend} : s.accepting = true →
      Passage closed s (.service (.stream (.accept (.error e))))
        [.log (.streamStopped frontend)] { s with accepting := false }
  | stopped {frontend} : s.accepting = true → closed = true →
      Passage closed s (.service (.stream .stop)) [.log (.streamStopped frontend)]
        { s with accepting := false }
  | moved {client event r next effects} : s.relay? client = some r →
      StreamRelay.Transition closed r event next effects →
      Passage closed s (.service (.stream (.relay client event))) effects (s.replace client next)

variable {s : StreamService} {client other : Nat} {r : StreamRelay} {next : Option StreamRelay}

theorem client_of_relay? (h : s.relay? client = some r) : r.client = client := by
  simpa using List.find?_some h

theorem relay?_replace_of_ne (hne : other ≠ client)
    (hnext : ∀ r, next = some r → r.client = client) :
    (s.replace client next).relay? other = s.relay? other :=
  find?_replace_of_ne hne hnext

theorem relay?_replace_self (h : s.relay? client = some r)
    (hnext : ∀ r, next = some r → r.client = client) :
    (s.replace client next).relay? client = next :=
  find?_replace_self h hnext

/-- Each relay has a client of its own, which was accepted. -/
def HasOneEach (s : StreamService) : Prop := Distinct (·.client) s.accepted s.relays

theorem Passage.hasOneEach {closed : Bool} {s' : StreamService} {event : Proxy.Event}
    {effects : List Effect} (h : Passage closed s event effects s') (hone : s.HasOneEach) :
    s'.HasOneEach := by
  cases h with
  | refused | started | closed | failed | stopped => exact hone
  | accepted => exact hone.snoc rfl
  | moved hr ht => exact hone.replace hr fun r' hr' => (ht.keeps hr').1

end StreamService

namespace Proxy

open StreamService

variable {p q : Proxy} {s s' : StreamService} {event : Event} {effects : List Effect}

theorem streamPassage_of_step (hs : p.service = .stream s)
    (hstep : p.step event = some (q, effects)) (hs' : q.service = .stream s') :
    Passage p.isClosed s event effects s' := by
  have hpasses := passes_of_step hstep
  rw [hs] at hpasses
  generalize q.service = t at hpasses hs'
  cases hpasses with
  | refused =>
    cases hs'
    exact .refused
  | started =>
    cases hs'
    exact .started
  | closed =>
    cases hs'
    exact .closed
  | moved hturn hend =>
    obtain ⟨e, turn, rfl, ht, rfl⟩ := Service.exists_stream_step hturn
    cases hs'
    cases transition_of_step ht with
    | accepted haccepting => exact .accepted haccepting
    | moved hr hmove => exact .moved hr hmove
    | failed | stopped => cases hend
  | finished hturn hend =>
    obtain ⟨e, turn, rfl, ht, rfl⟩ := Service.exists_stream_step hturn
    cases hs'
    cases transition_of_step ht with
    | failed haccepting => exact .failed haccepting
    | stopped haccepting hclosed => exact .stopped haccepting hclosed
    | accepted | moved => cases hend

end Proxy

/-- What holds of an idle service and is kept by every passage holds in all runs. -/
theorem History.stream_induction {frontend : Address} {backend : StreamBackend}
    {motive : List (Moment StreamService) → StreamService → Prop}
    (idle : motive [] (.idle backend))
    (passage : ∀ {past s closed event effects s'}, motive past s →
      StreamService.Passage closed s event effects s' →
      motive (past ++ [⟨closed, s, event, effects, s'⟩]) s')
    {past : List (Moment StreamService)} {p : Proxy} {s : StreamService}
    (h : History .stream (.bound frontend (.stream (.idle backend))) past p s) :
    motive past s := by
  induction h with
  | nil hs =>
    cases hs
    exact idle
  | snoc hist hstep hs ih =>
    exact passage ih (Proxy.streamPassage_of_step hist.service_eq hstep hs)

theorem StreamService.hasOneEach_of_history {frontend : Address} {backend : StreamBackend}
    {past : List (Moment StreamService)} {p : Proxy} {s : StreamService}
    (h : History .stream (.bound frontend (.stream (.idle backend))) past p s) : s.HasOneEach :=
  h.stream_induction .empty fun hone hpassage => hpassage.hasOneEach hone

end PortForward

import PortForward.Proofs.Framed.Transition
import PortForward.Proofs.History
import PortForward.Proofs.Roster

/-!
# Passages of a framed proxy

Everything that a step of a framed proxy does to its service. A step of one relay replaces
that relay and no other; clients are numbered as they are accepted, so a new one has no relay
yet.
-/

namespace PortForward

namespace FramedService

/-- The steps of a service, given whether its proxy is closed. -/
inductive Transition (closed : Bool) (s : FramedService) : Event → Turn FramedService → Prop
  | accepted {peer} : s.accepting = true →
      Transition closed s (.accept (.ok peer))
        (.on
          { s with
            accepted := s.accepted + 1
            relays := s.relays ++ [.accepted s.accepted peer] } [])
  | failed {e} : s.accepting = true →
      Transition closed s (.accept (.error e)) ⟨{ s with accepting := false }, [], some (.failed e)⟩
  | stopped : s.accepting = true → closed = true →
      Transition closed s .stop ⟨{ s with accepting := false }, [], some .closed⟩
  | moved {client event r next effects} : s.relay? client = some r →
      FramedRelay.Transition closed s.backend s.opened r event next effects →
      Transition closed s (.relay client event)
        (.on ((s.replace client next).countOpened event) effects)

theorem transition_of_step {closed : Bool} {s : FramedService} {event : Event}
    {turn : Turn FramedService} (h : s.step closed event = some turn) :
    Transition closed s event turn := by
  cases event with
  | accept result =>
    cases result with
    | ok peer =>
      simp only [step] at h
      split at h
      · cases h
        exact .accepted ‹_›
      · cases h
    | error e =>
      simp only [step] at h
      split at h
      · cases h
        exact .failed ‹_›
      · cases h
  | stop =>
    simp only [step] at h
    split at h
    · rename_i hstop
      cases h
      exact .stopped hstop.1 hstop.2
    · cases h
  | relay client e =>
    obtain ⟨r, hr, h⟩ := Option.bind_eq_some_iff.mp h
    obtain ⟨⟨next, effects⟩, hnext, rfl⟩ := Option.map_eq_some_iff.mp h
    exact .moved hr (FramedRelay.transition_of_step hnext)

/-- What a step of the proxy does to its service. -/
inductive Passage (closed : Bool) (s : FramedService) :
    Proxy.Event → List Effect → FramedService → Prop
  | refused : Passage closed s .run [] s
  | started {frontend} :
      Passage closed s .run [.log (.datagramRunning frontend (.datagram s.backend))] s.start
  | closed : Passage closed s .close [] s
  | accepted {peer} : s.accepting = true →
      Passage closed s (.service (.framed (.accept (.ok peer)))) []
        { s with
          accepted := s.accepted + 1
          relays := s.relays ++ [.accepted s.accepted peer] }
  | failed {e frontend} : s.accepting = true →
      Passage closed s (.service (.framed (.accept (.error e))))
        [.log (.datagramStopped frontend)] { s with accepting := false }
  | stopped {frontend} : s.accepting = true → closed = true →
      Passage closed s (.service (.framed .stop)) [.log (.datagramStopped frontend)]
        { s with accepting := false }
  | moved {client event r next effects} : s.relay? client = some r →
      FramedRelay.Transition closed s.backend s.opened r event next effects →
      Passage closed s (.service (.framed (.relay client event))) effects
        ((s.replace client next).countOpened event)

variable {closed : Bool} {s : FramedService} {client other : Nat}

theorem client_of_relay? {r : FramedRelay} (h : s.relay? client = some r) : r.client = client := by
  simpa using List.find?_some h

@[simp] theorem relay?_countOpened (event : FramedRelay.Event) :
    (s.countOpened event).relay? client = s.relay? client := by
  unfold countOpened
  split <;> rfl

@[simp] theorem accepted_countOpened (event : FramedRelay.Event) :
    (s.countOpened event).accepted = s.accepted := by
  unfold countOpened
  split <;> rfl

@[simp] theorem relays_countOpened (event : FramedRelay.Event) :
    (s.countOpened event).relays = s.relays := by
  unfold countOpened
  split <;> rfl

@[simp] theorem accepting_countOpened (event : FramedRelay.Event) :
    (s.countOpened event).accepting = s.accepting := by
  unfold countOpened
  split <;> rfl

@[simp] theorem backend_countOpened (event : FramedRelay.Event) :
    (s.countOpened event).backend = s.backend := by
  unfold countOpened
  split <;> rfl

theorem relay?_replace_of_ne {next : Option FramedRelay} (hne : other ≠ client)
    (hnext : ∀ r, next = some r → r.client = client) :
    (s.replace client next).relay? other = s.relay? other :=
  find?_replace_of_ne hne hnext

theorem relay?_replace_self {r : FramedRelay} {next : Option FramedRelay}
    (h : s.relay? client = some r) (hnext : ∀ r, next = some r → r.client = client) :
    (s.replace client next).relay? client = next :=
  find?_replace_self h hnext

/-- Each relay has a client of its own, which was accepted. -/
def HasOneEach (s : FramedService) : Prop := Distinct (·.client) s.accepted s.relays

theorem Passage.hasOneEach {s' : FramedService} {event : Proxy.Event} {effects : List Effect}
    (h : Passage closed s event effects s') (hone : s.HasOneEach) : s'.HasOneEach := by
  cases h with
  | refused | started | closed | failed | stopped => exact hone
  | accepted => exact hone.snoc rfl
  | moved hr ht =>
    rw [HasOneEach, accepted_countOpened, relays_countOpened]
    exact hone.replace hr fun r' hr' => (ht.keeps hr').1

/-- No relay has a number that was not given yet. -/
def Numbered (s : FramedService) : Prop := ∀ client, s.accepted ≤ client → s.relay? client = none

theorem relay?_accepted (h : s.Numbered) (peer : Address) :
    FramedService.relay?
        { s with accepted := s.accepted + 1, relays := s.relays ++ [.accepted s.accepted peer] }
        client =
      if client = s.accepted then some (.accepted client peer) else s.relay? client := by
  have hnew : s.relay? s.accepted = none := h s.accepted (Nat.le_refl _)
  have hfind : (s.relays ++ [FramedRelay.accepted s.accepted peer]).find? (·.client = client) =
      if client = s.accepted then some (.accepted s.accepted peer) else s.relay? client :=
    find?_snoc hnew
  by_cases hclient : client = s.accepted
  · subst hclient
    exact hfind
  · rw [if_neg hclient] at hfind ⊢
    exact hfind

end FramedService

namespace Proxy

open FramedService

variable {p q : Proxy} {s s' : FramedService} {event : Event} {effects : List Effect}

theorem framedPassage_of_step (hs : p.service = .framed s)
    (hstep : p.step event = some (q, effects)) (hs' : q.service = .framed s') :
    Passage p.isClosed s event effects s' := by
  have hpasses := passes_of_step hstep
  rw [hs] at hpasses
  generalize q.service = t at hpasses hs'
  cases hpasses with
  | refused =>
    cases hs'
    exact .refused
  | started =>
    cases hs'
    exact .started
  | closed =>
    cases hs'
    exact .closed
  | moved hturn hend =>
    obtain ⟨e, turn, rfl, ht, rfl⟩ := Service.exists_framed_step hturn
    cases hs'
    cases transition_of_step ht with
    | accepted haccepting => exact .accepted haccepting
    | moved hr hmove => exact .moved hr hmove
    | failed | stopped => cases hend
  | finished hturn hend =>
    obtain ⟨e, turn, rfl, ht, rfl⟩ := Service.exists_framed_step hturn
    cases hs'
    cases transition_of_step ht with
    | failed haccepting => exact .failed haccepting
    | stopped haccepting hclosed => exact .stopped haccepting hclosed
    | accepted | moved => cases hend

end Proxy

/-- What holds of an idle service and is kept by every passage holds in all runs. -/
theorem History.framed_induction {frontend : Address} {backend : SocketAddress}
    {motive : List (Moment FramedService) → FramedService → Prop}
    (idle : motive [] (.idle backend))
    (passage : ∀ {past s closed event effects s'}, motive past s →
      FramedService.Passage closed s event effects s' →
      motive (past ++ [⟨closed, s, event, effects, s'⟩]) s')
    {past : List (Moment FramedService)} {p : Proxy} {s : FramedService}
    (h : History .framed (.bound frontend (.framed (.idle backend))) past p s) :
    motive past s := by
  induction h with
  | nil hs =>
    cases hs
    exact idle
  | snoc hist hstep hs ih =>
    exact passage ih (Proxy.framedPassage_of_step hist.service_eq hstep hs)

theorem FramedService.hasOneEach_of_history {frontend : Address} {backend : SocketAddress}
    {past : List (Moment FramedService)} {p : Proxy} {s : FramedService}
    (h : History .framed (.bound frontend (.framed (.idle backend))) past p s) : s.HasOneEach :=
  h.framed_induction .empty fun hone hpassage => hpassage.hasOneEach hone

end PortForward

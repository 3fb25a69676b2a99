import PortForward.Proofs.Framed.Life

/-!
# The account of a framed relay

What a relay has sent and written, set against what it has read and received, over its whole
life. The frames of its stream are those sent, the one in hand, and those that its decoder has
still to give; so a relay with nothing left to do has sent them all, and one that ends of its
own accord has done so before.
-/

namespace PortForward.FramedRelay

/-- What a relay has done in the steps since its acceptance. -/
structure Account (start : FramedRelay) (steps : List Step) (r : FramedRelay) : Prop where
  tidy : r.Tidy
  client_eq : r.client = start.client
  peer_eq : r.peer = start.peer
  sockets : steps.flatMap Step.sockets = r.phase.socket?.toList
  bytes : steps.flatMap (·.event.bytes) =
    Frame.encodeAll (payloads (steps.flatMap (·.effects)) ++ r.phase.inHand) ++ r.decoder.raw
  short : ∀ payload ∈ payloads (steps.flatMap (·.effects)), payload.length ≤ maxPayload
  replies : writtenTo start.client (steps.flatMap (·.effects)) ++ r.phase.unwritten =
    Frame.encodeAll (steps.flatMap (·.event.replies))
  ended : r.ended = true → ∃ step ∈ steps, step.event = .read (.ok [])
  errors : errorLines (steps.flatMap (·.effects)) = []

variable {backend : SocketAddress} {start r r' : FramedRelay} {steps : List Step}
variable {closed : Bool} {number : Nat} {event : Event} {effects : List Effect}

theorem account_accepted (client : Nat) (peer : Address) :
    Account (accepted client peer) [] (accepted client peer) where
  tidy := tidy_accepted client peer
  client_eq := rfl
  peer_eq := rfl
  sockets := rfl
  bytes := rfl
  short := nofun
  replies := rfl
  ended := nofun
  errors := rfl

theorem Transition.payloads_subset {next : Option FramedRelay}
    (h : Transition closed backend number r event next effects) :
    ∀ payload ∈ payloads effects, payload ∈ r.phase.inHand := by
  cases h with
  | sent hphase => simp [hphase, payloads, FramedPhase.inHand]
  | _ => simp [payloads]

theorem Account.step {step : Step} (h : Account start steps r)
    (ht : Transition step.closed backend step.number r step.event (some r') step.effects) :
    Account start (steps ++ [step]) r' := by
  obtain ⟨hclient, hpeer⟩ := ht.keeps rfl
  constructor
  case tidy => exact ht.tidy h.tidy
  case client_eq => exact hclient.trans h.client_eq
  case peer_eq => exact hpeer.trans h.peer_eq
  case sockets =>
    rw [List.flatMap_append, h.sockets, List.flatMap_singleton]
    exact ht.sockets
  case bytes =>
    -- The balance of the last step continues that of the steps before it.
    have hbytes := ht.bytes h.tidy
    simp only [List.flatMap_append, List.flatMap_singleton, payloads_append,
      Frame.encodeAll_append, List.append_assoc] at hbytes ⊢
    rw [h.bytes, ← hbytes, Frame.encodeAll_append]
    simp only [List.append_assoc]
  case short =>
    intro payload hpayload
    rw [List.flatMap_append, payloads_append, List.flatMap_singleton] at hpayload
    rcases List.mem_append.mp hpayload with hold | hnew
    · exact h.short payload hold
    · exact h.tidy.short payload (ht.payloads_subset payload hnew)
  case replies =>
    have hunwritten := ht.unwritten
    simp only [List.flatMap_append, List.flatMap_singleton, writtenTo_append,
      Frame.encodeAll_append, List.append_assoc]
    rw [← h.replies, List.append_assoc, hunwritten, h.client_eq]
  case ended =>
    intro hended
    rcases ht.ended_iff.mp hended with hold | hnow
    · obtain ⟨step', hmem, hread⟩ := h.ended hold
      exact ⟨step', List.mem_append_left _ hmem, hread⟩
    · exact ⟨step, List.mem_append_right _ List.mem_cons_self, hnow⟩
  case errors =>
    rw [List.flatMap_append, errorLines_append, h.errors, List.flatMap_singleton,
      ht.errorLines_eq_nil]
    rfl

theorem account_of_life {client : Nat} {peer : Address} {next : Option FramedRelay}
    (h : Life backend (accepted client peer) steps next) (hnext : next = some r) :
    Account (accepted client peer) steps r := by
  induction h generalizing r with
  | accepted =>
    cases hnext
    exact account_accepted client peer
  | step _ ht ih =>
    cases hnext
    exact (ih rfl).step ht

theorem length_sockets_of_life {client : Nat} {peer : Address} {next : Option FramedRelay}
    (h : Life backend (accepted client peer) steps next) :
    (steps.flatMap Step.sockets).length ≤ 1 := by
  have hlive : ∀ {steps r}, Life backend (accepted client peer) steps (some r) →
      (steps.flatMap Step.sockets).length ≤ 1 := by
    intro steps r hlife
    rw [(account_of_life hlife rfl).sockets, Option.length_toList]
    split <;> simp
  cases next with
  | some r => exact hlive h
  | none =>
    cases h with
    | step hlife ht =>
      rw [List.flatMap_append, List.flatMap_singleton, ht.sockets_eq_nil, List.append_nil]
      exact hlive hlife

/-- Before a relay has a socket nothing is read for it and no reply is received. -/
theorem no_input_of_life {client : Nat} {peer : Address} {next : Option FramedRelay}
    (h : Life backend (accepted client peer) steps next)
    (hnone : steps.flatMap Step.sockets = []) :
    steps.flatMap (·.event.bytes) = [] ∧ steps.flatMap (·.event.replies) = [] := by
  induction h with
  | accepted => exact ⟨rfl, rfl⟩
  | step hlife ht ih =>
    rw [List.flatMap_append, List.append_eq_nil_iff] at hnone
    obtain ⟨hbytes, hreplies⟩ := ih hnone.1
    have hphase := (account_of_life hlife rfl).sockets
    rw [hnone.1] at hphase
    obtain ⟨hbytes', hreplies'⟩ := ht.no_input (Option.toList_eq_nil_iff.mp hphase.symm)
    simp only [List.flatMap_append, List.flatMap_singleton, hbytes, hreplies, hbytes', hreplies']
    exact ⟨rfl, rfl⟩

/-- The frames of the stream are those sent, the one in hand, and those still in the decoder. -/
theorem Account.splits (h : Account start steps r) :
    Frame.Splits (steps.flatMap (·.event.bytes))
      (payloads (steps.flatMap (·.effects)) ++ r.phase.inHand ++ r.decoder.drain.1)
      r.decoder.drain.2.2.raw := by
  obtain ⟨hrest, -⟩ := Decoder.drain_splits h.tidy.sound (Prod.ext rfl (Prod.ext rfl rfl))
  refine ⟨?_, ?_, hrest.last⟩
  · rw [h.bytes, Frame.encodeAll_append _ r.decoder.drain.1, List.append_assoc, ← hrest.eq]
  · intro payload hpayload
    rcases List.mem_append.mp hpayload with hdone | hleft
    · rcases List.mem_append.mp hdone with hsent | hheld
      · exact h.short payload hsent
      · exact h.tidy.short payload hheld
    · exact hrest.short payload hleft

end PortForward.FramedRelay

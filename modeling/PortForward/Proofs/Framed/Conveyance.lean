import PortForward.Proofs.Framed.Account

/-!
# What a framed relay conveys

From the account of a relay: whatever happens, it has sent a beginning of the frames of its
stream and written a beginning of the frames of the replies. It has sent and written them all
once it has nothing left to do, and also when it ends with no call having failed; only a close
of the proxy may come before the frames that are still in the decoder.
-/

namespace PortForward.FramedRelay

/-- The relay waits for its client, or for the backend. -/
def AtRest (r : FramedRelay) : Prop := (∃ socket, r.phase = .waiting socket) ∧ r.readable = false

/-- The last step of a relay of which no call failed, after the steps `before`, when `rest` is
what follows the complete frames of its stream. -/
inductive Ending (client : Nat) (peer : Address) (before : List Step) (rest : Bytes) : Step → Prop
  | oversized {closed number} : Frame.IsOversized rest →
      Ending client peer before rest ⟨closed, number, .decode,
        [.log (.framedFailed peer FrameError.oversizedHeader.toIoError), .release client]⟩
  | truncated {closed number} : Frame.IsPartial rest → rest.length ≠ 0 → rest.length ≠ 2 →
      (∃ step ∈ before, step.event = .read (.ok [])) →
      Ending client peer before rest ⟨closed, number, .decode,
        [.log (.framedFailed peer FrameError.truncated.toIoError), .release client]⟩
  /-- also just after a header, which the decoder has consumed by then -/
  | finished {closed number} : Frame.IsPartial rest → rest.length = 0 ∨ rest.length = 2 →
      (∃ step ∈ before, step.event = .read (.ok [])) →
      Ending client peer before rest ⟨closed, number, .decode,
        [.log .framedEnded, .release client]⟩
  | stopped {number} : Ending client peer before rest ⟨true, number, .stop, [.release client]⟩

/-- What the steps of a relay have conveyed, when the stream of its client is made of `frames`
and a rest. -/
structure Conveyed (client : Nat) (peer : Address) (steps : List Step) (now : Option FramedRelay)
    (sent : List Bytes) (written : Bytes) (frames : List Bytes) (rest : Bytes) : Prop where
  splits : Frame.Splits (steps.flatMap (·.event.bytes)) frames rest
  decoded : (Decoder.empty.feed (steps.flatMap (·.event.bytes))).drain.1 = frames
  stuck_iff : (Decoder.empty.feed (steps.flatMap (·.event.bytes))).drain.2.1 =
    some .oversizedHeader ↔ Frame.IsOversized rest
  sent_prefix : sent <+: frames
  written_prefix : written <+: Frame.encodeAll (steps.flatMap (·.event.replies))
  at_rest : ∀ r, now = some r → r.AtRest → sent = frames ∧ Frame.IsPartial rest ∧
    written = Frame.encodeAll (steps.flatMap (·.event.replies))
  ended : now = none → (∀ step ∈ steps, step.event.failure? = none) →
    written = Frame.encodeAll (steps.flatMap (·.event.replies)) ∧
    ∃ before last, steps = before ++ [last] ∧ errorLines (before.flatMap (·.effects)) = [] ∧
      (last.event = .decode → sent = frames) ∧ Ending client peer before rest last

variable {backend : SocketAddress} {client : Nat} {peer : Address} {start r : FramedRelay}
variable {steps : List Step} {next : Option FramedRelay}
variable {closed : Bool} {number : Nat} {event : Event} {effects : List Effect}

/-- The last step of a relay takes nothing in and passes nothing on. -/
theorem Transition.silent (h : Transition closed backend number r event none effects) :
    event.bytes = [] ∧ event.replies = [] ∧ payloads effects = [] ∧
      ∀ client, writtenTo client effects = [] := by
  cases h <;> simp [Event.bytes, Event.replies, payloads, writtenTo]

theorem AtRest.drain_eq (h : r.AtRest) (htidy : r.Tidy) :
    r.decoder.drain = ([], none, r.decoder) :=
  Decoder.drain_of_none (htidy.exhausted h.2)

/-- The codec makes of the whole stream what the relay and its decoder make of it. -/
theorem Account.decoded (h : Account start steps r) :
    (Decoder.empty.feed (steps.flatMap (·.event.bytes))).drain.1 =
        payloads (steps.flatMap (·.effects)) ++ r.phase.inHand ++ r.decoder.drain.1 ∧
      ((Decoder.empty.feed (steps.flatMap (·.event.bytes))).drain.2.1 = some .oversizedHeader ↔
        Frame.IsOversized r.decoder.drain.2.2.raw) := by
  have hshort : ∀ payload ∈ payloads (steps.flatMap (·.effects)) ++ r.phase.inHand,
      payload.length ≤ maxPayload := by
    intro payload hpayload
    rcases List.mem_append.mp hpayload with hsent | hheld
    · exact h.short payload hsent
    · exact h.tidy.short payload hheld
  obtain ⟨hframes, herror⟩ := Decoder.drain_feed h.tidy.sound h.bytes hshort
  refine ⟨hframes, ?_⟩
  rw [herror]
  exact Decoder.drain_stuck_iff h.tidy.sound

theorem Account.written_prefix (h : Account start steps r) :
    writtenTo start.client (steps.flatMap (·.effects)) <+:
      Frame.encodeAll (steps.flatMap (·.event.replies)) :=
  ⟨r.phase.unwritten, h.replies⟩

theorem Account.of_waiting (h : Account start steps r) {socket : Nat}
    (hphase : r.phase = .waiting socket) :
    payloads (steps.flatMap (·.effects)) ++ r.phase.inHand = payloads (steps.flatMap (·.effects)) ∧
      writtenTo start.client (steps.flatMap (·.effects)) =
        Frame.encodeAll (steps.flatMap (·.event.replies)) := by
  have hreplies := h.replies
  rw [hphase] at hreplies ⊢
  exact ⟨List.append_nil _, (List.append_nil _).symm.trans hreplies⟩

theorem Account.conveyed (h : Account (accepted client peer) steps r) :
    Conveyed client peer steps (some r) (payloads (steps.flatMap (·.effects)))
      (writtenTo client (steps.flatMap (·.effects)))
      (payloads (steps.flatMap (·.effects)) ++ r.phase.inHand ++ r.decoder.drain.1)
      r.decoder.drain.2.2.raw := by
  refine ⟨h.splits, h.decoded.1, h.decoded.2, ?_, h.written_prefix, ?_, nofun⟩
  · rw [List.append_assoc]
    exact List.prefix_append _ _
  · intro r' hr' hrest
    cases hr'
    obtain ⟨socket, hphase⟩ := hrest.1
    obtain ⟨hsent, hwritten⟩ := h.of_waiting hphase
    have hdrain := hrest.drain_eq h.tidy
    obtain ⟨-, -, hpartial, -⟩ := Decoder.next_none h.tidy.sound (h.tidy.exhausted hrest.2)
    rw [hsent, hdrain]
    exact ⟨(List.append_nil _).symm, hpartial, hwritten⟩

/-- A relay of which no call failed has sent all that its decoder could give, unless its proxy
was closed, and has written all replies. -/
theorem Account.ending (h : Account (accepted client peer) steps r)
    (ht : Transition closed backend number r event none effects) (hok : event.failure? = none) :
    (∃ socket, r.phase = .waiting socket) ∧ (event = .decode → r.decoder.drain.1 = []) ∧
      Ending client peer steps r.decoder.drain.2.2.raw ⟨closed, number, event, effects⟩ := by
  have hclient : r.client = client := h.client_eq
  have hpeer : r.peer = peer := h.peer_eq
  cases ht with
  | openFailed | readFailed | sendFailed | receiveFailed | writeFailed => cases hok
  | oversized hphase _ hnext =>
    obtain ⟨-, rfl, hover⟩ := Decoder.next_error hnext
    rw [Decoder.drain_of_error hnext, hclient, hpeer]
    exact ⟨⟨_, hphase⟩, fun _ => rfl, .oversized hover⟩
  | truncated hphase _ hended hnext hbuffer =>
    obtain ⟨hraw, -, hpartial, hagain⟩ := Decoder.next_none h.tidy.sound hnext
    rw [← hraw] at hpartial
    have hlength := mt (Decoder.buffer_eq_nil_iff hagain).mpr hbuffer
    rw [Decoder.drain_of_none hnext, hclient, hpeer]
    exact ⟨⟨_, hphase⟩, fun _ => rfl, .truncated hpartial (fun h => hlength (.inl h))
      (fun h => hlength (.inr h)) (h.ended hended)⟩
  | finished hphase _ hended hnext hbuffer =>
    obtain ⟨hraw, -, hpartial, hagain⟩ := Decoder.next_none h.tidy.sound hnext
    rw [← hraw] at hpartial
    have hlength := (Decoder.buffer_eq_nil_iff hagain).mp hbuffer
    rw [Decoder.drain_of_none hnext, hclient]
    exact ⟨⟨_, hphase⟩, fun _ => rfl, .finished hpartial hlength (h.ended hended)⟩
  | stopped hphase hclosed =>
    rw [hclosed, hclient]
    exact ⟨⟨_, hphase⟩, nofun, .stopped⟩

theorem Account.conveyed_of_ended {step : Step} (h : Account (accepted client peer) steps r)
    (ht : Transition step.closed backend step.number r step.event none step.effects) :
    Conveyed client peer (steps ++ [step]) none
      (payloads ((steps ++ [step]).flatMap (·.effects)))
      (writtenTo client ((steps ++ [step]).flatMap (·.effects)))
      (payloads (steps.flatMap (·.effects)) ++ r.phase.inHand ++ r.decoder.drain.1)
      r.decoder.drain.2.2.raw := by
  obtain ⟨hbytes, hreplies, hpayloads, hwritten⟩ := ht.silent
  simp only [List.flatMap_append, List.flatMap_singleton, payloads_append, writtenTo_append,
    hpayloads, hwritten, List.append_nil]
  constructor
  case splits => simpa [hbytes] using h.splits
  case decoded => simpa [hbytes] using h.decoded.1
  case stuck_iff => simpa [hbytes] using h.decoded.2
  case sent_prefix =>
    rw [List.append_assoc]
    exact List.prefix_append _ _
  case written_prefix => simpa [hreplies] using h.written_prefix
  case at_rest => nofun
  case ended =>
    intro _ hok
    obtain ⟨⟨socket, hphase⟩, hall, hending⟩ :=
      h.ending ht (hok step (List.mem_append_right _ List.mem_cons_self))
    obtain ⟨hsent, hout⟩ := h.of_waiting hphase
    refine ⟨by simpa [hreplies] using hout, steps, step, rfl, h.errors, ?_, hending⟩
    intro hdecode
    rw [hsent, hall hdecode, List.append_nil]

theorem conveyed_of_life (h : Life backend (accepted client peer) steps next) :
    ∃ frames rest, Conveyed client peer steps next (payloads (steps.flatMap (·.effects)))
      (writtenTo client (steps.flatMap (·.effects))) frames rest := by
  cases next with
  | some r => exact ⟨_, _, (account_of_life h rfl).conveyed⟩
  | none =>
    cases h with
    | step hlife ht => exact ⟨_, _, (account_of_life hlife rfl).conveyed_of_ended ht⟩

end PortForward.FramedRelay

import PortForward.Proofs.Effects
import PortForward.Proofs.Framed.Transition

/-!
# The life of a framed relay

A relay from its acceptance on, as a list of the steps it has made. At every moment the bytes
read from its client are the frames of what it has sent, of what it is sending, and what its
decoder stands for; what it has written and what it is still writing are the frames of the
replies. A reply may arrive while half a frame has been read: nothing of the decoder changes
then, so the balance of the bytes is not touched.
-/

namespace PortForward

def FramedPhase.inHand : FramedPhase → List Bytes
  | sending _ payload _ => [payload]
  | _ => []

def FramedPhase.unwritten : FramedPhase → Bytes
  | writing _ rest => rest
  | _ => []

namespace FramedRelay

namespace Event

def bytes : Event → Bytes
  | read (.ok bytes) => bytes
  | _ => []

/-- The reply that is received with an event, as far as it fits into the relay's buffer. -/
def replies : Event → List Bytes
  | receive (.ok payload) => [payload.take maxPayload]
  | _ => []

def failure? : Event → Option IoError
  | opened (.error e) | read (.error e) | send (.error e) | receive (.error e)
  | write (.error e) => some e
  | _ => none

end Event

/-- A step of a relay: whether its proxy was closed, the number for the next socket, the event
and the effects. -/
structure Step where
  closed : Bool
  number : Nat
  event : Event
  effects : List Effect

def Step.sockets (step : Step) : List Nat :=
  match step.event with
  | .opened (.ok ()) => [step.number]
  | _ => []

/-- The steps of a relay since its acceptance, and what is left of it. -/
inductive Life (backend : SocketAddress) (start : FramedRelay) :
    List Step → Option FramedRelay → Prop
  | accepted : Life backend start [] (some start)
  | step {steps r step next} : Life backend start steps (some r) →
      Transition step.closed backend step.number r step.event next step.effects →
      Life backend start (steps ++ [step]) next

/-- What always holds of a relay itself. -/
structure Tidy (r : FramedRelay) : Prop where
  sound : r.decoder.Sound
  exhausted : r.readable = false → r.decoder.next = (.ok none, r.decoder)
  short : ∀ payload ∈ r.phase.inHand, payload.length ≤ maxPayload
  unfinished : ∀ socket rest, r.phase = .writing socket rest → rest ≠ []

variable {closed : Bool} {backend : SocketAddress} {number : Nat} {r r' : FramedRelay}
variable {event : Event} {next : Option FramedRelay} {effects : List Effect}

@[simp] theorem client_accepted (client : Nat) (peer : Address) :
    (accepted client peer).client = client := rfl

theorem tidy_accepted (client : Nat) (peer : Address) : (accepted client peer).Tidy where
  sound := Decoder.sound_empty
  exhausted _ := rfl
  short := nofun
  unfinished := nofun

namespace Transition

theorem tidy (h : Transition closed backend number r event (some r') effects) (hr : r.Tidy) :
    r'.Tidy := by
  obtain ⟨hsound, hexhausted, hshort, hunfinished⟩ := hr
  cases h with
  | announced | opened | sent =>
    refine ⟨hsound, hexhausted, fun _ hpayload => absurd hpayload List.not_mem_nil, ?_⟩
    intro socket rest hrest
    cases hrest
  | ended hphase | read hphase =>
    refine ⟨hsound, ?_, hshort, hunfinished⟩
    intro hreadable
    cases hreadable
  | decoded hphase hreadable hnext =>
    obtain ⟨hle, -, hsound'⟩ := Decoder.next_some hsound hnext
    refine ⟨hsound', ?_, ?_, ?_⟩
    · intro hunread
      cases hreadable.symm.trans hunread
    · intro payload hpayload
      cases List.mem_singleton.mp hpayload
      exact hle
    · intro socket rest hrest
      cases hrest
  | exhausted hphase hreadable hended hnext =>
    obtain ⟨-, hsound', -, hagain⟩ := Decoder.next_none hsound hnext
    exact ⟨hsound', fun _ => hagain, hshort, hunfinished⟩
  | refusedOnce hphase =>
    rw [hphase] at hshort
    refine ⟨hsound, hexhausted, hshort, ?_⟩
    intro socket rest hrest
    cases hrest
  | received =>
    refine ⟨hsound, hexhausted, fun _ hpayload => absurd hpayload List.not_mem_nil, ?_⟩
    intro socket rest hrest
    cases hrest
    have hle : ∀ payload : Bytes, (payload.take maxPayload).length ≤ maxPayload := by
      intro payload
      rw [List.length_take]
      omega
    rw [Frame.encodeAll_singleton (hle _), Frame.header]
    exact List.cons_ne_nil _ _
  | receiveRefused => exact ⟨hsound, hexhausted, hshort, hunfinished⟩
  | @wrote socket rest n hphase hpos hn =>
    refine ⟨hsound, hexhausted, ?_, ?_⟩
    · intro payload hpayload
      dsimp only at hpayload
      split at hpayload <;> cases hpayload
    · intro socket' rest' hrest
      dsimp only at hrest
      split at hrest
      · cases hrest
      · cases hrest
        intro hnil
        have hlength := congrArg List.length hnil
        rw [List.length_drop, List.length_nil] at hlength
        omega

/-- The bytes that a relay holds and those that come in are those that it sends and holds. -/
theorem bytes (h : Transition closed backend number r event (some r') effects) (hr : r.Tidy) :
    Frame.encodeAll r.phase.inHand ++ r.decoder.raw ++ event.bytes =
      Frame.encodeAll (payloads effects ++ r'.phase.inHand) ++ r'.decoder.raw := by
  cases h with
  | announced hphase | opened hphase | received hphase =>
    simp [hphase, FramedPhase.inHand, payloads, Event.bytes]
  | ended | receiveRefused => simp [payloads, Event.bytes]
  | read => simp [payloads, Event.bytes, Decoder.raw_feed]
  | decoded hphase _ hnext =>
    obtain ⟨hle, hraw, -⟩ := Decoder.next_some hr.sound hnext
    simp [hphase, FramedPhase.inHand, payloads, Event.bytes, hraw, Frame.encodeAll_singleton hle,
      Frame.encodeAll]
  | exhausted _ _ _ hnext =>
    obtain ⟨hraw, -⟩ := Decoder.next_none hr.sound hnext
    simp [payloads, Event.bytes, hraw]
  | sent hphase | refusedOnce hphase => simp [hphase, FramedPhase.inHand, payloads, Event.bytes]
  | @wrote socket rest n hphase =>
    by_cases hall : n = rest.length
    · simp [hphase, hall, FramedPhase.inHand, payloads, Event.bytes]
    · simp [hphase, hall, FramedPhase.inHand, payloads, Event.bytes]

/-- The bytes that a relay has still to write, and the frame of a reply that comes in, are those
that it writes and has still to write. -/
theorem unwritten (h : Transition closed backend number r event (some r') effects) :
    r.phase.unwritten ++ Frame.encodeAll event.replies =
      writtenTo r.client effects ++ r'.phase.unwritten := by
  cases h with
  | announced hphase | opened hphase | sent hphase | refusedOnce hphase | decoded hphase
  | received hphase =>
    simp [hphase, FramedPhase.unwritten, writtenTo, Event.replies, Frame.encodeAll]
  | ended | read | exhausted | receiveRefused => simp [writtenTo, Event.replies, Frame.encodeAll]
  | @wrote socket rest n hphase =>
    by_cases hall : n = rest.length
    · simp [hphase, hall, FramedPhase.unwritten, writtenTo, Event.replies, Frame.encodeAll]
    · simp [hphase, hall, FramedPhase.unwritten, writtenTo, Event.replies, Frame.encodeAll]

theorem sockets (h : Transition closed backend number r event (some r') effects) :
    r.phase.socket?.toList ++ Step.sockets ⟨closed, number, event, effects⟩ =
      r'.phase.socket?.toList := by
  cases h with
  | announced hphase | opened hphase | sent hphase | refusedOnce hphase | decoded hphase
  | received hphase => simp [hphase, FramedPhase.socket?, Step.sockets]
  | ended | read | exhausted | receiveRefused => simp [Step.sockets]
  | @wrote socket rest n hphase =>
    by_cases hall : n = rest.length
    · simp [hphase, hall, FramedPhase.socket?, Step.sockets]
    · simp [hphase, hall, FramedPhase.socket?, Step.sockets]

theorem sockets_eq_nil (h : Transition closed backend number r event none effects) :
    Step.sockets ⟨closed, number, event, effects⟩ = [] := by
  cases h <;> rfl

theorem no_input (h : Transition closed backend number r event next effects)
    (hnone : r.phase.socket? = none) : event.bytes = [] ∧ event.replies = [] := by
  cases h with
  | read hphase | received hphase => simp [hphase, FramedPhase.socket?] at hnone
  | _ => exact ⟨rfl, rfl⟩

/-- What a relay sends goes out on its socket, and what it writes to its client. -/
theorem effect_own (h : Transition closed backend number r event next effects) {effect : Effect}
    (heffect : effect ∈ effects) :
    match effect with
    | .transmit socket _ => r.phase.socket? = some socket
    | .deliver client side _ => client = r.client ∧ side = .client
    | .log _ => True
    | .release client => client = r.client
    | _ => False := by
  cases h <;> simp at heffect
  all_goals rcases heffect with rfl | rfl
  all_goals simp [FramedPhase.socket?, *]

theorem errorLines_eq_nil (h : Transition closed backend number r event (some r') effects) :
    errorLines effects = [] := by
  cases h <;> rfl

theorem ended_iff (h : Transition closed backend number r event (some r') effects) :
    r'.ended = true ↔ r.ended = true ∨ event = .read (.ok []) := by
  cases h with
  | read _ _ hbytes => simp [hbytes]
  | _ => simp

end Transition

/-- A relay that has ended lived until its last step. -/
theorem exists_last_of_life {start : FramedRelay} {steps : List Step}
    (h : Life backend start steps none) :
    ∃ before r last, steps = before ++ [last] ∧ Life backend start before (some r) ∧
      Transition last.closed backend last.number r last.event none last.effects := by
  cases h with
  | step hlife ht => exact ⟨_, _, _, rfl, hlife, ht⟩

end FramedRelay

end PortForward

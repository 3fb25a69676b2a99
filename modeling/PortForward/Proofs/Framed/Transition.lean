import PortForward.Proofs.Frame.Splitting
import PortForward.Relay.Framed

/-!
# Transitions of a framed relay

Everything that a step of a framed relay can do, one constructor for each, with what is left
of the relay and what the step does to the world around it. A reply always fits into a
frame, since no more than that is received of it.
-/

namespace PortForward.FramedRelay

/-- The steps of a relay, given whether its proxy is closed, the backend, and the number for the
next socket. -/
inductive Transition (closed : Bool) (backend : SocketAddress) (number : Nat) (r : FramedRelay) :
    Event → Option FramedRelay → List Effect → Prop
  | announced : r.phase = .accepted →
      Transition closed backend number r .announce (some { r with phase := .opening })
        [.log (.framedAccepted r.peer)]
  | opened : r.phase = .opening →
      Transition closed backend number r (.opened (.ok ()))
        (some { r with phase := .waiting number }) []
  | openFailed {e} : r.phase = .opening →
      Transition closed backend number r (.opened (.error e)) none
        [.log (.framedFailed r.peer e), .release r.client]
  | ended {socket} : r.phase = .waiting socket → r.readable = false →
      Transition closed backend number r (.read (.ok []))
        (some { r with readable := true, ended := true }) []
  | read {socket bytes} : r.phase = .waiting socket → r.readable = false → bytes ≠ [] →
      Transition closed backend number r (.read (.ok bytes))
        (some { r with readable := true, decoder := r.decoder.feed bytes }) []
  | readFailed {socket e} : r.phase = .waiting socket → r.readable = false →
      Transition closed backend number r (.read (.error e)) none
        [.log (.framedFailed r.peer e), .release r.client]
  | decoded {socket payload decoder} : r.phase = .waiting socket → r.readable = true →
      r.decoder.next = (.ok (some payload), decoder) →
      Transition closed backend number r .decode
        (some { r with decoder, phase := .sending socket payload false }) []
  | exhausted {socket decoder} : r.phase = .waiting socket → r.readable = true →
      r.ended = false → r.decoder.next = (.ok none, decoder) →
      Transition closed backend number r .decode (some { r with decoder, readable := false }) []
  | oversized {socket decoder} : r.phase = .waiting socket → r.readable = true →
      r.decoder.next = (.error .oversizedHeader, decoder) →
      Transition closed backend number r .decode none
        [.log (.framedFailed r.peer FrameError.oversizedHeader.toIoError), .release r.client]
  | truncated {socket decoder} : r.phase = .waiting socket → r.readable = true →
      r.ended = true → r.decoder.next = (.ok none, decoder) → decoder.buffer ≠ [] →
      Transition closed backend number r .decode none
        [.log (.framedFailed r.peer FrameError.truncated.toIoError), .release r.client]
  | finished {socket decoder} : r.phase = .waiting socket → r.readable = true →
      r.ended = true → r.decoder.next = (.ok none, decoder) → decoder.buffer = [] →
      Transition closed backend number r .decode none [.log .framedEnded, .release r.client]
  | sent {socket payload retried} : r.phase = .sending socket payload retried →
      Transition closed backend number r (.send (.ok ()))
        (some { r with phase := .waiting socket })
        [.transmit socket payload, .log (.framedForwarded payload.length backend)]
  | refusedOnce {socket payload e} : r.phase = .sending socket payload false →
      e.kind = .connectionRefused →
      Transition closed backend number r (.send (.error e))
        (some { r with phase := .sending socket payload true }) []
  | sendFailed {socket payload retried e} : r.phase = .sending socket payload retried →
      ¬ (e.kind = .connectionRefused ∧ ¬ retried) →
      Transition closed backend number r (.send (.error e)) none
        [.log (.framedFailed r.peer e), .release r.client]
  | received {socket payload} : r.phase = .waiting socket →
      Transition closed backend number r (.receive (.ok payload))
        (some
          { r with phase := .writing socket (Frame.encodeAll [payload.take maxPayload]) }) []
  | receiveRefused {socket e} : r.phase = .waiting socket → e.kind = .connectionRefused →
      Transition closed backend number r (.receive (.error e)) (some r)
        [.log (.framedRefused backend)]
  | receiveFailed {socket e} : r.phase = .waiting socket → e.kind ≠ .connectionRefused →
      Transition closed backend number r (.receive (.error e)) none
        [.log (.framedFailed r.peer e), .release r.client]
  | wrote {socket rest n} : r.phase = .writing socket rest → 0 < n → n ≤ rest.length →
      Transition closed backend number r (.write (.ok n))
        (some
          { r with
            phase := if n = rest.length then .waiting socket else .writing socket (rest.drop n) })
        [.deliver r.client .client (rest.take n)]
  | writeFailed {socket rest e} : r.phase = .writing socket rest →
      Transition closed backend number r (.write (.error e)) none
        [.log (.framedFailed r.peer e), .release r.client]
  | stopped {socket} : r.phase = .waiting socket → closed = true →
      Transition closed backend number r .stop none [.release r.client]

variable {closed : Bool} {backend : SocketAddress} {number : Nat} {r : FramedRelay}
variable {next : Option FramedRelay} {effects : List Effect}

theorem Transition.keeps {event : Event} (h : Transition closed backend number r event next effects)
    {r' : FramedRelay} (hr' : next = some r') : r'.client = r.client ∧ r'.peer = r.peer := by
  cases h <;> cases hr' <;> exact ⟨rfl, rfl⟩

theorem transition_of_decoded {socket : Nat} (hphase : r.phase = .waiting socket)
    (hreadable : r.readable = true) (h : r.decoded socket = (next, effects)) :
    Transition closed backend number r .decode next effects := by
  unfold decoded at h
  cases hnext : r.decoder.next with
  | mk answer decoder =>
    by_cases hended : r.ended = true
    · rw [if_pos hended, Decoder.nextAtEnd, hnext] at h
      cases answer with
      | error e =>
        obtain ⟨rfl, -, -⟩ := Decoder.next_error hnext
        cases h
        exact .oversized hphase hreadable hnext
      | ok frame =>
        cases frame with
        | some payload =>
          cases h
          exact .decoded hphase hreadable hnext
        | none =>
          by_cases hbuffer : decoder.buffer = []
          · simp only [hbuffer, hended, if_true] at h
            cases h
            exact .finished hphase hreadable hended hnext hbuffer
          · simp only [hbuffer, if_false] at h
            cases h
            exact .truncated hphase hreadable hended hnext hbuffer
    · rw [if_neg hended, hnext] at h
      cases answer with
      | error e =>
        obtain ⟨rfl, -, -⟩ := Decoder.next_error hnext
        cases h
        exact .oversized hphase hreadable hnext
      | ok frame =>
        cases frame with
        | some payload =>
          cases h
          exact .decoded hphase hreadable hnext
        | none =>
          dsimp only at h
          rw [if_neg hended] at h
          cases h
          exact .exhausted hphase hreadable (by simpa using hended) hnext

theorem transition_of_step {event : Event}
    (h : r.step closed backend number event = some (next, effects)) :
    Transition closed backend number r event next effects := by
  cases event with
  | announce =>
    simp only [step] at h
    split at h
    · cases h
      exact .announced ‹_›
    · cases h
  | opened result =>
    simp only [step] at h
    split at h
    · cases h
      exact .opened ‹_›
    · cases h
      exact .openFailed ‹_›
    · cases h
  | read result =>
    simp only [step] at h
    split at h
    · rename_i socket hphase
      split at h
      · cases h
      · rename_i hreadable
        have hreadable : r.readable = false := by simpa using hreadable
        split at h
        · cases h
          exact .ended hphase hreadable
        · rename_i bytes hbytes
          cases h
          exact .read hphase hreadable hbytes
        · cases h
          exact .readFailed hphase hreadable
    · cases h
  | decode =>
    simp only [step] at h
    split at h
    · rename_i socket hphase
      split at h
      · rename_i hreadable
        exact transition_of_decoded hphase hreadable (Option.some.inj h)
      · cases h
    · cases h
  | send result =>
    simp only [step] at h
    split at h
    · cases h
      exact .sent ‹_›
    · rename_i socket payload retried e hphase
      split at h
      · rename_i hretry
        cases h
        obtain rfl : retried = false := by simpa using hretry.2
        exact .refusedOnce hphase hretry.1
      · rename_i hretry
        cases h
        exact .sendFailed hphase hretry
    · cases h
  | receive result =>
    simp only [step] at h
    split at h
    · rename_i socket payload hphase
      have hle : (payload.take maxPayload).length ≤ maxPayload := by
        rw [List.length_take]
        omega
      rw [Frame.encode_of_le hle] at h
      cases h
      rw [← Frame.encodeAll_singleton hle]
      exact .received hphase
    · rename_i socket e hphase
      split at h
      · rename_i hkind
        cases h
        exact .receiveRefused hphase hkind
      · rename_i hkind
        cases h
        exact .receiveFailed hphase hkind
    · cases h
  | write result =>
    simp only [step] at h
    split at h
    · rename_i socket rest n hphase
      split at h
      · rename_i hn
        cases h
        exact .wrote hphase hn.1 hn.2
      · cases h
    · cases h
      exact .writeFailed ‹_›
    · cases h
  | stop =>
    simp only [step] at h
    split at h
    · rename_i socket hclosed hphase
      cases h
      exact .stopped hphase rfl
    · cases h

end PortForward.FramedRelay

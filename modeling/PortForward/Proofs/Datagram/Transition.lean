import PortForward.Relay.Datagram

/-!
# Transitions of the datagram relay

Everything that a step of the relay can do, one constructor for each. What the relay keeps
in every step is shown once for each of these.
-/

namespace PortForward

namespace DatagramRelay

/-- The steps of a relay, given whether its proxy is closed. -/
inductive Transition (closed : Bool) (r : DatagramRelay) : Event → Turn DatagramRelay → Prop
  | advance (d : Nat) : Transition closed r (.advance d) (.on { r with now := r.now + d } [])
  | sweep : r.loop = .waiting → r.nextSweep ≤ r.now → Transition closed r .sweep r.sweepNow
  | received {client payload} : r.loop = .waiting →
      Transition closed r (.receive (.ok (client, payload)))
        (.on { r with loop := .looking client (payload.take maxPayload) } [])
  | receiveFailed {e} : r.loop = .waiting →
      Transition closed r (.receive (.error e)) (.on { r with loop := .draining (.failed e) } [])
  | found {client payload flow} (opening : Opening) : r.loop = .looking client payload →
      r.table.find? client = some flow →
      Transition closed r (.lookUp opening)
        (.on
          { r with
            loop := .sending client payload flow.socket false
            table := r.table.touch client r.now } [])
  | unopened {client payload opening e} : r.loop = .looking client payload →
      r.table.find? client = none → opening.connected = .error e →
      Transition closed r (.lookUp opening) (r.giveUp client e)
  /-- the socket's own address is to be shown and cannot be had -/
  | unnamed {client payload opening e} : r.loop = .looking client payload →
      r.table.find? client = none → opening.connected = .ok () → r.level.shows .info →
      opening.localAddress = .error e →
      Transition closed r (.lookUp opening) ({ r with opened := r.opened + 1 }.giveUp client e)
  | opened {client payload opening notices} : r.loop = .looking client payload →
      r.table.find? client = none → opening.connected = .ok () →
      (if r.level.shows .info then
          ∃ a, opening.localAddress = .ok a ∧ notices = [.log (.flowOpened client r.backend a)]
        else notices = []) →
      Transition closed r (.lookUp opening) (.on (r.addFlow client payload) notices)
  | sent {client payload socket retried} : r.loop = .sending client payload socket retried →
      Transition closed r (.send (.ok ()))
        (.on { r with loop := .waiting }
          [.transmit socket payload, .log (.forwarded payload.length client r.backend)])
  | refusedOnce {client payload socket e} : r.loop = .sending client payload socket false →
      e.kind = .connectionRefused →
      Transition closed r (.send (.error e))
        (.on { r with loop := .sending client payload socket true } [])
  | sendFailed {client payload socket retried e} :
      r.loop = .sending client payload socket retried →
      ¬ (e.kind = .connectionRefused ∧ ¬ retried) →
      Transition closed r (.send (.error e)) (r.giveUp client e)
  | stopped : r.loop = .waiting → closed = true →
      Transition closed r .stop (.on { r with loop := .draining .closed } [])
  | drained {loopEnd} : r.loop = .draining loopEnd →
      Transition closed r .drain
        ⟨{ r with loop := .ended, table := [] }.cancelTasks r.table.sockets, [], some loopEnd⟩
  | replyReceived {socket t payload} : r.task? socket = some t → t.phase = .receiving →
      Transition closed r (.replyReceive socket (.ok payload))
        (.on (r.setPhase socket (.refreshing (payload.take maxPayload))) [])
  | replyRefused {socket t e} : r.task? socket = some t → t.phase = .receiving →
      e.kind = .connectionRefused →
      Transition closed r (.replyReceive socket (.error e))
        (.on r [.log (.receiveRefused t.client)])
  | replyBroken {socket t e} : r.task? socket = some t → t.phase = .receiving →
      e.kind ≠ .connectionRefused →
      Transition closed r (.replyReceive socket (.error e))
        (.on (r.setPhase socket .forgetting) [.log (.receiveFailed t.client e)])
  | refreshed {socket t payload} : r.task? socket = some t → t.phase = .refreshing payload →
      Transition closed r (.refresh socket)
        (.on
          ({ r with table := r.table.touch t.client r.now }.setPhase socket (.replying payload)) [])
  | replied {socket t payload} : r.task? socket = some t → t.phase = .replying payload →
      Transition closed r (.replySend socket (.ok ()))
        (.on (r.setPhase socket .receiving)
          [.reply t.client payload, .log (.replied payload.length t.client)])
  | replyFailed {socket t payload e} : r.task? socket = some t → t.phase = .replying payload →
      Transition closed r (.replySend socket (.error e))
        (.on (r.setPhase socket .receiving) [.log (.replyFailed t.client e)])
  | forgot {socket t} : r.task? socket = some t → t.phase = .forgetting →
      Transition closed r (.forget socket)
        (.on ({ r with table := r.table.forget t.client socket }.endTask socket)
          [.log (.repliesStopped t.client)])
  | replyStopped {socket t} : r.task? socket = some t → t.phase = .receiving →
      (t.cancelled ∨ closed) →
      Transition closed r (.replyStop socket)
        (.on (r.endTask socket) [.log (.repliesStopped t.client)])

variable {closed : Bool} {r : DatagramRelay} {event : Event} {turn : Turn DatagramRelay}

theorem step_of_transition (h : Transition closed r event turn) :
    r.step closed event = some turn := by
  cases h with
  | opened hloop hfind hconn hnote =>
    simp only [step, hloop, hfind, openFlow, hconn]
    split at hnote
    · obtain ⟨a, ha, rfl⟩ := hnote
      simp [*]
    · subst hnote
      simp [*]
  | sendFailed hloop hretry =>
    simp only [step, hloop]
    rw [if_neg hretry]
  | _ => simp [step, openFlow, *]

theorem transition_of_lookUp {opening : Opening} (h : r.step closed (.lookUp opening) = some turn) :
    Transition closed r (.lookUp opening) turn := by
  simp only [step] at h
  split at h
  · rename_i client payload hloop
    split at h
    · rename_i flow hfind
      cases h
      exact .found opening hloop hfind
    · rename_i hfind
      simp only [openFlow] at h
      split at h
      · rename_i e hconn
        cases h
        exact .unopened hloop hfind hconn
      · rename_i hconn
        split at h
        · rename_i hshow
          split at h
          · rename_i e haddr
            cases h
            exact .unnamed hloop hfind hconn hshow haddr
          · rename_i a haddr
            cases h
            exact .opened hloop hfind hconn (by rw [if_pos hshow]; exact ⟨a, haddr, rfl⟩)
        · rename_i hshow
          cases h
          exact .opened hloop hfind hconn (by rw [if_neg hshow])
  · cases h

theorem transition_of_send {result : Except IoError Unit}
    (h : r.step closed (.send result) = some turn) : Transition closed r (.send result) turn := by
  simp only [step] at h
  split at h
  · rename_i hloop
    cases h
    exact .sent hloop
  · rename_i client payload socket retried e hloop
    split at h
    · rename_i hretry
      cases h
      obtain rfl : retried = false := by simpa using hretry.2
      exact .refusedOnce hloop hretry.1
    · rename_i hretry
      cases h
      exact .sendFailed hloop hretry
  · cases h

theorem transition_of_replyReceive {socket : Nat} {result : Except IoError Bytes}
    (h : r.step closed (.replyReceive socket result) = some turn) :
    Transition closed r (.replyReceive socket result) turn := by
  obtain ⟨t, ht, hturn⟩ := Option.bind_eq_some_iff.mp h
  split at hturn
  · rename_i hphase
    cases hturn
    exact .replyReceived ht hphase
  · rename_i e hphase
    split at hturn
    · rename_i he
      cases hturn
      exact .replyRefused ht hphase he
    · rename_i he
      cases hturn
      exact .replyBroken ht hphase he
  · cases hturn

theorem transition_of_replySend {socket : Nat} {result : Except IoError Unit}
    (h : r.step closed (.replySend socket result) = some turn) :
    Transition closed r (.replySend socket result) turn := by
  obtain ⟨t, ht, hturn⟩ := Option.bind_eq_some_iff.mp h
  split at hturn
  · rename_i hphase
    cases hturn
    exact .replied ht hphase
  · rename_i hphase
    cases hturn
    exact .replyFailed ht hphase
  · cases hturn

theorem transition_of_step (h : r.step closed event = some turn) :
    Transition closed r event turn := by
  cases event with
  | advance d =>
    cases h
    exact .advance d
  | sweep =>
    simp only [step] at h
    split at h
    · rename_i hs
      cases h
      exact .sweep hs.1 hs.2
    · cases h
  | receive result =>
    simp only [step] at h
    split at h
    · cases h
      exact .received ‹_›
    · cases h
      exact .receiveFailed ‹_›
    · cases h
  | lookUp opening => exact transition_of_lookUp h
  | send result => exact transition_of_send h
  | stop =>
    simp only [step] at h
    split at h
    · rename_i hs
      cases h
      exact .stopped hs.1 hs.2
    · cases h
  | drain =>
    simp only [step] at h
    split at h
    · cases h
      exact .drained ‹_›
    · cases h
  | replyReceive socket result => exact transition_of_replyReceive h
  | refresh socket =>
    obtain ⟨t, ht, hturn⟩ := Option.bind_eq_some_iff.mp h
    split at hturn
    · rename_i hphase
      cases hturn
      exact .refreshed ht hphase
    · cases hturn
  | replySend socket result => exact transition_of_replySend h
  | forget socket =>
    obtain ⟨t, ht, hturn⟩ := Option.bind_eq_some_iff.mp h
    split at hturn
    · rename_i hphase
      cases hturn
      exact .forgot ht hphase
    · cases hturn
  | replyStop socket =>
    obtain ⟨t, ht, hturn⟩ := Option.bind_eq_some_iff.mp h
    split at hturn
    · rename_i hphase
      split at hturn
      · rename_i hend
        cases hturn
        exact .replyStopped ht hphase hend
      · cases hturn
    · cases hturn

/-- The loop goes on as it was, or moves within a run; it is told to stop only when closed. -/
theorem Transition.loop_eq_or (h : Transition closed r event turn) (hend : turn.loopEnd = none) :
    turn.next.loop = r.loop ∨
      ((r.loop ≠ .idle ∧ r.loop ≠ .ended) ∧ (turn.next.loop ≠ .idle ∧ turn.next.loop ≠ .ended) ∧
        (turn.next.loop = .draining .closed → closed = true)) := by
  cases h with
  | drained => cases hend
  | _ => simp [sweepNow, giveUp, addFlow, *]

theorem Transition.loop_of_end (h : Transition closed r event turn) {loopEnd : LoopEnd}
    (hend : turn.loopEnd = some loopEnd) :
    r.loop = .draining loopEnd ∧ turn.next.loop = .ended := by
  cases h with
  | drained hloop =>
    cases hend
    exact ⟨hloop, rfl⟩
  | _ => cases hend

end DatagramRelay

end PortForward

import PortForward.Relay.Effect

/-!
# Framed relays

A datagram proxy on vsock accepts streams that carry frames. The relay of a client opens a
backend socket, sends the payload of each frame on it, and writes each reply back to the
client as a frame. It waits for three things at once: its end, a frame, a reply. While it
sends or writes it waits for nothing else; in particular a relay whose client does not
read notices a close only when its frame has been written.
-/

namespace PortForward

/-- What a framed relay waits for, or does next. -/
inductive FramedPhase
  /-- the relay has not run yet -/
  | accepted
  | opening
  | waiting (socket : Nat)
  | sending (socket : Nat) (payload : Bytes) (retried : Bool)
  /-- bytes of a frame still to be written to the client -/
  | writing (socket : Nat) (rest : Bytes)
  deriving DecidableEq, Repr

def FramedPhase.socket? : FramedPhase → Option Nat
  | accepted | opening => none
  | waiting s | sending s .. | writing s _ => some s

/-- The relay of one accepted stream: its decoder, whether the decoder may have something
to yield, and whether the client has ended its stream. -/
structure FramedRelay where
  client : Nat
  peer : Address
  phase : FramedPhase
  decoder : Decoder
  readable : Bool
  ended : Bool
  deriving DecidableEq, Repr

namespace FramedRelay

def accepted (client : Nat) (peer : Address) : FramedRelay where
  client
  peer
  phase := .accepted
  decoder := .empty
  readable := false
  ended := false

inductive Event
  | announce
  /-- the backend socket is bound and connected, or not -/
  | opened (result : Except IoError Unit)
  | read (result : Except IoError Bytes)
  /-- the decoder is asked for a frame -/
  | decode
  | send (result : Except IoError Unit)
  | receive (result : Except IoError Bytes)
  | write (result : Except IoError Nat)
  /-- the relay notices that the proxy is closed -/
  | stop

def fail (r : FramedRelay) (e : IoError) : Option FramedRelay × List Effect :=
  (none, [.log (.framedFailed r.peer e), .release r.client])

/-- The relay after it asked the decoder. The end of the stream ends it. -/
def decoded (r : FramedRelay) (socket : Nat) : Option FramedRelay × List Effect :=
  match if r.ended then r.decoder.nextAtEnd else r.decoder.next with
  | (.error e, _) => r.fail e.toIoError
  | (.ok (some payload), decoder) =>
    (some { r with decoder, phase := .sending socket payload false }, [])
  | (.ok none, decoder) =>
    if r.ended then (none, [.log .framedEnded, .release r.client])
    else (some { r with decoder, readable := false }, [])

/-- A step of a relay, if it is waiting for this event. A newly opened socket has the given
number. No relay is left when it has ended. -/
def step (closed : Bool) (backend : SocketAddress) (opened : Nat) (r : FramedRelay) :
    Event → Option (Option FramedRelay × List Effect)
  | .announce =>
    match r.phase with
    | .accepted => some (some { r with phase := .opening }, [.log (.framedAccepted r.peer)])
    | _ => none
  | .opened result =>
    match r.phase, result with
    | .opening, .ok () => some (some { r with phase := .waiting opened }, [])
    | .opening, .error e => some (r.fail e)
    | _, _ => none
  | .read result =>
    match r.phase with
    | .waiting _ =>
      if r.readable then none
      else
        match result with
        | .ok [] => some (some { r with readable := true, ended := true }, [])
        | .ok bytes => some (some { r with readable := true, decoder := r.decoder.feed bytes }, [])
        | .error e => some (r.fail e)
    | _ => none
  | .decode =>
    match r.phase with
    | .waiting socket => if r.readable then some (r.decoded socket) else none
    | _ => none
  | .send result =>
    match r.phase, result with
    | .sending socket payload _, .ok () =>
      some (some { r with phase := .waiting socket },
        [.transmit socket payload, .log (.framedForwarded payload.length backend)])
    | .sending socket payload retried, .error e =>
      if e.kind = .connectionRefused ∧ ¬ retried then
        some (some { r with phase := .sending socket payload true }, [])
      else some (r.fail e)
    | _, _ => none
  | .receive result =>
    match r.phase, result with
    | .waiting socket, .ok payload =>
      match Frame.encode (payload.take maxPayload) with
      | .ok wire => some (some { r with phase := .writing socket wire }, [])
      | .error e => some (r.fail e.toIoError)
    | .waiting _, .error e =>
      if e.kind = .connectionRefused then some (some r, [.log (.framedRefused backend)])
      else some (r.fail e)
    | _, _ => none
  | .write result =>
    match r.phase, result with
    | .writing socket rest, .ok n =>
      if 0 < n ∧ n ≤ rest.length then
        let phase := if n = rest.length then .waiting socket else .writing socket (rest.drop n)
        some (some { r with phase }, [.deliver r.client .client (rest.take n)])
      else none
    | .writing _ _, .error e => some (r.fail e)
    | _, _ => none
  | .stop =>
    match closed, r.phase with
    | true, .waiting _ => some (none, [.release r.client])
    | _, _ => none

end FramedRelay

/-- A framed datagram proxy at work: whether its loop accepts clients, how many clients it
has accepted and how many backend sockets it has opened, and the relays that live. -/
structure FramedService where
  backend : SocketAddress
  accepting : Bool
  accepted : Nat
  opened : Nat
  relays : List FramedRelay
  deriving DecidableEq, Repr

namespace FramedService

def idle (backend : SocketAddress) : FramedService := ⟨backend, false, 0, 0, []⟩

def start (s : FramedService) : FramedService := { s with accepting := true }

inductive Event
  | accept (result : Except IoError Address)
  /-- the loop notices that the proxy is closed -/
  | stop
  | relay (client : Nat) (event : FramedRelay.Event)

def relay? (s : FramedService) (client : Nat) : Option FramedRelay :=
  s.relays.find? (·.client = client)

/-- Puts a relay in the place of the one of the same client, or removes that one. -/
def replace (s : FramedService) (client : Nat) (relay : Option FramedRelay) : FramedService :=
  { s with relays := s.relays.filterMap fun r => if r.client = client then relay else some r }

def countOpened (s : FramedService) : FramedRelay.Event → FramedService
  | .opened (.ok ()) => { s with opened := s.opened + 1 }
  | _ => s

def step (closed : Bool) (s : FramedService) : Event → Option (Turn FramedService)
  | .accept (.ok peer) =>
    if s.accepting then
      some (.on
        { s with
          accepted := s.accepted + 1
          relays := s.relays ++ [.accepted s.accepted peer] } [])
    else none
  | .accept (.error e) =>
    if s.accepting then some ⟨{ s with accepting := false }, [], some (.failed e)⟩ else none
  | .stop =>
    if s.accepting ∧ closed then some ⟨{ s with accepting := false }, [], some .closed⟩ else none
  | .relay client event =>
    (s.relay? client).bind fun r =>
      (r.step closed s.backend s.opened event).map fun (r, effects) =>
        .on ((s.replace client r).countOpened event) effects

end FramedService

end PortForward

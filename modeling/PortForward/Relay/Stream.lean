import PortForward.Route
import PortForward.Relay.Effect

/-!
# Stream relays

A stream proxy accepts clients and gives each a relay of its own. The relay dials the
backend and then copies each direction on its own: what was read is held until it is
written, the end of one stream is passed on after all its bytes, and the relay ends when
both directions have ended. Closing the proxy is noticed in every phase of a relay.
-/

namespace PortForward

/-- One direction of a relay, with the bytes read and not yet written, and the number of
bytes written. -/
inductive Half
  | copying (held : Bytes) (moved : Nat)
  /-- the source has ended; what is held is still to be written -/
  | ending (held : Bytes) (moved : Nat)
  | ended (moved : Nat)
  deriving DecidableEq, Repr

namespace Half

def capacity : Nat := 8192

def fresh : Half := copying [] 0

def moved : Half → Nat
  | copying _ n | ending _ n | ended n => n

def isEnded : Half → Bool
  | ended _ => true
  | _ => false

/-- What a call of one direction led to. Reading no bytes is the end of the source. -/
inductive Event
  | read (result : Except IoError Bytes)
  | write (result : Except IoError Nat)
  | shutdown (result : Except IoError Unit)

/-- A step of the direction towards the given side of the given client's relay; an error is for
the whole relay. -/
def step (client : Nat) (target : Side) (h : Half) :
    Event → Option (Except IoError (Half × List Effect))
  | .read result =>
    match h with
    | copying held n =>
      if held.length < capacity then
        match result with
        | .error e => some (.error e)
        | .ok [] => some (.ok (ending held n, []))
        | .ok bytes =>
          if held.length + bytes.length ≤ capacity then some (.ok (copying (held ++ bytes) n, []))
          else none
      else none
    | _ => none
  | .write result =>
    match h, result with
    | copying held n, .ok k =>
      if 0 < k ∧ k ≤ held.length then
        some (.ok (copying (held.drop k) (n + k), [.deliver client target (held.take k)]))
      else none
    | ending held n, .ok k =>
      if 0 < k ∧ k ≤ held.length then
        some (.ok (ending (held.drop k) (n + k), [.deliver client target (held.take k)]))
      else none
    | copying held _, .error e => if held = [] then none else some (.error e)
    | ending held _, .error e => if held = [] then none else some (.error e)
    | ended _, _ => none
  | .shutdown result =>
    match h with
    | ending [] n =>
      match result with
      | .ok () => some (.ok (ended n, [.endStream client target]))
      | .error e => some (.error e)
    | _ => none

end Half

/-- What the relay of a client waits for. -/
inductive StreamPhase
  /-- the relay has not run yet -/
  | accepted
  /-- the client is announced, the backend not yet dialed -/
  | announced
  | dialing
  | copying (fromClient fromBackend : Half)
  deriving DecidableEq, Repr

/-- The relay of one accepted client. -/
structure StreamRelay where
  client : Nat
  peer : Address
  phase : StreamPhase
  deriving DecidableEq, Repr

namespace StreamRelay

inductive Event
  | announce
  | dial
  | connected (result : Except IoError Unit)
  /-- a call of the direction that starts at the given side -/
  | copy (source : Side) (event : Half.Event)
  /-- the relay notices that the proxy is closed -/
  | drop

def fail (r : StreamRelay) (e : IoError) : Option StreamRelay × List Effect :=
  (none, [.log (.connectionFailed r.peer e), .release r.client])

/-- The relay after a step of one direction. It ends with the second direction. -/
def copied (r : StreamRelay) (fromClient fromBackend : Half) (effects : List Effect) :
    Option StreamRelay × List Effect :=
  if fromClient.isEnded ∧ fromBackend.isEnded then
    (none, effects ++
      [.log (.connectionEnded fromClient.moved fromBackend.moved), .release r.client])
  else (some { r with phase := .copying fromClient fromBackend }, effects)

/-- A step of a relay, if it is waiting for this event. No relay is left when it has ended. -/
def step (closed : Bool) (r : StreamRelay) : Event → Option (Option StreamRelay × List Effect)
  | .announce =>
    match r.phase with
    | .accepted => some (some { r with phase := .announced }, [.log (.clientAccepted r.peer)])
    | _ => none
  | .dial =>
    match r.phase with
    | .announced => some (some { r with phase := .dialing }, [.dial r.client])
    | _ => none
  | .connected result =>
    match r.phase, result with
    | .dialing, .ok () => some (some { r with phase := .copying .fresh .fresh }, [])
    | .dialing, .error e => some (r.fail e)
    | _, _ => none
  | .copy source event =>
    match r.phase, source with
    | .copying up down, .client =>
      (up.step r.client .backend event).map fun
        | .ok (up, effects) => r.copied up down effects
        | .error e => r.fail e
    | .copying up down, .backend =>
      (down.step r.client .client event).map fun
        | .ok (down, effects) => r.copied up down effects
        | .error e => r.fail e
    | _, _ => none
  | .drop =>
    match closed, r.phase with
    | true, .accepted => none
    | true, _ => some (none, [.log (.clientDropped r.peer), .release r.client])
    | false, _ => none

end StreamRelay

/-- A stream proxy at work: whether its loop accepts clients, how many it has accepted, and
the relays that live. -/
structure StreamService where
  backend : StreamBackend
  accepting : Bool
  accepted : Nat
  relays : List StreamRelay
  deriving DecidableEq, Repr

namespace StreamService

def idle (backend : StreamBackend) : StreamService := ⟨backend, false, 0, []⟩

def start (s : StreamService) : StreamService := { s with accepting := true }

inductive Event
  | accept (result : Except IoError Address)
  /-- the loop notices that the proxy is closed -/
  | stop
  | relay (client : Nat) (event : StreamRelay.Event)

def relay? (s : StreamService) (client : Nat) : Option StreamRelay :=
  s.relays.find? (·.client = client)

/-- Puts a relay in the place of the one of the same client, or removes that one. -/
def replace (s : StreamService) (client : Nat) (relay : Option StreamRelay) : StreamService :=
  { s with relays := s.relays.filterMap fun r => if r.client = client then relay else some r }

def step (closed : Bool) (s : StreamService) : Event → Option (Turn StreamService)
  | .accept (.ok peer) =>
    if s.accepting then
      let relay := { client := s.accepted, peer, phase := .accepted }
      some (.on { s with accepted := s.accepted + 1, relays := s.relays ++ [relay] } [])
    else none
  | .accept (.error e) =>
    if s.accepting then some ⟨{ s with accepting := false }, [], some (.failed e)⟩ else none
  | .stop =>
    if s.accepting ∧ closed then some ⟨{ s with accepting := false }, [], some .closed⟩ else none
  | .relay client event =>
    (s.relay? client).bind fun r =>
      (r.step closed event).map fun (r, effects) => .on (s.replace client r) effects

end StreamService

end PortForward

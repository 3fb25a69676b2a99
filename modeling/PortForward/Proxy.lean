import PortForward.Gate.Basic
import PortForward.Relay.Datagram
import PortForward.Relay.Framed
import PortForward.Relay.Stream

/-!
# Proxies

A proxy is made already listening on its frontend. It may be run any number of times, but
only the first run of a proxy that is not closed gets the listener and works; a loop that
ends with an error closes the proxy, so that its relays end with it.
-/

namespace PortForward

/-- What a proxy does with its clients. -/
inductive Service
  | stream (s : StreamService)
  | framed (s : FramedService)
  | datagram (s : DatagramRelay)
  deriving DecidableEq, Repr

namespace Service

def backend : Service → Address
  | stream s => s.backend.address
  | framed s => .datagram s.backend
  | datagram s => .datagram s.backend

def start : Service → Service
  | stream s => stream s.start
  | framed s => framed s.start
  | datagram s => datagram s.start

inductive Event
  | stream (event : StreamService.Event)
  | framed (event : FramedService.Event)
  | datagram (event : DatagramRelay.Event)

def step (closed : Bool) : Service → Event → Option (Turn Service)
  | stream s, .stream e => (s.step closed e).map fun t => ⟨stream t.next, t.effects, t.loopEnd⟩
  | framed s, .framed e => (s.step closed e).map fun t => ⟨framed t.next, t.effects, t.loopEnd⟩
  | datagram s, .datagram e =>
    (s.step closed e).map fun t => ⟨datagram t.next, t.effects, t.loopEnd⟩
  | _, _ => none

def runningNotice (frontend : Address) : Service → Notice
  | stream s => .streamRunning frontend s.backend.address
  | framed s => .datagramRunning frontend (.datagram s.backend)
  | datagram s => .datagramRunning frontend (.datagram s.backend)

def stoppedNotice (frontend : Address) : Service → Notice
  | stream _ => .streamStopped frontend
  | _ => .datagramStopped frontend

/-- The loop, or a task that outlives it, holds the frontend. -/
def holdsFrontend : Service → Bool
  | stream s => s.accepting
  | framed s => s.accepting
  | datagram s => s.holdsFrontend

end Service

/-- One call of `run`. -/
inductive Run
  | running
  | stopped
  | failed (e : Failure)
  deriving DecidableEq, Repr

def LoopEnd.result : LoopEnd → Except Failure Unit
  | closed => .ok ()
  | failed e => .error (.io e)

def Run.ofResult : Except Failure Unit → Run
  | .ok () => stopped
  | .error e => failed e

/-- A proxy bound to its frontend, with the calls of `run` made so far. -/
structure Proxy where
  frontend : Address
  gate : Gate Unit
  runs : List Run
  service : Service
  deriving DecidableEq, Repr

namespace Proxy

def bound (frontend : Address) (service : Service) : Proxy := ⟨frontend, .fresh (), [], service⟩

def backend (p : Proxy) : Address := p.service.backend

def isClosed (p : Proxy) : Bool := p.gate.cancelled

/-- The frontend is still bound: the listener waits for a run, or a run holds it. -/
def isBound (p : Proxy) : Bool := p.gate.slot.isSome ∨ p.service.holdsFrontend

/-- A proxy for datagrams takes a timeout for its idle clients; other proxies have none. -/
def withTimeout (p : Proxy) (timeout : Nat) : Proxy :=
  match p.service with
  | .datagram s => { p with service := .datagram { s with timeout } }
  | _ => p

inductive Event
  | run
  | close
  | service (event : Service.Event)

/-- A run that is refused leaves everything but the list of runs as it was. -/
def run (p : Proxy) : Proxy × List Effect :=
  match p.gate.start with
  | (.error e, gate) => ({ p with gate, runs := p.runs ++ [.failed e] }, [])
  | (.ok (), gate) =>
    ({ p with gate, runs := p.runs ++ [.running], service := p.service.start },
      [.log (p.service.runningNotice p.frontend)])

def close (p : Proxy) : Proxy := { p with gate := p.gate.close }

/-- The running call returns. A failure closes the proxy. -/
def finish (p : Proxy) (loopEnd : LoopEnd) : Proxy × List Effect :=
  let result := Run.ofResult loopEnd.result
  ({ p with
      gate := p.gate.finish loopEnd.result
      runs := p.runs.map fun run => if run = .running then result else run },
    [.log (p.service.stoppedNotice p.frontend)])

/-- A step of the proxy, if something in it is waiting for this event. -/
def step (p : Proxy) : Event → Option (Proxy × List Effect)
  | .run => some p.run
  | .close => some (p.close, [])
  | .service event =>
    (p.service.step p.isClosed event).map fun turn =>
      let p := { p with service := turn.next }
      match turn.loopEnd with
      | none => (p, turn.effects)
      | some loopEnd =>
        let (p, effects) := p.finish loopEnd
        (p, turn.effects ++ effects)

/-- The proxy after a list of events and all effects on the way, if each event was waited
for in its turn. -/
def runAll (p : Proxy) : List Event → Option (Proxy × List Effect)
  | [] => some (p, [])
  | event :: events =>
    (p.step event).bind fun (p, first) =>
      (p.runAll events).map fun (p, rest) => (p, first ++ rest)

end Proxy

end PortForward

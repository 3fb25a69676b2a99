import PortForward.Host
import PortForward.Proxy

/-!
# Scripts

A script drives a proxy from outside: it plays the clients, the backend, the clock and the
kernel's faults, and looks at what the proxy shows. Every step has one answer.
-/

namespace PortForward.Session

/-- One step of a script. -/
inductive Step
  | run
  | close
  | status
  | log (sorted : Bool)
  | quiet
  | advance (duration : Nat)
  | fault (fault : Fault)
  | backendDown
  | backendUp
  | connect (id : String) (vsock : KernelEndpoint)
  | accept (id : String)
  /-- a client sends: bytes of its stream, or one datagram each -/
  | send (id : String) (payloads : List Bytes)
  | receive (id : String) (length : Nat)
  | shutdown (id : String)
  | drop (id : String)
  /-- the backend's end of a client's stream sends -/
  | backendSend (id : String) (bytes : Bytes)
  | backendReceive (id : String) (length : Nat)
  | backendShutdown (id : String)
  | backendDrop (id : String)
  /-- one side sends bytes that the other side reads at once -/
  | pump (id : String) (source : Side) (bytes : Bytes)
  /-- the backend takes the next datagram -/
  | takeDatagram
  /-- the backend answers on a flow -/
  | answerFlow (flow : Nat) (payload : Bytes)
  /-- a datagram from elsewhere to the socket of a flow -/
  | stray (flow : Nat) (payload : Bytes)
  /-- nothing that a script can do -/
  | invalid

/-- What a step answers. -/
inductive Answer
  | done
  | runs (runs : List Run)
  | closed (closed : Bool) (runs : List Run)
  | status (closed : Bool) (runs : List Run) (frontend backend : String)
  | log (lines : List String)
  | quiet (readable : List String) (dials : List KernelEndpoint)
  | connected
  | refused (kind : IoErrorKind)
  | accepted (taken : Bool)
  | sent (count : Nat)
  | broken
  | received (bytes : Bytes) (ended : Bool)
  | pumped (bytes : Bytes) (same ended : Bool)
  /-- what a datagram client took, and whether it came from the frontend -/
  | datagram (taken : Option (Bytes × Bool))
  /-- what the backend took, and the flow on which it came -/
  | flowDatagram (taken : Option (Nat × Bytes))
  | answered
  | badStep

end PortForward.Session

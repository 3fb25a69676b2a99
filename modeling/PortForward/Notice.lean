import PortForward.Failure

/-!
# Notices

Everything the proxy reports about itself, as data: a level, the part of the program that
speaks, and a line of text. A notice holds socket addresses, not their texts, so that a
reader may be shown a name for an address that the system chose.
-/

namespace PortForward

/-- How grave a notice is, and how much a log shows. A log at `off` shows nothing. -/
inductive Level
  | off
  | error
  | warn
  | info
  | debug
  | trace
  deriving DecidableEq, Repr

namespace Level

def rank : Level → Nat
  | off => 0
  | error => 1
  | warn => 2
  | info => 3
  | debug => 4
  | trace => 5

def name : Level → String
  | off => "OFF"
  | error => "ERROR"
  | warn => "WARN"
  | info => "INFO"
  | debug => "DEBUG"
  | trace => "TRACE"

/-- A log at this level shows notices of the other one. -/
def shows (log notice : Level) : Bool := notice.rank ≤ log.rank

end Level

/-- Something to be logged. -/
inductive Notice
  | streamBound (address : SocketAddress)
  | datagramBound (address : SocketAddress)
  | vsockBound (port : UInt32)
  | frontendSkipped (frontend : Address)
  | starting (frontend backend : Address)
  | shuttingDown
  | streamRunning (frontend backend : Address)
  | streamStopped (frontend : Address)
  | clientAccepted (peer : Address)
  | clientDropped (peer : Address)
  | connectionFailed (peer : Address) (cause : IoError)
  | connectionEnded (fromClient fromBackend : Nat)
  | datagramRunning (frontend backend : Address)
  | datagramStopped (frontend : Address)
  | flowOpened (client backend local' : SocketAddress)
  | flowExpired (client : SocketAddress)
  | forwarded (length : Nat) (client backend : SocketAddress)
  | forwardFailed (client : SocketAddress) (cause : IoError)
  | receiveRefused (client : SocketAddress)
  | receiveFailed (client : SocketAddress) (cause : IoError)
  | replied (length : Nat) (client : SocketAddress)
  | replyFailed (client : SocketAddress) (cause : IoError)
  | repliesStopped (client : SocketAddress)
  | framedAccepted (peer : Address)
  | framedFailed (peer : Address) (cause : IoError)
  | framedForwarded (length : Nat) (backend : SocketAddress)
  | framedRefused (backend : SocketAddress)
  | framedEnded
  deriving DecidableEq, Repr

namespace Notice

def level : Notice → Level
  | connectionFailed .. | forwardFailed .. | receiveFailed .. | replyFailed ..
  | framedFailed .. => .error
  | streamBound .. | datagramBound .. | vsockBound .. | forwarded .. | receiveRefused ..
  | replied .. | repliesStopped .. | framedForwarded .. | framedRefused ..
  | framedEnded => .debug
  | _ => .info

def speaker : Notice → String
  | streamBound .. | datagramBound .. | vsockBound .. => "portproxy::listen"
  | frontendSkipped .. => "portproxy::dispatch"
  | starting .. | shuttingDown => "portproxy"
  | streamRunning .. | streamStopped .. | clientAccepted .. | clientDropped ..
  | connectionFailed .. | connectionEnded .. => "portproxy::tcp"
  | _ => "portproxy::udp"

/-- The text of a notice, with the given names for socket addresses. -/
def text (name : SocketAddress → String) : Notice → String
  | streamBound a => s!"tcp listener bound on {name a}"
  | datagramBound a => s!"udp socket bound on {name a}"
  | vsockBound port => s!"vsock listener bound on port {port.toNat}"
  | frontendSkipped f =>
    s!"address {f.textWith name} doesn't exist in the VM: only binding on the host"
  | starting f b => s!"Starting proxy: {f.textWith name} -> {b.textWith name}"
  | shuttingDown => "shutting down"
  | streamRunning f b => s!"tcp proxy running: {f.textWith name} -> {b.textWith name}"
  | streamStopped f => s!"tcp proxy stopped: {f.textWith name}"
  | clientAccepted p => s!"new client: {p.textWith name}"
  | clientDropped p => s!"proxy closed, dropping client {p.textWith name}"
  | connectionFailed p e =>
    s!"[ERR] connection error for {p.textWith name}: {(Failure.io e).message}"
  | connectionEnded up down =>
    s!"connection closed: {up} bytes from client, {down} bytes from backend"
  | datagramRunning f b => s!"udp proxy running: {f.textWith name} -> {b.textWith name}"
  | datagramStopped f => s!"udp proxy stopped: {f.textWith name}"
  | flowOpened c b l => s!"created udp relay: {name c} -> {name b} (via {name l})"
  | flowExpired c => s!"removed expired udp relay for {name c}"
  | forwarded n c b => s!"forwarded {n} bytes: {name c} -> {name b}"
  | forwardFailed c e =>
    s!"[ERR] failed to forward datagram from {name c}: {(Failure.io e).message}"
  | receiveRefused c => s!"backend refused datagram from {name c}"
  | receiveFailed c e => s!"[ERR] error receiving from backend for {name c}: {e.message}"
  | replied n c => s!"sent {n} bytes back to client {name c}"
  | replyFailed c e => s!"[ERR] error sending reply to {name c}: {e.message}"
  | repliesStopped c => s!"stopped relaying replies for {name c}"
  | framedAccepted p => s!"new vsock datagram client: {p.textWith name}"
  | framedFailed p e =>
    s!"[ERR] vsock datagram relay for {p.textWith name} failed: {(Failure.io e).message}"
  | framedForwarded n b => s!"forwarded {n} framed bytes to {name b}"
  | framedRefused b => s!"backend {name b} refused a framed datagram"
  | framedEnded => "vsock datagram client disconnected"

/-- A log line: the level and the text. -/
def line (name : SocketAddress → String) (n : Notice) : String :=
  s!"{n.level.name} {n.text name}"

def fullLine (name : SocketAddress → String) (n : Notice) : String :=
  s!"{n.level.name} {n.speaker}: {n.text name}"

end Notice

end PortForward

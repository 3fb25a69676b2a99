import PortForward.Address.Basic

/-!
# Connection tracking

Which backend socket belongs to which client of a datagram proxy, and when the flow was
last active. A client has at most one entry. Entries are kept in the order in which they
were made. Times and durations are in nanoseconds.
-/

namespace PortForward

namespace Duration

def millisecond : Nat := 1000000

def second : Nat := 1000 * millisecond

end Duration

/-- The entry of one client. -/
structure Flow where
  socket : Nat
  lastActivity : Nat
  deriving DecidableEq, Repr

def Flow.isExpired (timeout now : Nat) (f : Flow) : Bool := timeout < now - f.lastActivity

abbrev FlowTable := List (SocketAddress × Flow)

namespace FlowTable

def find? (t : FlowTable) (client : SocketAddress) : Option Flow := t.lookup client

/-- Notes activity of a client, if it has an entry. -/
def touch (t : FlowTable) (client : SocketAddress) (now : Nat) : FlowTable :=
  t.map fun (c, f) => (c, if c = client then { f with lastActivity := now } else f)

def add (t : FlowTable) (client : SocketAddress) (flow : Flow) : FlowTable := t ++ [(client, flow)]

/-- Removes a client's entry if it still holds this socket. -/
def forget (t : FlowTable) (client : SocketAddress) (socket : Nat) : FlowTable :=
  t.filter fun (c, f) => ¬ (c = client ∧ f.socket = socket)

def kept (t : FlowTable) (timeout now : Nat) : FlowTable :=
  t.filter fun (_, f) => ¬ f.isExpired timeout now

def expired (t : FlowTable) (timeout now : Nat) : FlowTable :=
  t.filter fun (_, f) => f.isExpired timeout now

def sockets (t : FlowTable) : List Nat := t.map fun (_, f) => f.socket

end FlowTable

end PortForward

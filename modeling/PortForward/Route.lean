import PortForward.Failure

/-!
# Routes

Which way of forwarding serves a frontend and a backend. The transport of the frontend
decides what is listened on; that of the backend only picks what is done with it. Vsock
frontends have a table of their own, because datagrams over vsock are framed on a stream.
-/

namespace PortForward

/-- Where a stream proxy dials for every client. -/
inductive StreamBackend
  | ip (socket : SocketAddress)
  | vsock (endpoint : VsockEndpoint)
  deriving DecidableEq, Repr

def StreamBackend.address : StreamBackend → Address
  | ip s => .stream s
  | vsock e => .vsock e

/-- The way of forwarding chosen for a frontend and a backend. -/
inductive Route
  | datagram (frontend backend : SocketAddress)
  | stream (frontend : SocketAddress) (backend : StreamBackend)
  | vsockStream (frontend : VsockEndpoint) (backend : SocketAddress)
  | vsockDatagram (frontend : VsockEndpoint) (backend : SocketAddress)
  deriving DecidableEq, Repr

namespace Route

/-- The table for IP frontends, which also pairs a vsock frontend with a stream backend. -/
def ofIp : Address → Address → Except Failure Route
  | .datagram f, .datagram b => .ok (datagram f b)
  | .stream f, .stream b => .ok (stream f (.ip b))
  | .stream f, .vsock b => .ok (stream f (.vsock b))
  | .vsock f, .stream b => .ok (vsockStream f b)
  | f, b => .error (.unsupported f.transport b.transport)

def ofVsock : Address → Address → Except Failure Route
  | .vsock f, .datagram b => .ok (vsockDatagram f b)
  | .vsock f, .stream b => .ok (vsockStream f b)
  | f, b => .error (.unsupported f.transport b.transport)

def of (frontend backend : Address) : Except Failure Route :=
  match frontend with
  | .vsock _ => ofVsock frontend backend
  | _ => ofIp frontend backend

def frontend : Route → Address
  | datagram f _ => .datagram f
  | stream f _ => .stream f
  | vsockStream f _ => .vsock f
  | vsockDatagram f _ => .vsock f

def backend : Route → Address
  | datagram _ b => .datagram b
  | stream _ b => b.address
  | vsockStream _ b => .stream b
  | vsockDatagram _ b => .datagram b

end Route

end PortForward

import PortForward.Construction
import PortForward.Session.Link
import PortForward.Session.Script

/-!
# The world of a session

A proxy, the streams and datagrams that are on their way to and from it, and the script's
view of them. Streams are kept in the order in which the clients connected, which is the
order in which the proxy accepts them; backend sockets go by the number that the proxy
gives them.
-/

namespace PortForward.Session

/-- A client's stream, and the stream to the backend that the proxy dialed for it. -/
structure Connection where
  id : String
  peer : Address
  front : Link
  back : Option Link
  /-- the backend has taken its stream under this name -/
  backendId : Option String

/-- A socket from which a client sends datagrams, with what it received and whether that
came from the frontend. -/
structure DatagramClient where
  id : String
  address : SocketAddress
  inbox : List (Bytes × Bool)

/-- Something that the proxy writes to, and that may not take at once what is written. -/
inductive Outlet
  /-- the stream of a connection on one side of the proxy -/
  | stream (connection : Nat) (side : Side)
  | socket (number : Nat)
  deriving DecidableEq

/-- A backend socket of the proxy: what waits to be received on it, and whether a refusal
does. -/
structure BackendSocket where
  number : Nat
  inbox : List Bytes
  refused : Bool

structure World where
  proxy : Proxy
  host : Host
  faults : List Fault
  /-- where the frontend is bound and where the scripted backend listens -/
  frontend : Option SocketAddress
  backend : Option SocketAddress
  backendUp : Bool
  connections : List Connection
  /-- established streams that the backend has not taken yet -/
  backlog : List Nat
  clients : List DatagramClient
  toFrontend : List (SocketAddress × Bytes)
  sockets : List BackendSocket
  /-- the backend sockets with a reply that the frontend socket does not take yet -/
  blocked : List Nat
  /-- the outlets that do not take what the proxy writes yet -/
  stalled : List Outlet
  toBackend : List (Nat × Bytes)
  dials : List KernelEndpoint
  /-- notices not yet shown, the latest last -/
  notices : List Notice

namespace World

/-- The address of the backend socket of the given number. -/
def flowAddress (n : Nat) : SocketAddress := .v4 ⟨127, 0, 1, 0⟩ (UInt16.ofNat n)

/-- The address from which the datagram client of the given number sends to a frontend. -/
def clientAddress (frontend : Option SocketAddress) (n : Nat) : SocketAddress :=
  match frontend with
  | some (.v6 ..) => .v6 .loopback (UInt16.ofNat n) 0 0
  | _ => .v4 ⟨127, 0, 2, 0⟩ (UInt16.ofNat n)

/-- The address from which the stream client of the given number connects. -/
def streamAddress (n : Nat) : SocketAddress := .v4 ⟨127, 0, 3, 0⟩ (UInt16.ofNat n)

/-- Sockets whose addresses the system chose go by names. -/
def name (w : World) (a : SocketAddress) : String :=
  let braced (s : String) := "\x7b" ++ s ++ "\x7d"
  if w.frontend = some a then braced "frontend"
  else if w.backend = some a then braced "backend"
  else
    match w.clients.find? (·.address = a), w.connections.find? (·.peer = .stream a),
      w.sockets.find? (flowAddress ·.number = a) with
    | some c, _, _ => braced c.id
    | _, some c, _ => braced c.id
    | _, _, some s => braced ("flow" ++ toString s.number)
    | _, _, _ => a.text

def addressText (w : World) (a : Address) : String := a.textWith w.name

/-- The number of the last connection that a stream client of this name made and has not
dropped. -/
def clientOf? (w : World) (id : String) : Option Nat :=
  (w.connections.zipIdx.reverse.find? fun (c, _) => c.id = id ∧ c.front.heldByPeer).map Prod.snd

/-- The number of the last connection that the backend took under this name and has not
dropped. -/
def backendOf? (w : World) (id : String) : Option Nat :=
  (w.connections.zipIdx.reverse.find? fun (c, _) =>
    c.backendId = some id ∧ c.back.any (·.heldByPeer)).map Prod.snd

def modifyConnection (w : World) (i : Nat) (f : Connection → Connection) : World :=
  { w with connections := w.connections.modify i f }

def modifyFront (w : World) (i : Nat) (f : Link → Link) : World :=
  w.modifyConnection i fun c => { c with front := f c.front }

def modifyBack (w : World) (i : Nat) (f : Link → Link) : World :=
  w.modifyConnection i fun c => { c with back := c.back.map f }

/-- The stream of a connection on one side of the proxy. -/
def link? (w : World) (i : Nat) : Side → Option Link
  | .client => w.connections[i]?.map Connection.front
  | .backend => w.connections[i]?.bind Connection.back

def modifyLink (w : World) (i : Nat) (side : Side) (f : Link → Link) : World :=
  match side with
  | .client => w.modifyFront i f
  | .backend => w.modifyBack i f

/-- Whoever waits to write to an outlet tries again once something happens at its other end. -/
def stir (w : World) (outlet : Outlet) : World :=
  { w with stalled := w.stalled.filter (· ≠ outlet) }

def socket? (w : World) (n : Nat) : Option BackendSocket := w.sockets.find? (·.number = n)

def modifySocket (w : World) (n : Nat) (f : BackendSocket → BackendSocket) : World :=
  { w with sockets := w.sockets.map fun s => if s.number = n then f s else s }

/-- The proxy still holds its backend socket of this number. -/
def holdsSocket (w : World) (n : Nat) : Bool :=
  match w.proxy.service with
  | .stream _ => false
  | .framed s => s.relays.any (·.phase.socket? = some n)
  | .datagram r => r.isOpen n

/-- A datagram on its way to the backend. Where nobody listens, a refusal comes back. -/
def transmit (w : World) (n : Nat) (payload : Bytes) : World :=
  if w.backendUp then { w with toBackend := w.toBackend ++ [(n, payload)] }
  else w.modifySocket n fun s => { s with refused := true }

def replyTo (w : World) (client : SocketAddress) (payload : Bytes) : World :=
  { w with clients := w.clients.map fun c =>
      if c.address = client then { c with inbox := c.inbox ++ [(payload, true)] } else c }

/-- What an effect of the proxy does to the world. Dialing shows in its outcome. -/
def perform (w : World) : Effect → World
  | .log n => { w with notices := w.notices ++ [n] }
  | .dial _ => w
  | .deliver i side bytes => w.modifyLink i side (·.proxyDeliver bytes)
  | .endStream i side => w.modifyLink i side Link.proxyShutdown
  | .release i => (w.modifyFront i Link.proxyRelease).modifyBack i Link.proxyRelease
  | .transmit n payload => w.transmit n payload
  | .reply client payload => w.replyTo client payload

/-- Lets the proxy take a step, with all effects that it has; an event that nothing waits
for changes nothing. -/
def apply (w : World) (event : Proxy.Event) : World :=
  match w.proxy.step event with
  | none => w
  | some (proxy, effects) => effects.foldl perform { w with proxy }

end World

end PortForward.Session

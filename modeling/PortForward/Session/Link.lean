import PortForward.Frame.Basic

/-!
# Links

A byte stream between the proxy and another party, as the party at the other end and the
kernel see it. Each direction delivers its bytes in order and then, perhaps, its end. What
a party that has let go of its end was still to read is lost, and then the other party
finds the stream reset rather than ended.
-/

namespace PortForward.Session

/-- One direction of a stream. -/
structure Pipe where
  unread : Bytes
  ended : Bool

namespace Pipe

def fresh : Pipe := ⟨[], false⟩

def push (p : Pipe) (bytes : Bytes) : Pipe := { p with unread := p.unread ++ bytes }

def finish (p : Pipe) : Pipe := { p with ended := true }

/-- There are bytes to read, or the end of the stream. -/
def isReadable (p : Pipe) : Bool := p.unread ≠ [] ∨ p.ended

end Pipe

/-- A stream with the direction towards the proxy and the one from it, and who holds it. -/
structure Link where
  inward : Pipe
  outward : Pipe
  heldByProxy : Bool
  heldByPeer : Bool
  reset : Bool

namespace Link

def fresh : Link := ⟨.fresh, .fresh, true, true, false⟩

/-- The peer writes, unless it has ended its stream or nobody is there to read. -/
def peerSend? (l : Link) (bytes : Bytes) : Option Link :=
  if l.heldByProxy ∧ ¬ l.inward.ended then some { l with inward := l.inward.push bytes } else none

/-- The peer reads up to `n` bytes; whether the stream ended before them. -/
def peerReceive (l : Link) (n : Nat) : Bytes × Bool × Link :=
  let bytes := l.outward.unread.take n
  (bytes, bytes.length < n ∧ l.outward.ended,
    { l with outward := { l.outward with unread := l.outward.unread.drop n } })

def peerShutdown (l : Link) : Link := { l with inward := l.inward.finish }

/-- The peer closes. Bytes that it has not read turn the end of its stream into a reset. -/
def peerDrop (l : Link) : Link :=
  { l with inward := l.inward.finish, heldByPeer := false, reset := l.outward.unread ≠ [] }

def proxyDeliver (l : Link) (bytes : Bytes) : Link := { l with outward := l.outward.push bytes }

def proxyShutdown (l : Link) : Link := { l with outward := l.outward.finish }

def proxyRelease (l : Link) : Link := { l with outward := l.outward.finish, heldByProxy := false }

/-- What the proxy reads, if there is something to read. -/
def proxyRead? (l : Link) (n : Nat) : Option (Except IoError Bytes × Link) :=
  if l.inward.unread ≠ [] then
    some (.ok (l.inward.unread.take n),
      { l with inward := { l.inward with unread := l.inward.unread.drop n } })
  else if l.reset then some (.error (.os Errno.connectionReset), l)
  else if l.inward.ended then some (.ok [], l)
  else none

def proxyWrite (l : Link) : Except IoError Unit :=
  if l.heldByPeer then .ok () else .error (.os Errno.brokenPipe)

end Link

end PortForward.Session

import PortForward.Host

/-!
# Binders

What opens the frontend of a proxy. A proxy is set up over any binder, whatever state that
works on; the one that calls the kernel is one of them.
-/

namespace PortForward

/-- A way of listening on each transport, and of asking a bound socket for its address.
Vsock listeners accept from every context, so only the port is asked for. -/
structure Binder (σ : Type) where
  stream : SocketAddress → σ → Except IoError Nat × σ
  datagram : SocketAddress → σ → Except IoError Nat × σ
  vsock : UInt32 → σ → Except IoError Unit × σ
  localAddress : Nat → σ → Except IoError SocketAddress × σ

/-- A listen call. -/
inductive BindCall
  | stream (address : SocketAddress)
  | datagram (address : SocketAddress)
  | vsock (port : UInt32)
  deriving DecidableEq, Repr

def BindCall.text : BindCall → String
  | stream a => s!"stream {a.text}"
  | datagram a => s!"datagram {a.text}"
  | vsock port => s!"vsock {port.toNat}"

namespace Binder

variable {σ : Type}

def noting (b : Binder σ) : Binder (σ × List BindCall) where
  stream a s := let (r, t) := b.stream a s.1; (r, t, s.2 ++ [.stream a])
  datagram a s := let (r, t) := b.datagram a s.1; (r, t, s.2 ++ [.datagram a])
  vsock port s := let (r, t) := b.vsock port s.1; (r, t, s.2 ++ [.vsock port])
  localAddress i s := let (r, t) := b.localAddress i s.1; (r, t, s.2)

def failing (b : Binder σ) (e : IoError) : Binder σ where
  stream _ s := (.error e, s)
  datagram _ s := (.error e, s)
  vsock _ s := (.error e, s)
  localAddress := b.localAddress

/-- Binds an IP socket and logs its address at the debug level. The address is asked for
only if the log shows it, and then the call fails with the question. -/
def bindLogged (level : Level) (notice : SocketAddress → Notice) (a : SocketAddress) (k : Kernel) :
    Except IoError Nat × Kernel :=
  match k.bindIp a with
  | (.error e, k) => (.error e, k)
  | (.ok socket, k) =>
    if level.shows .debug then
      match k.localAddress socket with
      | (.error e, k) => (.error e, k)
      | (.ok bound, k) => (.ok socket, k.log (notice bound))
    else (.ok socket, k)

/-- Listens on vsock for every context. -/
def bindVsockLogged (level : Level) (port : UInt32) (k : Kernel) : Except IoError Unit × Kernel :=
  match k.bindVsock ⟨Cid.anyRaw, port⟩ with
  | (.error e, k) => (.error e, k)
  | (.ok (), k) => (.ok (), if level.shows .debug then k.log (.vsockBound port) else k)

/-- Listens on the host, with a log of the given level. -/
def system (level : Level) : Binder Kernel where
  stream := bindLogged level .streamBound
  datagram := bindLogged level .datagramBound
  vsock := bindVsockLogged level
  localAddress socket k := k.localAddress socket

/-- Hands out sockets on the loopback address, whatever address is asked for. -/
def loopback (level : Level) : Binder Kernel where
  stream _ k := k.bindIp (.v4 .loopback 0)
  datagram _ k := k.bindIp (.v4 .loopback 0)
  vsock := bindVsockLogged level
  localAddress socket k := k.localAddress socket

end Binder

end PortForward

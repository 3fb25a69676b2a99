/-!
# Addresses

One side of a proxy: an IP socket address that carries streams or datagrams, or a vsock
endpoint. Reading and writing their texts is the business of the modules beside this one.
-/

namespace PortForward

/-- What an address carries, without its endpoint. -/
inductive Transport
  | stream
  | datagram
  | vsock
  deriving DecidableEq, Repr

/-- An IPv4 address by its four octets. -/
structure Ipv4 where
  a : UInt8
  b : UInt8
  c : UInt8
  d : UInt8
  deriving DecidableEq, Repr

/-- An IPv6 address by its eight segments. -/
structure Ipv6 where
  segments : List UInt16
  length_eq : segments.length = 8
  deriving DecidableEq, Repr

/-- An IP address and a port; an IPv6 address also has its flow information and its scope. -/
inductive SocketAddress
  | v4 (ip : Ipv4) (port : UInt16)
  | v6 (ip : Ipv6) (port : UInt16) (flow scope : UInt32)
  deriving DecidableEq, Repr

/-- A vsock context; `any` stands for every context. -/
inductive Cid
  | any
  | id (n : UInt32)
  deriving DecidableEq, Repr

/-- A vsock endpoint as the kernel knows it. -/
structure KernelEndpoint where
  cid : UInt32
  port : UInt32
  deriving DecidableEq, Repr

/-- A vsock context and a port. -/
structure VsockEndpoint where
  cid : Cid
  port : UInt32
  deriving DecidableEq, Repr

/-- One side of a proxy. -/
inductive Address
  | stream (socket : SocketAddress)
  | datagram (socket : SocketAddress)
  | vsock (endpoint : VsockEndpoint)
  deriving DecidableEq, Repr

namespace Ipv4

def octets (ip : Ipv4) : List UInt8 := [ip.a, ip.b, ip.c, ip.d]

/-- The two segments that an IPv4 address fills at the end of an IPv6 address. -/
def segments (ip : Ipv4) : List UInt16 :=
  [ip.a.toUInt16 * 256 + ip.b.toUInt16, ip.c.toUInt16 * 256 + ip.d.toUInt16]

def unspecified : Ipv4 := ⟨0, 0, 0, 0⟩

def loopback : Ipv4 := ⟨127, 0, 0, 1⟩

end Ipv4

namespace Ipv6

def ofList? (segments : List UInt16) : Option Ipv6 :=
  if h : segments.length = 8 then some ⟨segments, h⟩ else none

def unspecified : Ipv6 := ⟨List.replicate 8 0, rfl⟩

def loopback : Ipv6 := ⟨List.replicate 7 0 ++ [1], rfl⟩

end Ipv6

namespace SocketAddress

def port : SocketAddress → UInt16
  | v4 _ port => port
  | v6 _ port _ _ => port

def withPort : SocketAddress → UInt16 → SocketAddress
  | v4 ip _, port => v4 ip port
  | v6 ip _ flow scope, port => v6 ip port flow scope

/-- The largest payload that a datagram between addresses of this kind can carry. -/
def maxDatagram : SocketAddress → Nat
  | v4 .. => 65507
  | v6 .. => 65527

/-- What a text can hold of a socket address: everything but the flow information. -/
def normalize : SocketAddress → SocketAddress
  | v4 ip port => v4 ip port
  | v6 ip port _ scope => v6 ip port 0 scope

end SocketAddress

namespace Cid

def anyRaw : UInt32 := 4294967295

def raw : Cid → UInt32
  | any => anyRaw
  | id n => n

def ofRaw (n : UInt32) : Cid := if n = anyRaw then any else id n

def normalize (cid : Cid) : Cid := ofRaw cid.raw

end Cid

namespace VsockEndpoint

def onAny (port : UInt32) : VsockEndpoint := ⟨.any, port⟩

def toKernel (e : VsockEndpoint) : KernelEndpoint := ⟨e.cid.raw, e.port⟩

def ofKernel (k : KernelEndpoint) : VsockEndpoint := ⟨.ofRaw k.cid, k.port⟩

end VsockEndpoint

namespace Address

def transport : Address → Transport
  | stream _ => .stream
  | datagram _ => .datagram
  | vsock _ => .vsock

/-- The address that the text of an address stands for. -/
def normalize : Address → Address
  | stream s => stream s.normalize
  | datagram s => datagram s.normalize
  | vsock e => vsock ⟨e.cid.normalize, e.port⟩

/-- Adds addresses to a set one after the other: whether each was new, and the set. -/
def insertAll (set : List Address) : List Address → List Bool × List Address
  | [] => ([], set)
  | a :: rest =>
    let fresh := a ∉ set
    let (flags, set) := insertAll (if fresh then set ++ [a] else set) rest
    (decide fresh :: flags, set)

end Address

end PortForward

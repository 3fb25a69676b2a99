import PortForward.Notice

/-!
# The host

What the kernel of a host makes of the calls that open listening sockets: which addresses
it has, whether it has a route for streams and for datagrams, and which calls are made to
fail. Sockets are known by the order in which they were bound, and a port that the caller
leaves open is chosen by the host.

This module does NOT move any traffic.
-/

namespace PortForward

/-- The calls by which a proxy asks the kernel for something. -/
inductive SystemCall
  | socket
  | bind
  | getsockname
  | connect
  | accept
  | recv
  | send
  | recvfrom
  | sendto
  deriving DecidableEq, Repr

/-- A call that is to fail the next time it is made. -/
structure Fault where
  call : SystemCall
  errno : Int
  deriving DecidableEq, Repr

/-- The error of the first fault of a call, and the faults that are left. -/
def Fault.take? (call : SystemCall) : List Fault → Option (IoError × List Fault)
  | [] => none
  | f :: fs =>
    if f.call = call then some (.os f.errno, fs)
    else (take? call fs).map fun (e, fs) => (e, f :: fs)

/-- What a host can reach and what it can be reached at. -/
structure Host where
  hasAddress : SocketAddress → Bool
  routesStreams : Bool
  routesDatagrams : Bool

namespace Host

/-- A host that binds every IPv4 address, and of IPv6 only the unspecified one. It has no
route to anywhere, itself included. -/
def isolated : Host where
  hasAddress
    | .v4 .. => true
    | .v6 ip .. => ip = .unspecified
  routesStreams := false
  routesDatagrams := false

end Host

/-- The state of a host's kernel: the addresses of the sockets bound so far, the vsock
endpoints listened on, the calls to fail, and what was logged on the way. -/
structure Kernel where
  host : Host
  faults : List Fault
  sockets : List SocketAddress
  vsockBinds : List KernelEndpoint
  notices : List Notice

namespace Kernel

def fresh (host : Host) (faults : List Fault) : Kernel := ⟨host, faults, [], [], []⟩

/-- Makes a call that fails if a fault awaits it. -/
def call (c : SystemCall) (k : Kernel) : Except IoError Unit × Kernel :=
  match Fault.take? c k.faults with
  | some (e, faults) => (.error e, { k with faults })
  | none => (.ok (), k)

def log (n : Notice) (k : Kernel) : Kernel := { k with notices := k.notices ++ [n] }

/-- The port that the host chooses for its next socket. -/
def nextPort (k : Kernel) : UInt16 := 49152 + UInt16.ofNat k.sockets.length

/-- Opens a socket for something to be bound. -/
def openSocket (k : Kernel) : Except IoError Unit × Kernel :=
  match k.call .socket with
  | (.error e, k) => (.error e, k)
  | (.ok (), k) => k.call .bind

/-- Binds a new socket to an IP address, and answers the number of the socket. -/
def bindIp (address : SocketAddress) (k : Kernel) : Except IoError Nat × Kernel :=
  match k.openSocket with
  | (.error e, k) => (.error e, k)
  | (.ok (), k) =>
    if k.host.hasAddress address then
      let address := if address.port = 0 then address.withPort k.nextPort else address
      (.ok k.sockets.length, { k with sockets := k.sockets ++ [address] })
    else (.error (.os Errno.addressNotAvailable), k)

def bindVsock (endpoint : KernelEndpoint) (k : Kernel) : Except IoError Unit × Kernel :=
  match k.openSocket with
  | (.error e, k) => (.error e, k)
  | (.ok (), k) => (.ok (), { k with vsockBinds := k.vsockBinds ++ [endpoint] })

/-- The text of an address, in which a port bound on this host is left unsaid. -/
def name (k : Kernel) (a : SocketAddress) : String :=
  if a ∈ k.sockets then String.ofList a.hostChars ++ ":\x7bport\x7d" else a.text

def localAddress (socket : Nat) (k : Kernel) : Except IoError SocketAddress × Kernel :=
  match k.call .getsockname with
  | (.error e, k) => (.error e, k)
  | (.ok (), k) =>
    match k.sockets[socket]? with
    | some address => (.ok address, k)
    | none => (.error (.os Errno.badDescriptor), k)

end Kernel

end PortForward

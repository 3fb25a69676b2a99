import PortForward.Binder
import PortForward.Route
import PortForward.Proxy

/-!
# Setting up a proxy

A route is opened by one listen call on its frontend. An IP socket is then asked for the
address it got, since the port may have been left open; a failure of the listen call and a
failure of this question are different failures. The factories differ in their table of
routes.
-/

namespace PortForward

variable {σ : Type}

/-- Opens an IP frontend and learns the address it is bound to. -/
def Binder.openIp (b : Binder σ) (listen : SocketAddress → σ → Except IoError Nat × σ)
    (wrap : SocketAddress → Address) (frontend : SocketAddress) (s : σ) :
    Except Failure Address × σ :=
  match listen frontend s with
  | (.error e, s) => (.error (.listen (wrap frontend) e), s)
  | (.ok socket, s) =>
    match b.localAddress socket s with
    | (.error e, s) => (.error (.io e), s)
    | (.ok bound, s) => (.ok (wrap bound), s)

/-- Opens a vsock frontend, which keeps its address. -/
def Binder.openVsock (b : Binder σ) (frontend : VsockEndpoint) (s : σ) :
    Except Failure Address × σ :=
  match b.vsock frontend.port s with
  | (.error e, s) => (.error (.listen (.vsock frontend) e), s)
  | (.ok (), s) => (.ok (.vsock frontend), s)

namespace Route

def openFrontend (b : Binder σ) : Route → σ → Except Failure Address × σ
  | datagram f _ => b.openIp b.datagram .datagram f
  | stream f _ => b.openIp b.stream .stream f
  | vsockStream f _ => b.openVsock f
  | vsockDatagram f _ => b.openVsock f

/-- What the proxy of a route does with its clients. -/
def service (level : Level) : Route → Service
  | datagram _ b => .datagram (.idle b level)
  | stream _ b => .stream (.idle b)
  | vsockStream _ b => .stream (.idle (.ip b))
  | vsockDatagram _ b => .framed (.idle b)

/-- Opens a route, and makes the proxy that forwards along it. -/
def build (route : Route) (b : Binder σ) (level : Level) (s : σ) : Except Failure Proxy × σ :=
  match route.openFrontend b s with
  | (.error e, s) => (.error e, s)
  | (.ok bound, s) => (.ok (.bound bound (route.service level)), s)

end Route

namespace Proxy

def ofRoute (route : Except Failure Route) (b : Binder σ) (level : Level) (s : σ) :
    Except Failure Proxy × σ :=
  match route with
  | .error e => (.error e, s)
  | .ok route => route.build b level s

def make (b : Binder σ) (level : Level) (frontend backend : Address) (s : σ) :
    Except Failure Proxy × σ :=
  ofRoute (Route.of frontend backend) b level s

def makeIp (b : Binder σ) (level : Level) (frontend backend : Address) (s : σ) :
    Except Failure Proxy × σ :=
  ofRoute (Route.ofIp frontend backend) b level s

def makeVsock (b : Binder σ) (level : Level) (frontend : VsockEndpoint) (backend : Address)
    (s : σ) : Except Failure Proxy × σ :=
  ofRoute (Route.ofVsock (.vsock frontend) backend) b level s

/-- A proxy of the IP table, or none if the frontend address does not exist here, with the
notice that says so. -/
def makeBestEffort (b : Binder σ) (level : Level) (frontend backend : Address) (s : σ) :
    (Except Failure (Option Proxy) × List Notice) × σ :=
  match makeIp b level frontend backend s with
  | (.ok p, s) => ((.ok (some p), []), s)
  | (.error e, s) =>
    if e.isSoft then ((.ok none, [.frontendSkipped frontend]), s)
    else ((.error e, []), s)

end Proxy

end PortForward

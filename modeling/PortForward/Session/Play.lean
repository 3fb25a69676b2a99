import PortForward.Session.Scheduler

/-!
# Playing a script

How a session begins, and what each step of a script does to the world and answers. A step
that cannot apply changes nothing.
-/

namespace PortForward.Session

/-- A side of the proxy as a script names it: a socket of the host at a port that the system
chooses, or a vsock endpoint. -/
inductive Place
  | socket (transport : Transport) (v6 : Bool)
  | address (address : Address)

namespace Place

def read (text : String) : Except Failure Place :=
  match text with
  | "tcp" => .ok (.socket .stream false)
  | "tcp6" => .ok (.socket .stream true)
  | "udp" => .ok (.socket .datagram false)
  | "udp6" => .ok (.socket .datagram true)
  | text => (Address.read text).map .address

/-- The address of a place, where a socket gets the given port on the loopback address. -/
def toAddress (port : UInt16) : Place → Address
  | socket transport v6 =>
    let a : SocketAddress := if v6 then .v6 .loopback port 0 0 else .v4 .loopback port
    match transport with
    | .datagram => .datagram a
    | _ => .stream a
  | address a => a

end Place

def socketOf? : Address → Option SocketAddress
  | .stream a | .datagram a => some a
  | .vsock _ => none

def backendPort : UInt16 := 40000

/-- The world around a proxy that was just made, with what was logged on the way. -/
def World.around (host : Host) (proxy : Proxy) (notices : List Notice) : World where
  proxy
  host
  faults := []
  frontend := socketOf? proxy.frontend
  backend := socketOf? proxy.backend
  backendUp := true
  connections := []
  backlog := []
  clients := []
  toFrontend := []
  sockets := []
  blocked := []
  stalled := []
  toBackend := []
  dials := []
  notices

/-- A session over a new proxy, or the reason why there is none. -/
def World.start (host : Host) (frontend backend : Place) (backendUp : Bool) (timeout : Option Nat) :
    Except Failure World :=
  match Proxy.make (Binder.system .trace) .trace (frontend.toAddress 0)
      (backend.toAddress backendPort) (.fresh host []) with
  | (.error e, _) => .error e
  | (.ok proxy, kernel) =>
    let proxy := timeout.elim proxy proxy.withTimeout
    .ok { around host proxy kernel.notices with backendUp }

namespace World

/-- The socket of a datagram client, which is made at its first use. -/
def clientSocket (w : World) (id : String) : SocketAddress × World :=
  match w.clients.find? (·.id = id) with
  | some c => (c.address, w)
  | none =>
    let c : DatagramClient := ⟨id, clientAddress w.frontend w.clients.length, []⟩
    (c.address, { w with clients := w.clients ++ [c] })

/-- A client's socket takes a datagram that the host has a way for and that is not too large
for any. -/
def takesOff (w : World) (client : SocketAddress) (payload : Bytes) : Bool :=
  w.host.routesDatagrams ∧ payload.length ≤ client.maxDatagram

/-- A datagram arrives at the frontend, unless that is not bound. Whoever waits to send there
tries again. -/
def reachFrontend (w : World) (client : SocketAddress) (payload : Bytes) : World :=
  if w.proxy.isBound then
    { w with toFrontend := w.toFrontend ++ [(client, payload)], blocked := [] }
  else w

/-- Sends datagrams from a client's socket, and answers how many of them took off. -/
def sendDatagrams (w : World) (id : String) (payloads : List Bytes) : Answer × World :=
  let (client, w) := w.clientSocket id
  let payloads := payloads.filter (w.takesOff client)
  (.sent payloads.length, payloads.foldl (fun w payload => w.reachFrontend client payload) w)

/-- A client of the given address reaches the frontend, if that is bound. -/
def meetFrontend (w : World) (id : String) (peer : Address) : Answer × World :=
  let connection : Connection := ⟨id, peer, .fresh, none, none⟩
  if w.proxy.isBound then (.connected, { w with connections := w.connections ++ [connection] })
  else (.refused .connectionRefused, w)

def connect (w : World) (id : String) (endpoint : KernelEndpoint) : Answer × World :=
  match w.proxy.frontend with
  | .vsock _ => w.meetFrontend id (.vsock (.ofKernel endpoint))
  | .stream _ =>
    if w.host.routesStreams then w.meetFrontend id (.stream (streamAddress w.connections.length))
    else (.refused .networkUnreachable, w)
  | .datagram _ => (.badStep, w)

/-- The backend takes the next established stream under a name. -/
def takeConnection (w : World) (id : String) : Answer × World :=
  match w.backlog with
  | [] => (.accepted false, w)
  | i :: backlog =>
    (.accepted true, { w.modifyConnection i fun c => { c with backendId := some id } with backlog })

/-- The party at one side of a connection stops writing, or lets go of its stream. -/
def leave (w : World) (i : Nat) (side : Side) (f : Link → Link) : World :=
  (w.modifyLink i side f).stir (.stream i side)

/-- The backend stops listening, and what it has not taken is lost. -/
def stopBackend (w : World) : World :=
  let w := w.backlog.foldl (fun w i => w.leave i .backend Link.peerDrop) w
  { w with backendUp := false, backlog := [], toBackend := [] }

def sendOver (w : World) (i : Nat) (side : Side) (bytes : Bytes) : Answer × World :=
  match (w.link? i side).bind (·.peerSend? bytes) with
  | some l => (.sent bytes.length, (w.modifyLink i side fun _ => l).stir (.stream i side))
  | none => (.broken, w)

def receiveOver (w : World) (i : Nat) (side : Side) (n : Nat) : Answer × World :=
  match w.link? i side with
  | some l =>
    let (bytes, ended, l) := l.peerReceive n
    let w := w.modifyLink i side fun _ => l
    (.received bytes ended, if bytes = [] then w else w.stir (.stream i side))
  | none => (.badStep, w)

def holder? (w : World) (id : String) : Side → Option Nat
  | .client => w.clientOf? id
  | .backend => w.backendOf? id

/-- Does something with the end that the named party holds, if it holds one. -/
def withHolder (w : World) (id : String) (side : Side) (f : Nat → Answer × World) :
    Answer × World :=
  match w.holder? id side with
  | some i => f i
  | none => (.badStep, w)

def pump (w : World) (id : String) (source : Side) (bytes : Bytes) : Answer × World :=
  match w.holder? id source, w.holder? id source.other with
  | some i, some j =>
    let (_, w) := w.sendOver i source bytes
    let w := w.settle
    match w.receiveOver j source.other bytes.length with
    | (.received got ended, w) => (.pumped got (got = bytes) ended, w)
    | answer => answer
  | _, _ => (.badStep, w)

/-- A datagram client takes the next datagram that came to it, if any did. -/
def receiveDatagram (w : World) (id : String) : Answer × World :=
  match w.clients.find? (·.id = id) with
  | some ⟨_, address, received :: inbox⟩ =>
    (.datagram (some received),
      { w with clients := w.clients.map fun c =>
          if c.address = address then { c with inbox } else c })
  | some _ => (.datagram none, w)
  | none => (.badStep, w)

/-- The backend takes the next datagram that came to it, if any did. -/
def takeDatagram (w : World) : Answer × World :=
  if w.proxy.backend.transport ≠ .datagram then (.badStep, w)
  else
    match w.toBackend with
    | [] => (.flowDatagram none, w)
    | datagram :: rest => (.flowDatagram (some datagram), { w with toBackend := rest })

/-- The backend answers on a flow. Whoever waits to send there tries again. -/
def answerFlow (w : World) (flow : Nat) (payload : Bytes) : Answer × World :=
  if (w.socket? flow).isNone then (.badStep, w)
  else if w.holdsSocket flow then
    (.answered,
      (w.modifySocket flow fun s => { s with inbox := s.inbox ++ [payload] }).stir (.socket flow))
  else (.answered, w)

/-- Who has something to read: clients, the backend's ends of their streams, the backend. -/
def readable (w : World) : List String :=
  let sorted (ids : List String) : List String := ids.mergeSort fun a b => decide (a ≤ b)
  let streams := w.connections.filter fun c => c.front.heldByPeer ∧ c.front.outward.isReadable
  let datagrams := w.clients.filter fun c => c.inbox ≠ []
  let backs := w.connections.filterMap fun c =>
    if c.back.any fun l => l.heldByPeer ∧ l.outward.isReadable then c.backendId else none
  sorted (streams.map Connection.id) ++ sorted (datagrams.map DatagramClient.id) ++
    (sorted backs).map ("b:" ++ ·) ++
    if w.backlog ≠ [] ∨ w.toBackend ≠ [] then ["backend"] else []

/-- Datagrams are sent to the frontend of a datagram proxy, bytes to that of any other. -/
def takesDatagrams (w : World) : Bool := w.proxy.frontend.transport = .datagram

/-- The clock moves, for a proxy that looks at it. -/
def advance (w : World) (duration : Nat) : World :=
  w.apply (.service (.datagram (.advance duration)))

/-- What a step does before the proxy runs, and answers unless the answer depends on that. -/
def act (w : World) : Step → Answer × World
  | .run => (.done, w.apply .run)
  | .close => (.done, w.apply .close)
  | .status | .log _ | .quiet => (.done, w)
  | .advance d => (.done, w.advance d)
  | .fault f => (.done, { w with faults := w.faults ++ [f] })
  | .backendDown => (.done, w.stopBackend)
  | .backendUp => (.done, { w with backendUp := true })
  | .connect id endpoint => w.connect id endpoint
  | .accept id => w.takeConnection id
  | .send id payloads =>
    if w.takesDatagrams then w.sendDatagrams id payloads
    else w.withHolder id .client fun i => w.sendOver i .client payloads.flatten
  | .receive id n =>
    if w.takesDatagrams then w.receiveDatagram id
    else w.withHolder id .client fun i => w.receiveOver i .client n
  | .shutdown id => (.done, (w.clientOf? id).elim w (w.leave · .client Link.peerShutdown))
  | .drop id => (.done, (w.clientOf? id).elim w (w.leave · .client Link.peerDrop))
  | .backendSend id bytes => w.withHolder id .backend fun i => w.sendOver i .backend bytes
  | .backendReceive id n => w.withHolder id .backend fun i => w.receiveOver i .backend n
  | .backendShutdown id =>
    (.done, (w.backendOf? id).elim w (w.leave · .backend Link.peerShutdown))
  | .backendDrop id => (.done, (w.backendOf? id).elim w (w.leave · .backend Link.peerDrop))
  | .pump id source bytes => w.pump id source bytes
  | .takeDatagram => w.takeDatagram
  | .answerFlow flow payload => w.answerFlow flow payload
  | .stray flow _ => (if (w.socket? flow).isNone then .badStep else .done, w)
  | .invalid => (.badStep, w)

/-- The answer of a step that looks at the proxy, once that has run. -/
def look (w : World) (answer : Answer) : Step → Answer × World
  | .run => (.runs w.proxy.runs, w)
  | .close => (.closed w.proxy.isClosed w.proxy.runs, w)
  | .status =>
    (.status w.proxy.isClosed w.proxy.runs (w.addressText w.proxy.frontend)
      (w.addressText w.proxy.backend), w)
  | .log sorted =>
    let lines := w.notices.map (Notice.line w.name)
    (.log (if sorted then lines.mergeSort fun a b => decide (a ≤ b) else lines),
      { w with notices := [] })
  | .quiet => (.quiet w.readable w.dials, w)
  | _ => (answer, w)

/-- A whole step: the script acts, the proxy runs, the script looks. -/
def step (w : World) (s : Step) : Answer × World :=
  let (answer, w) := w.act s
  w.settle.look answer s

def play (w : World) : List Step → List Answer
  | [] => []
  | s :: steps =>
    let (answer, w) := w.step s
    answer :: w.play steps

end World

end PortForward.Session

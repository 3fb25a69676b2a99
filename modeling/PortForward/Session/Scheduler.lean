import PortForward.Session.World

/-!
# Letting the proxy run

After each step of a script the proxy runs until it has nothing left to do. The scheduler
looks for something in the proxy that can go on, asks the kernel what comes of it, and hands
the answer over as an event. Of several things that can go on it takes the first, so every
session has one outcome; whoever is to stop comes before whoever has work, but a reply task
first takes what waits on its socket, also before the loop sends.
-/

namespace PortForward.Session

namespace World

/-- The answer of the kernel to a call: a fault if one waits, else what the world says. -/
def ask {α : Type} (w : World) (call : SystemCall) (answer : World → Except IoError α × World) :
    Except IoError α × World :=
  match Fault.take? call w.faults with
  | some (e, faults) => (.error e, { w with faults })
  | none => answer w

/-- Several calls in a row, of which the first failure counts. -/
def askAll {α : Type} (w : World) (calls : List SystemCall)
    (answer : World → Except IoError α × World) : Except IoError α × World :=
  match calls with
  | [] => answer w
  | call :: calls =>
    match w.ask call fun w => (.ok (), w) with
    | (.error e, w) => (.error e, w)
    | (.ok (), w) => w.askAll calls answer

/-- A connection reaches the backend, if that listens. -/
def meetBackend (w : World) (i : Nat) : Except IoError Unit × World :=
  if w.backendUp then
    (.ok (), { w.modifyConnection i fun c => { c with back := some .fresh } with
      backlog := w.backlog ++ [i] })
  else (.error (.os Errno.connectionRefused), w)

def dialBackend (w : World) (i : Nat) (backend : StreamBackend) : Except IoError Unit × World :=
  w.askAll [.socket, .connect] fun w =>
    match backend with
    | .ip _ =>
      if w.host.routesStreams then w.meetBackend i else (.error (.os Errno.networkUnreachable), w)
    | .vsock e => { w with dials := w.dials ++ [e.toKernel] }.meetBackend i

/-- What comes of opening the backend socket of the given number. -/
def openSocket (w : World) (n : Nat) : Except IoError Unit × World :=
  w.askAll [.socket, .bind, .connect] fun w =>
    if w.host.routesDatagrams then (.ok (), { w with sockets := w.sockets ++ [⟨n, [], false⟩] })
    else (.error (.os Errno.networkUnreachable), w)

/-- What comes of sending on a backend socket. A refusal that waits is reported instead. -/
def sendOn (w : World) (n : Nat) : Except IoError Unit × World :=
  w.ask .send fun w =>
    if (w.socket? n).any (·.refused) then
      (.error (.os Errno.connectionRefused), w.modifySocket n fun s => { s with refused := false })
    else (.ok (), w)

/-- What comes of receiving on a backend socket, if something waits there. -/
def receiveOn? (w : World) (n : Nat) : Option (Except IoError Bytes × World) :=
  (w.socket? n).bind fun s =>
    if s.refused then
      some (w.ask .recv fun w =>
        (.error (.os Errno.connectionRefused),
          w.modifySocket n fun s => { s with refused := false }))
    else
      match s.inbox with
      | [] => none
      | payload :: rest =>
        some (w.ask .recv fun w =>
          (.ok payload, w.modifySocket n fun s => { s with inbox := rest }))

/-- What comes of reading a stream, if there is something to read. -/
def readFrom? (w : World) (i : Nat) (side : Side) (n : Nat) :
    Option (Except IoError Bytes × World) :=
  (w.link? i side).bind fun l =>
    (l.proxyRead? n).map fun (answer, l) =>
      w.ask .recv fun w => (answer, w.modifyLink i side fun _ => l)

/-- A reply that the kernel cannot take now is no failure: its task waits until something happens
on the frontend socket. -/
def blockReply (w : World) (t : ReplyTask) : World :=
  match t.phase, Fault.take? .sendto w.faults with
  | .replying _, some (e, faults) =>
    if e.kind = .wouldBlock ∧ t.socket ∉ w.blocked then
      { w with faults, blocked := w.blocked ++ [t.socket] }
    else w
  | _, _ => w

def blockReplies (w : World) : World :=
  match w.proxy.service with
  | .datagram r => r.tasks.foldl blockReply w
  | _ => w

def holdsBytes : Half → Bool
  | .copying (_ :: _) _ | .ending (_ :: _) _ => true
  | _ => false

/-- What the proxy writes to next. A closed stream proxy writes no more. -/
def writesNext (w : World) : List Outlet :=
  match w.proxy.service with
  | .stream s =>
    if w.proxy.isClosed then []
    else s.relays.flatMap fun r =>
      match r.phase with
      | .copying up down =>
        (if holdsBytes up then [.stream r.client .backend] else []) ++
          if holdsBytes down then [.stream r.client .client] else []
      | _ => []
  | .framed s => s.relays.flatMap fun r =>
    match r.phase with
    | .writing .. => [.stream r.client .client]
    | .sending socket .. => [.socket socket]
    | _ => []
  | .datagram r => r.loop.socket?.toList.map .socket

/-- What the kernel cannot take now is no failure either: whoever writes it waits until something
happens at the other end of the outlet. -/
def stallWrite (w : World) (outlet : Outlet) : World :=
  match Fault.take? .send w.faults with
  | some (e, faults) =>
    if e.kind = .wouldBlock ∧ outlet ∉ w.stalled then
      { w with faults, stalled := w.stalled ++ [outlet] }
    else w
  | none => w

def stallWrites (w : World) : World := w.writesNext.foldl stallWrite w

def writeTo (w : World) (i : Nat) (side : Side) (bytes : Bytes) : Except IoError Nat × World :=
  w.ask .send fun w =>
    match (w.link? i side).map Link.proxyWrite with
    | some (.ok ()) => (.ok bytes.length, w)
    | some (.error e) => (.error e, w)
    | none => (.error (.os Errno.brokenPipe), w)

/-- The next client that waits to be accepted, given how many have been. -/
def acceptNext? (w : World) (accepted : Nat) : Option (Except IoError Address × World) :=
  w.connections[accepted]?.map fun c => w.ask .accept fun w => (.ok c.peer, w)

end World

/-- Something that can go on, with the world after the kernel's answer. -/
abbrev Move := Proxy.Event × World

namespace Move

/-- A call of one direction of a stream relay: writing before ending before reading. -/
def ofHalf? (w : World) (i : Nat) (source : Side) (h : Half) : Option (Half.Event × World) :=
  match h with
  | .copying (b :: held) _ | .ending (b :: held) _ =>
    if .stream i source.other ∈ w.stalled then none
    else
      let (answer, w) := w.writeTo i source.other (b :: held)
      some (.write answer, w)
  | .copying [] _ =>
    (w.readFrom? i source Half.capacity).map fun (answer, w) => (.read answer, w)
  | .ending [] _ => some (.shutdown (.ok ()), w)
  | .ended _ => none

def ofStreamRelay? (w : World) (closed : Bool) (backend : StreamBackend) (r : StreamRelay) :
    Option (StreamRelay.Event × World) :=
  match closed, r.phase with
  | _, .accepted => some (.announce, w)
  | true, _ => some (.drop, w)
  | false, .announced => some (.dial, w)
  | false, .dialing =>
    let (answer, w) := w.dialBackend r.client backend
    some (.connected answer, w)
  | false, .copying up down =>
    ((ofHalf? w r.client .client up).map fun (e, w) => (.copy .client e, w)).or
      ((ofHalf? w r.client .backend down).map fun (e, w) => (.copy .backend e, w))

def ofFramedRelay? (w : World) (closed : Bool) (opened : Nat) (r : FramedRelay) :
    Option (FramedRelay.Event × World) :=
  match r.phase with
  | .accepted => some (.announce, w)
  | .opening =>
    let (answer, w) := w.openSocket opened
    some (.opened answer, w)
  | .sending socket _ _ =>
    if .socket socket ∈ w.stalled then none
    else
      let (answer, w) := w.sendOn socket
      some (.send answer, w)
  | .writing _ rest =>
    if .stream r.client .client ∈ w.stalled then none
    else
      let (answer, w) := w.writeTo r.client .client rest
      some (.write answer, w)
  | .waiting socket =>
    if closed then some (.stop, w)
    else if r.readable then some (.decode, w)
    else
      ((w.readFrom? r.client .client Half.capacity).map fun (a, w) => (.read a, w)).or
        ((w.receiveOn? socket).map fun (a, w) => (.receive a, w))

def ofReplyTask? (w : World) (closed : Bool) (t : ReplyTask) :
    Option (DatagramRelay.Event × World) :=
  match t.phase with
  | .receiving =>
    ((w.receiveOn? t.socket).map fun (a, w) => (.replyReceive t.socket a, w)).or
      (if closed ∨ t.cancelled then some (.replyStop t.socket, w) else none)
  | .refreshing _ => some (.refresh t.socket, w)
  | .replying _ =>
    if t.socket ∈ w.blocked then none
    else
      let (answer, w) := w.ask .sendto fun w => (.ok (), w)
      some (.replySend t.socket answer, w)
  | .forgetting => some (.forget t.socket, w)

/-- The socket that a datagram of this client needs opened, if it has none. -/
def openingFor (w : World) (r : DatagramRelay) (client : SocketAddress) : Opening × World :=
  if (r.table.find? client).isSome then (⟨.ok (), .ok (World.flowAddress r.opened)⟩, w)
  else
    match w.openSocket r.opened with
    | (.error e, w) => (⟨.error e, .ok (World.flowAddress r.opened)⟩, w)
    | (.ok (), w) =>
      let (address, w) := w.ask .getsockname fun w => (.ok (World.flowAddress r.opened), w)
      (⟨.ok (), address⟩, w)

def ofLoop? (w : World) (closed : Bool) (r : DatagramRelay) :
    Option (DatagramRelay.Event × World) :=
  match r.loop with
  | .idle | .ended => none
  | .waiting =>
    if closed then some (.stop, w)
    else if r.nextSweep ≤ r.now then some (.sweep, w)
    else
      match w.toFrontend with
      | [] => none
      | datagram :: rest =>
        let (answer, w) := w.ask .recvfrom fun w => (.ok datagram, { w with toFrontend := rest })
        some (.receive answer, w)
  | .looking client _ =>
    let (opening, w) := openingFor w r client
    some (.lookUp opening, w)
  | .sending _ _ socket _ =>
    if .socket socket ∈ w.stalled then none
    else
      let (answer, w) := w.sendOn socket
      some (.send answer, w)
  | .draining _ => some (.drain, w)

/-- What an accepting loop can do next: stop, or accept. -/
def ofAccepting? {α : Type} (w : World) (closed accepting : Bool) (accepted : Nat)
    (stop : α) (accept : Except IoError Address → α) : Option (α × World) :=
  if ¬ accepting then none
  else if closed then some (stop, w)
  else (w.acceptNext? accepted).map fun (answer, w) => (accept answer, w)

/-- The first thing that can go on in a stream service. -/
def ofStream? (w : World) (closed : Bool) (s : StreamService) :
    Option (StreamService.Event × World) :=
  (ofAccepting? w closed s.accepting s.accepted .stop .accept).or
    (s.relays.findSome? fun r =>
      (ofStreamRelay? w closed s.backend r).map fun (e, w) => (.relay r.client e, w))

/-- The first thing that can go on in a framed service. -/
def ofFramed? (w : World) (closed : Bool) (s : FramedService) :
    Option (FramedService.Event × World) :=
  (ofAccepting? w closed s.accepting s.accepted .stop .accept).or
    (s.relays.findSome? fun r =>
      (ofFramedRelay? w closed s.opened r).map fun (e, w) => (.relay r.client e, w))

/-- The first thing that can go on in a datagram relay. -/
def ofDatagram? (w : World) (closed : Bool) (r : DatagramRelay) :
    Option (DatagramRelay.Event × World) :=
  let replying := r.tasks.findSome? (ofReplyTask? w closed)
  match r.loop with
  | .sending .. => replying.or (ofLoop? w closed r)
  | _ => (ofLoop? w closed r).or replying

/-- The first thing in the proxy that can go on. -/
def next? (w : World) : Option Move :=
  match w.proxy.service with
  | .stream s => (ofStream? w w.proxy.isClosed s).map fun (e, w) => (.service (.stream e), w)
  | .framed s => (ofFramed? w w.proxy.isClosed s).map fun (e, w) => (.service (.framed e), w)
  | .datagram r =>
    (ofDatagram? w w.proxy.isClosed r).map fun (e, w) => (.service (.datagram e), w)

end Move

namespace World

/-- Lets the proxy run for at most the given number of steps. -/
def runFor : Nat → World → World
  | 0, w => w
  | n + 1, w =>
    let w := w.blockReplies.stallWrites
    match Move.next? w with
    | none => w
    | some (event, w) => runFor n (w.apply event)

/-- More steps than the proxy can take with what is on its way: each byte of a stream and
each datagram is handled a bounded number of times. -/
def work (w : World) : Nat :=
  let streams := w.connections.map fun c =>
    64 + c.front.inward.unread.length + (c.back.elim 0 fun l => l.inward.unread.length)
  let sockets := w.sockets.map fun s => 64 + 64 * s.inbox.length
  1024 + 8 * streams.foldr (· + ·) 0 + sockets.foldr (· + ·) 0 + 64 * w.toFrontend.length +
    64 * w.faults.length

/-- Lets the proxy run until it has nothing left to do. A frontend that is no longer bound
lets go of the clients that were not accepted. -/
def settle (w : World) : World :=
  let w := w.runFor w.work
  if w.proxy.isBound then w
  else
    let accepted := match w.proxy.service with
      | .stream s => s.accepted
      | .framed s => s.accepted
      | .datagram _ => 0
    { w with connections := w.connections.mapIdx fun i c =>
        if accepted ≤ i then { c with front := c.front.proxyRelease } else c }

end World

end PortForward.Session

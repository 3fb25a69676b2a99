import PortForward.Relay.FlowTable
import PortForward.Relay.Effect

/-!
# The datagram relay

One loop receives the datagrams of all clients. The first datagram of a client opens a
backend socket of its own, with a task that carries the replies back; a sweep removes the
flows that have been idle for too long. The loop, the sweep and the tasks share the table
of flows. Each access to the table is one step, and so is each receive and each send, so
that the steps of different parties may come in any order.

Every receive uses a buffer of `maxPayload` bytes, and what does not fit into it is lost.
-/

namespace PortForward

/-- What the reply task of a flow waits for, or does next. -/
inductive ReplyPhase
  | receiving
  /-- has a reply, and notes the activity next -/
  | refreshing (payload : Bytes)
  | replying (payload : Bytes)
  /-- has given up on its socket, and removes its entry next -/
  | forgetting
  deriving DecidableEq, Repr

/-- The task that carries the replies on one backend socket back to its client. -/
structure ReplyTask where
  socket : Nat
  client : SocketAddress
  cancelled : Bool
  phase : ReplyPhase
  deriving DecidableEq, Repr

/-- What the receive loop waits for, or does next. -/
inductive LoopPhase
  | idle
  | waiting
  /-- has a datagram, and looks for the client's flow next -/
  | looking (client : SocketAddress) (payload : Bytes)
  | sending (client : SocketAddress) (payload : Bytes) (socket : Nat) (retried : Bool)
  /-- has left the loop, and ends all flows next -/
  | draining (loopEnd : LoopEnd)
  | ended
  deriving DecidableEq, Repr

/-- The backend socket that the loop holds while it sends. -/
def LoopPhase.socket? : LoopPhase → Option Nat
  | .sending _ _ socket _ => some socket
  | _ => none

/-- A datagram proxy at work. -/
structure DatagramRelay where
  backend : SocketAddress
  timeout : Nat
  /-- what the log shows; what is only logged is not asked for at a lower level -/
  level : Level
  now : Nat
  started : Nat
  nextSweep : Nat
  loop : LoopPhase
  table : FlowTable
  tasks : List ReplyTask
  opened : Nat
  deriving DecidableEq, Repr

/-- What the kernel answers when a backend socket is opened, and when it is asked for the
address of that socket. -/
structure Opening where
  connected : Except IoError Unit
  localAddress : Except IoError SocketAddress

namespace DatagramRelay

/-- How long an idle client keeps its backend socket, unless told otherwise. -/
def defaultTimeout : Nat := 90 * Duration.second

def idle (backend : SocketAddress) (level : Level) : DatagramRelay where
  backend
  timeout := defaultTimeout
  level
  now := 0
  started := 0
  nextSweep := 0
  loop := .idle
  table := []
  tasks := []
  opened := 0

/-- The loop starts with a sweep. -/
def start (r : DatagramRelay) : DatagramRelay :=
  { r with loop := .waiting, started := r.now, nextSweep := r.now }

/-- The time between two sweeps: the timeout, but at least a second and at most thirty. -/
def period (r : DatagramRelay) : Nat :=
  max Duration.second (min r.timeout (30 * Duration.second))

/-- The first multiple of the period after the start that lies ahead. A timer that has missed
several ticks fires once for each of them, all at the same time; what the first sweep leaves
has not expired by that time, so one sweep stands for them all. -/
def sweepAfter (r : DatagramRelay) : Nat :=
  r.started + ((r.now - r.started) / r.period + 1) * r.period

inductive Event
  | advance (duration : Nat)
  | sweep
  | receive (result : Except IoError (SocketAddress × Bytes))
  /-- the access to the table; the answers are used only if there is a socket to open -/
  | lookUp (opening : Opening)
  | send (result : Except IoError Unit)
  /-- the loop notices that the proxy is closed -/
  | stop
  | drain
  | replyReceive (socket : Nat) (result : Except IoError Bytes)
  | refresh (socket : Nat)
  | replySend (socket : Nat) (result : Except IoError Unit)
  | forget (socket : Nat)
  /-- the task notices that its flow or the proxy is closed -/
  | replyStop (socket : Nat)

def task? (r : DatagramRelay) (socket : Nat) : Option ReplyTask :=
  r.tasks.find? (·.socket = socket)

def setPhase (r : DatagramRelay) (socket : Nat) (phase : ReplyPhase) : DatagramRelay :=
  { r with tasks := r.tasks.map fun t => if t.socket = socket then { t with phase } else t }

def endTask (r : DatagramRelay) (socket : Nat) : DatagramRelay :=
  { r with tasks := r.tasks.filter (·.socket ≠ socket) }

def cancelTasks (r : DatagramRelay) (sockets : List Nat) : DatagramRelay :=
  { r with tasks := r.tasks.map fun t =>
      if t.socket ∈ sockets then { t with cancelled := true } else t }

section
variable (r : DatagramRelay) (socket : Nat) (phase : ReplyPhase) (sockets : List Nat)

@[simp] theorem setPhase_loop : (r.setPhase socket phase).loop = r.loop := rfl

@[simp] theorem setPhase_table : (r.setPhase socket phase).table = r.table := rfl

@[simp] theorem setPhase_opened : (r.setPhase socket phase).opened = r.opened := rfl

@[simp] theorem endTask_loop : (r.endTask socket).loop = r.loop := rfl

@[simp] theorem endTask_table : (r.endTask socket).table = r.table := rfl

@[simp] theorem endTask_opened : (r.endTask socket).opened = r.opened := rfl

@[simp] theorem cancelTasks_loop : (r.cancelTasks sockets).loop = r.loop := rfl

@[simp] theorem cancelTasks_table : (r.cancelTasks sockets).table = r.table := rfl

@[simp] theorem cancelTasks_opened : (r.cancelTasks sockets).opened = r.opened := rfl

end

def giveUp (r : DatagramRelay) (client : SocketAddress) (e : IoError) : Turn DatagramRelay :=
  .on { r with loop := .waiting } [.log (.forwardFailed client e)]

def addFlow (r : DatagramRelay) (client : SocketAddress) (payload : Bytes) : DatagramRelay :=
  { r with
    loop := .sending client payload r.opened false
    table := r.table.add client ⟨r.opened, r.now⟩
    tasks := r.tasks ++ [⟨r.opened, client, false, .receiving⟩]
    opened := r.opened + 1 }

/-- Opens a backend socket for a client without one. The socket's own address is wanted
only for the log; if the log shows it and it cannot be had, the socket is given up. -/
def openFlow (r : DatagramRelay) (client : SocketAddress) (payload : Bytes) (o : Opening) :
    Turn DatagramRelay :=
  match o.connected with
  | .error e => r.giveUp client e
  | .ok () =>
    if r.level.shows .info then
      match o.localAddress with
      | .error e => { r with opened := r.opened + 1 }.giveUp client e
      | .ok a => .on (r.addFlow client payload) [.log (.flowOpened client r.backend a)]
    else .on (r.addFlow client payload) []

def sweepNow (r : DatagramRelay) : Turn DatagramRelay :=
  let gone := r.table.expired r.timeout r.now
  let r := { r with table := r.table.kept r.timeout r.now, nextSweep := r.sweepAfter }
  .on (r.cancelTasks gone.sockets) (gone.map fun (c, _) => .log (.flowExpired c))

/-- A step of the relay, if it is waiting for this event. -/
def step (closed : Bool) (r : DatagramRelay) : Event → Option (Turn DatagramRelay)
  | .advance d => some (.on { r with now := r.now + d } [])
  | .sweep => if r.loop = .waiting ∧ r.nextSweep ≤ r.now then some r.sweepNow else none
  | .receive result =>
    match r.loop, result with
    | .waiting, .ok (client, payload) =>
      some (.on { r with loop := .looking client (payload.take maxPayload) } [])
    | .waiting, .error e => some (.on { r with loop := .draining (.failed e) } [])
    | _, _ => none
  | .lookUp opening =>
    match r.loop with
    | .looking client payload =>
      match r.table.find? client with
      | some flow =>
        some (.on
          { r with
            loop := .sending client payload flow.socket false
            table := r.table.touch client r.now } [])
      | none => some (r.openFlow client payload opening)
    | _ => none
  | .send result =>
    match r.loop, result with
    | .sending client payload socket _, .ok () =>
      some (.on { r with loop := .waiting }
        [.transmit socket payload, .log (.forwarded payload.length client r.backend)])
    | .sending client payload socket retried, .error e =>
      if e.kind = .connectionRefused ∧ ¬ retried then
        some (.on { r with loop := .sending client payload socket true } [])
      else some (r.giveUp client e)
    | _, _ => none
  | .stop =>
    if r.loop = .waiting ∧ closed then some (.on { r with loop := .draining .closed } []) else none
  | .drain =>
    match r.loop with
    | .draining loopEnd =>
      let sockets := r.table.sockets
      some ⟨{ r with loop := .ended, table := [] }.cancelTasks sockets, [], some loopEnd⟩
    | _ => none
  | .replyReceive socket result =>
    (r.task? socket).bind fun t =>
      match t.phase, result with
      | .receiving, .ok payload =>
        some (.on (r.setPhase socket (.refreshing (payload.take maxPayload))) [])
      | .receiving, .error e =>
        if e.kind = .connectionRefused then some (.on r [.log (.receiveRefused t.client)])
        else some (.on (r.setPhase socket .forgetting) [.log (.receiveFailed t.client e)])
      | _, _ => none
  | .refresh socket =>
    (r.task? socket).bind fun t =>
      match t.phase with
      | .refreshing payload =>
        some (.on
          ({ r with table := r.table.touch t.client r.now }.setPhase socket (.replying payload)) [])
      | _ => none
  | .replySend socket result =>
    (r.task? socket).bind fun t =>
      match t.phase, result with
      | .replying payload, .ok () =>
        some (.on (r.setPhase socket .receiving)
          [.reply t.client payload, .log (.replied payload.length t.client)])
      | .replying _, .error e =>
        some (.on (r.setPhase socket .receiving) [.log (.replyFailed t.client e)])
      | _, _ => none
  | .forget socket =>
    (r.task? socket).bind fun t =>
      match t.phase with
      | .forgetting =>
        some (.on ({ r with table := r.table.forget t.client socket }.endTask socket)
          [.log (.repliesStopped t.client)])
      | _ => none
  | .replyStop socket =>
    (r.task? socket).bind fun t =>
      match t.phase with
      | .receiving =>
        if t.cancelled ∨ closed then
          some (.on (r.endTask socket) [.log (.repliesStopped t.client)])
        else none
      | _ => none

def isOpen (r : DatagramRelay) (socket : Nat) : Bool :=
  socket ∈ r.table.sockets ∨ socket ∈ r.tasks.map (·.socket) ∨ r.loop.socket? = some socket

/-- Someone holds the frontend socket: the loop, or a task that may still reply. -/
def holdsFrontend (r : DatagramRelay) : Bool :=
  match r.loop with
  | .idle | .ended => r.tasks ≠ []
  | _ => true

end DatagramRelay

end PortForward

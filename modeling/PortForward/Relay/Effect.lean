import PortForward.Frame.Basic
import PortForward.Notice

/-!
# What relays do

A relay is a machine that waits for one thing at a time. Its events say what the waiting
led to: every answer of the kernel is part of an event, and so is every choice of who
moves next. Its effects are what others can see of a step. A call that fails sends nothing,
so a transmission is an effect of a successful send only.

Clients of streams are numbered in the order of their acceptance, backend sockets of
datagrams in the order of their opening; no number is used twice.
-/

namespace PortForward

/-- A side of a relay. -/
inductive Side
  | client
  | backend
  deriving DecidableEq, Repr

def Side.other : Side → Side
  | client => backend
  | backend => client

/-- What a step does to the world around the proxy. -/
inductive Effect
  | log (notice : Notice)
  /-- asks for a connection to the backend on behalf of a client -/
  | dial (client : Nat)
  /-- writes bytes to one side of a client's relay -/
  | deliver (client : Nat) (target : Side) (bytes : Bytes)
  /-- ends the stream towards one side of a client's relay -/
  | endStream (client : Nat) (target : Side)
  /-- lets go of all streams and sockets of a client's relay -/
  | release (client : Nat)
  /-- sends a datagram to the backend -/
  | transmit (socket : Nat) (payload : Bytes)
  /-- sends a datagram from the frontend to a client -/
  | reply (client : SocketAddress) (payload : Bytes)
  deriving DecidableEq, Repr

/-- How a listening loop ends. -/
inductive LoopEnd
  | closed
  | failed (cause : IoError)
  deriving DecidableEq, Repr

/-- What one step leads to: the next state, the effects, and how the listening loop ended
if this step ended it. -/
structure Turn (α : Type) where
  next : α
  effects : List Effect
  loopEnd : Option LoopEnd

def Turn.on {α : Type} (next : α) (effects : List Effect) : Turn α := ⟨next, effects, none⟩

namespace Turn

variable {α : Type} (next : α) (effects : List Effect)

@[simp] theorem on_next : (on next effects).next = next := rfl

@[simp] theorem on_effects : (on next effects).effects = effects := rfl

@[simp] theorem on_loopEnd : (on next effects).loopEnd = none := rfl

end Turn

end PortForward

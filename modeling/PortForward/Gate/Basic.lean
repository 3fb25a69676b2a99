import PortForward.Failure

/-!
# The gate of a proxy

A gate keeps the listener of a proxy in a slot until a run takes it, and a token that is
cancelled once and for all when the proxy is closed. Starting takes whatever is in the slot and only
then looks at the token; closing cancels the token and then empties the slot. In this
order no listener can be handed out by a start that a close has overtaken.

The operations here happen at once. Callers that race have a module of their own.
-/

namespace PortForward

/-- The slot of a listener, and whether the token is cancelled. -/
structure Gate (α : Type) where
  slot : Option α
  cancelled : Bool
  deriving DecidableEq, Repr

namespace Gate

variable {α : Type}

def fresh (listener : α) : Gate α := ⟨some listener, false⟩

def cancel (g : Gate α) : Gate α := { g with cancelled := true }

def emptySlot (g : Gate α) : Gate α := { g with slot := none }

/-- What a start answers that found this in the slot. -/
def verdict (cancelled : Bool) (taken : Option α) : Except Failure α :=
  if cancelled then .error .closed
  else
    match taken with
    | some listener => .ok listener
    | none => .error .alreadyStarted

/-- Hands out the listener, to the first caller of a proxy that is not closed. -/
def start (g : Gate α) : Except Failure α × Gate α :=
  (verdict g.cancelled g.slot, g.emptySlot)

def close (g : Gate α) : Gate α := g.cancel.emptySlot

/-- A run that ended with an error closes the proxy. -/
def finish {β : Type} (g : Gate α) (result : Except Failure β) : Gate α :=
  match result with
  | .ok _ => g
  | .error _ => g.close

end Gate

end PortForward

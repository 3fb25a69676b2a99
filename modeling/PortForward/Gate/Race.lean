import PortForward.Gate.Basic

/-!
# Racing callers

Any number of callers that start or close one proxy, step by step. A start holds the lock
of the slot from the moment it takes the listener until it has looked at the token. A close
cancels the token without the lock and then empties the slot under it. Any caller whose
next step is enabled may be the next to act.
-/

namespace PortForward.Gate

variable {α : Type}

/-- A caller and how far it has come. -/
inductive Caller (α : Type)
  /-- a start that does not have the lock yet -/
  | starting
  /-- a start that has the lock and what was in the slot -/
  | deciding (taken : Option α)
  | started (result : Except Failure α)
  /-- a close that has not cancelled the token yet -/
  | closing
  /-- a close that has cancelled the token and waits for the lock -/
  | emptying
  | closed
  deriving Repr

/-- What the callers share, the callers themselves, and the listeners that were dropped. -/
structure Race (α : Type) where
  gate : Gate α
  holder : Option Nat
  callers : List (Caller α)
  dropped : List α

namespace Race

/-- One caller moves on and leaves the shared state as given. -/
def moveOn (r : Race α) (i : Nat) (caller : Caller α) (gate : Gate α)
    (holder : Option Nat) (dropped : Option α) : Race α where
  gate
  holder
  callers := r.callers.set i caller
  dropped := r.dropped ++ dropped.toList

/-- The next step of caller `i`, if it has one. -/
def step (r : Race α) (i : Nat) : Option (Race α) :=
  match r.callers[i]? with
  | some .starting =>
    if r.holder = none then
      some (r.moveOn i (.deciding r.gate.slot) r.gate.emptySlot (some i) none)
    else none
  | some (.deciding taken) =>
    let result := verdict r.gate.cancelled taken
    let dropped := match result with
      | .ok _ => none
      | .error _ => taken
    some (r.moveOn i (.started result) r.gate none dropped)
  | some .closing => some (r.moveOn i .emptying r.gate.cancel r.holder none)
  | some .emptying =>
    if r.holder = none then
      some (r.moveOn i .closed r.gate.emptySlot none r.gate.slot)
    else none
  | _ => none

/-- Callers that act in the given order; those that cannot act are passed over. -/
def runAll (r : Race α) (order : List Nat) : Race α :=
  order.foldl (fun r i => (r.step i).getD r) r

end Race

end PortForward.Gate

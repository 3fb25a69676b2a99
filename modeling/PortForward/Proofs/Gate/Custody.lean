import Mathlib.Data.List.Perm.Basic
import PortForward.Gate.Race

/-!
# Who owns the listener

Callers race to start and to close one proxy. Whatever the order of their steps, the listener
is in one place only: in the slot, with a start that has taken it, or dropped. A start decides
with the lock in its hands, so nobody else has taken the listener or emptied the slot in the
meantime.
-/

namespace PortForward.Gate

variable {α : Type}

namespace Caller

def isDone : Caller α → Bool
  | started _ | closed => true
  | _ => false

/-- The caller has been at the slot, and has left it empty. -/
def hasTaken : Caller α → Bool
  | deciding _ | started _ | closed => true
  | _ => false

def hasCancelled : Caller α → Bool
  | emptying | closed => true
  | _ => false

/-- The listener that a start has taken and not dropped. -/
def held : Caller α → List α
  | deciding (some listener) | started (.ok listener) => [listener]
  | _ => []

end Caller

namespace Race

def fresh (listener : α) (callers : List (Caller α)) : Race α :=
  ⟨.fresh listener, none, callers, []⟩

/-- The listener, wherever it is. -/
def places (r : Race α) : List α := r.gate.slot.toList ++ r.callers.flatMap Caller.held ++ r.dropped

/-- The steps of caller `i`. -/
inductive Transition (r : Race α) (i : Nat) : Race α → Prop
  | took : r.callers[i]? = some .starting → r.holder = none →
      Transition r i (r.moveOn i (.deciding r.gate.slot) r.gate.emptySlot (some i) none)
  | tooLate {taken} : r.callers[i]? = some (.deciding taken) → r.gate.cancelled = true →
      Transition r i (r.moveOn i (.started (.error .closed)) r.gate none taken)
  | obtained {listener} : r.callers[i]? = some (.deciding (some listener)) →
      r.gate.cancelled = false →
      Transition r i (r.moveOn i (.started (.ok listener)) r.gate none none)
  | foundNone : r.callers[i]? = some (.deciding none) → r.gate.cancelled = false →
      Transition r i (r.moveOn i (.started (.error .alreadyStarted)) r.gate none none)
  | cancelled : r.callers[i]? = some .closing →
      Transition r i (r.moveOn i .emptying r.gate.cancel r.holder none)
  | emptied : r.callers[i]? = some .emptying → r.holder = none →
      Transition r i (r.moveOn i .closed r.gate.emptySlot none r.gate.slot)

variable {r r' : Race α} {i j : Nat} {listener : α} {callers : List (Caller α)}

theorem transition_of_step (h : r.step i = some r') : Transition r i r' := by
  unfold step at h
  split at h
  · rename_i hi
    split at h
    · rename_i hfree
      cases h
      exact .took hi hfree
    · cases h
  · rename_i taken hi
    cases hc : r.gate.cancelled with
    | true =>
      simp only [verdict, hc, if_true] at h
      cases h
      exact .tooLate hi hc
    | false =>
      cases taken with
      | none =>
        simp only [verdict, hc] at h
        cases h
        exact .foundNone hi hc
      | some listener =>
        simp only [verdict, hc] at h
        cases h
        exact .obtained hi hc
  · rename_i hi
    cases h
    exact .cancelled hi
  · rename_i hi
    split at h
    · rename_i hfree
      cases h
      exact .emptied hi hfree
    · cases h
  · cases h

section MoveOn

variable {c : Caller α} {gate : Gate α} {holder : Option Nat} {gone : Option α}

theorem caller_moveOn_of_ne (h : j ≠ i) :
    (r.moveOn i c gate holder gone).callers[j]? = r.callers[j]? :=
  List.getElem?_set_ne (Ne.symm h)

theorem caller_moveOn_self {old : Caller α} (h : r.callers[i]? = some old) :
    (r.moveOn i c gate holder gone).callers[i]? = some c := by
  obtain ⟨hlt, -⟩ := List.getElem?_eq_some_iff.mp h
  exact List.getElem?_set_self hlt

/-- A caller after a step of caller `i` is that one, or the same as before. -/
theorem caller_of_moveOn {old c' : Caller α} (h : r.callers[i]? = some old)
    (hj : (r.moveOn i c gate holder gone).callers[j]? = some c') :
    (j = i ∧ c' = c) ∨ (j ≠ i ∧ r.callers[j]? = some c') := by
  by_cases hji : j = i
  · subst hji
    rw [caller_moveOn_self h] at hj
    exact .inl ⟨rfl, (Option.some.inj hj).symm⟩
  · rw [caller_moveOn_of_ne hji] at hj
    exact .inr ⟨hji, hj⟩

theorem held_moveOn {old : Caller α} (h : r.callers[i]? = some old) :
    ((r.moveOn i c gate holder gone).callers.flatMap Caller.held ++ old.held).Perm
      (r.callers.flatMap Caller.held ++ c.held) := by
  unfold moveOn
  generalize r.callers = callers at h
  induction callers generalizing i with
  | nil => cases h
  | cons d callers ih =>
    cases i with
    | zero =>
      cases h
      simp only [List.set_cons_zero, List.flatMap_cons, List.append_assoc]
      exact (List.perm_append_comm_assoc ..).trans
        ((List.perm_append_comm.append_left _).trans (List.perm_append_comm_assoc ..))
    | succ i =>
      simp only [List.set_cons_succ, List.flatMap_cons, List.append_assoc]
      exact (ih h).append_left _

end MoveOn

/-- A step moves the listener, and neither loses it nor doubles it. -/
theorem places_moveOn {c old : Caller α} {gate : Gate α} {holder : Option Nat} {gone : Option α}
    (h : r.callers[i]? = some old)
    (hmoved : (gate.slot.toList ++ c.held ++ gone.toList).Perm (r.gate.slot.toList ++ old.held)) :
    (r.moveOn i c gate holder gone).places.Perm r.places := by
  classical
  have hheld : ((r.moveOn i c gate holder gone).callers.flatMap Caller.held ++ old.held).Perm
      (r.callers.flatMap Caller.held ++ c.held) := held_moveOn h
  rw [List.perm_iff_count] at hmoved hheld ⊢
  intro x
  have hx := hmoved x
  have hx' := hheld x
  simp only [places, moveOn, List.count_append] at hx hx' ⊢
  omega

/-- What holds at every moment of a race for the listener. -/
structure Owned (listener : α) (r : Race α) : Prop where
  one_place : r.places = [listener]
  deciding_iff : ∀ i, r.holder = some i ↔ ∃ taken, r.callers[i]? = some (.deciding taken)
  slot_of_taken : ∀ (i : Nat) (c : Caller α), r.callers[i]? = some c → c.hasTaken →
    r.gate.slot = none
  cancelled_of_close : ∀ (i : Nat) (c : Caller α), r.callers[i]? = some c → c.hasCancelled →
    r.gate.cancelled = true
  dropped_of_open : r.gate.cancelled = false → r.dropped = []
  /-- whoever has the listener in hand was the first at the slot -/
  first : ∀ (i : Nat) (l : α), r.callers[i]? = some (.deciding (some l)) →
    ∀ (j : Nat) (c : Caller α), j ≠ i → r.callers[j]? = some c → c.hasTaken = false

namespace Owned

/-- Nobody but the holder of the lock decides. -/
theorem eq_of_holder (h : Owned listener r) (hholder : r.holder = some i) {taken : Option α}
    (hj : r.callers[j]? = some (.deciding taken)) : j = i := by
  rw [(h.deciding_iff j).mpr ⟨taken, hj⟩] at hholder
  exact Option.some.inj hholder

theorem not_deciding (h : Owned listener r) (hfree : r.holder = none) (taken : Option α) :
    r.callers[j]? ≠ some (.deciding taken) := by
  intro hj
  rw [(h.deciding_iff j).mpr ⟨taken, hj⟩] at hfree
  cases hfree

theorem took (h : Owned listener r) (hi : r.callers[i]? = some .starting)
    (hfree : r.holder = none) :
    Owned listener (r.moveOn i (.deciding r.gate.slot) r.gate.emptySlot (some i) none) := by
  constructor
  case one_place =>
    apply List.perm_singleton.mp
    rw [← h.one_place]
    apply places_moveOn hi
    cases r.gate.slot <;> simp [Gate.emptySlot, Caller.held]
  case deciding_iff =>
    intro j
    constructor
    · intro hj
      cases hj
      exact ⟨_, caller_moveOn_self hi⟩
    · rintro ⟨taken, hj⟩
      rcases caller_of_moveOn hi hj with ⟨rfl, -⟩ | ⟨-, hj⟩
      · rfl
      · exact absurd hj (h.not_deciding hfree taken)
  case slot_of_taken => exact fun _ _ _ _ => rfl
  case cancelled_of_close =>
    intro j c hj hclose
    rcases caller_of_moveOn hi hj with ⟨-, rfl⟩ | ⟨-, hj⟩
    · cases hclose
    · exact h.cancelled_of_close j c hj hclose
  case dropped_of_open =>
    intro hopen
    simp [moveOn, h.dropped_of_open hopen]
  case first =>
    intro j l hj k c hne hk
    rcases caller_of_moveOn hi hj with ⟨rfl, hl⟩ | ⟨-, hj⟩
    · -- The slot was full, so nobody had been there.
      rcases caller_of_moveOn hi hk with ⟨rfl, -⟩ | ⟨-, hk⟩
      · exact absurd rfl hne
      · rw [← Bool.not_eq_true]
        intro htaken
        rw [h.slot_of_taken k c hk htaken] at hl
        cases hl
    · exact absurd hj (h.not_deciding hfree _)

theorem decided (h : Owned listener r) {taken gone : Option α} {result : Except Failure α}
    (hi : r.callers[i]? = some (.deciding taken))
    (hmoved : ((Caller.started result).held ++ gone.toList).Perm (Caller.deciding taken).held)
    (hgone : r.gate.cancelled = false → gone = none) :
    Owned listener (r.moveOn i (.started result) r.gate none gone) := by
  have hholder : r.holder = some i := (h.deciding_iff i).mpr ⟨taken, hi⟩
  constructor
  case one_place =>
    apply List.perm_singleton.mp
    rw [← h.one_place]
    apply places_moveOn hi
    rw [List.append_assoc]
    exact hmoved.append_left _
  case deciding_iff =>
    intro j
    constructor
    · intro hj
      cases hj
    · rintro ⟨taken', hj⟩
      rcases caller_of_moveOn hi hj with ⟨-, hc⟩ | ⟨hne, hj⟩
      · cases hc
      · exact absurd (h.eq_of_holder hholder hj) hne
  case slot_of_taken => exact fun _ _ _ _ => h.slot_of_taken i _ hi rfl
  case cancelled_of_close =>
    intro j c hj hclose
    rcases caller_of_moveOn hi hj with ⟨-, rfl⟩ | ⟨-, hj⟩
    · cases hclose
    · exact h.cancelled_of_close j c hj hclose
  case dropped_of_open =>
    intro hopen
    simp [moveOn, h.dropped_of_open hopen, hgone hopen]
  case first =>
    intro j l hj
    rcases caller_of_moveOn hi hj with ⟨-, hc⟩ | ⟨hne, hj⟩
    · cases hc
    · exact absurd (h.eq_of_holder hholder hj) hne

theorem cancelled (h : Owned listener r) (hi : r.callers[i]? = some .closing) :
    Owned listener (r.moveOn i .emptying r.gate.cancel r.holder none) := by
  constructor
  case one_place =>
    apply List.perm_singleton.mp
    rw [← h.one_place]
    apply places_moveOn hi
    simp [Gate.cancel, Caller.held]
  case deciding_iff =>
    intro j
    refine (h.deciding_iff j).trans (exists_congr fun taken => ?_)
    constructor
    · intro hj
      rwa [caller_moveOn_of_ne]
      rintro rfl
      cases hi.symm.trans hj
    · intro hj
      rcases caller_of_moveOn hi hj with ⟨-, hc⟩ | ⟨-, hj⟩
      · cases hc
      · exact hj
  case slot_of_taken =>
    intro j c hj htaken
    rcases caller_of_moveOn hi hj with ⟨-, rfl⟩ | ⟨-, hj⟩
    · cases htaken
    · exact h.slot_of_taken j c hj htaken
  case cancelled_of_close => exact fun _ _ _ _ => rfl
  case dropped_of_open => exact fun hopen => nomatch hopen
  case first =>
    intro j l hj k c hne hk
    rcases caller_of_moveOn hi hj with ⟨-, hc⟩ | ⟨-, hj⟩
    · cases hc
    · rcases caller_of_moveOn hi hk with ⟨-, rfl⟩ | ⟨-, hk⟩
      · rfl
      · exact h.first j l hj k c hne hk

theorem emptied (h : Owned listener r) (hi : r.callers[i]? = some .emptying)
    (hfree : r.holder = none) :
    Owned listener (r.moveOn i .closed r.gate.emptySlot none r.gate.slot) := by
  have hclosed := h.cancelled_of_close i _ hi rfl
  have hnone : ∀ (j : Nat) (taken : Option α),
      (r.moveOn i .closed r.gate.emptySlot none r.gate.slot).callers[j]? ≠
        some (.deciding taken) := by
    intro j taken hj
    rcases caller_of_moveOn hi hj with ⟨-, hc⟩ | ⟨-, hj⟩
    · cases hc
    · exact h.not_deciding hfree taken hj
  constructor
  case one_place =>
    apply List.perm_singleton.mp
    rw [← h.one_place]
    apply places_moveOn hi
    simp [Gate.emptySlot, Caller.held]
  case deciding_iff =>
    intro j
    constructor
    · intro hj
      cases hj
    · rintro ⟨taken, hj⟩
      exact absurd hj (hnone j taken)
  case slot_of_taken => exact fun _ _ _ _ => rfl
  case cancelled_of_close => exact fun _ _ _ _ => hclosed
  case dropped_of_open => exact fun hopen => nomatch hclosed.symm.trans hopen
  case first => exact fun j l hj => absurd hj (hnone j _)

theorem step (h : Owned listener r) (ht : Transition r i r') : Owned listener r' := by
  cases ht with
  | took hi hfree => exact h.took hi hfree
  | @tooLate taken hi hclosed =>
    apply h.decided hi
    · cases taken <;> exact .refl _
    · exact fun hopen => nomatch hclosed.symm.trans hopen
  | obtained hi => exact h.decided hi (.refl _) fun _ => rfl
  | foundNone hi => exact h.decided hi (.refl _) fun _ => rfl
  | cancelled hi => exact h.cancelled hi
  | emptied hi hfree => exact h.emptied hi hfree

end Owned

section Places

variable {c d : Caller α} {x : α}

theorem mem_held : x ∈ c.held ↔ c = .deciding (some x) ∨ c = .started (.ok x) := by
  cases c with
  | deciding taken =>
    cases taken <;> simp [Caller.held, eq_comm]
  | started result =>
    cases result <;> simp [Caller.held, eq_comm]
  | _ => simp [Caller.held]

end Places

namespace Owned

variable (h : Owned listener r)
include h

theorem eq_of_held {c : Caller α} {x : α} (hi : r.callers[i]? = some c) (hx : x ∈ c.held) :
    x = listener := by
  have hmem : x ∈ r.places := by
    simp only [places, List.mem_append, List.mem_flatMap]
    exact .inl (.inr ⟨c, List.mem_of_getElem? hi, hx⟩)
  rw [h.one_place] at hmem
  exact List.mem_singleton.mp hmem

theorem dropped_or_held (hslot : r.gate.slot = none) :
    r.dropped = [listener] ∨
      ∃ (j : Nat) (c : Caller α), r.callers[j]? = some c ∧ listener ∈ c.held := by
  have hone := h.one_place
  rw [places, hslot, Option.toList_none, List.nil_append, List.append_eq_singleton_iff] at hone
  rcases hone with ⟨-, hdropped⟩ | ⟨hheld, -⟩
  · exact .inl hdropped
  · have hmem : listener ∈ r.callers.flatMap Caller.held := by
      rw [hheld]
      exact List.mem_singleton_self _
    obtain ⟨c, hc, hx⟩ := List.mem_flatMap.mp hmem
    obtain ⟨j, hj⟩ := List.mem_iff_getElem?.mp hc
    exact .inr ⟨j, c, hj, hx⟩

end Owned

end Race

end PortForward.Gate

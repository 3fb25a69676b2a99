import Mathlib.Data.List.Induction
import PortForward.Proofs.Gate.Custody

/-!
# What racing callers can count on

A close cancels before it empties the slot, and a start takes before it looks at the token. So a
start that takes after the cancel sees it, and whoever finds the slot empty and the token not
cancelled has another start before it. Results are final: what was true of them once stays true.

Nothing here says that a caller acts at all, only that there is always one that can.
-/

namespace PortForward.Gate.Race

variable {α : Type} {r r' : Race α} {i j : Nat} {listener : α}

/-- What a start is answered at a moment when it decides. -/
inductive Verdict (listener : α) (r : Race α) : Except Failure α → Prop
  | closed : r.gate.cancelled = true → Verdict listener r (.error .closed)
  | first : r.gate.cancelled = false →
      (∀ (j : Nat) (l : α), r.callers[j]? ≠ some (.started (.ok l))) →
      Verdict listener r (.ok listener)
  | again {j : Nat} : r.gate.cancelled = false → r.callers[j]? = some (.started (.ok listener)) →
      Verdict listener r (.error .alreadyStarted)

/-- What a caller can find at a later moment. -/
structure Later (r r' : Race α) : Prop where
  cancelled : r.gate.cancelled = true → r'.gate.cancelled = true
  slot : r.gate.slot = none → r'.gate.slot = none
  done : ∀ (i : Nat) (c : Caller α), r.callers[i]? = some c → c.isDone → r'.callers[i]? = some c
  /-- after the cancel every start is refused -/
  refused : r.gate.cancelled = true → ∀ (i : Nat) (result : Except Failure α),
    r'.callers[i]? = some (.started result) →
    r.callers[i]? = some (.started result) ∨ result = .error .closed

theorem Later.refl (r : Race α) : Later r r :=
  ⟨id, id, fun _ _ hi _ => hi, fun _ _ _ hi => .inl hi⟩

theorem Later.trans {r'' : Race α} (h : Later r r') (h' : Later r' r'') : Later r r'' where
  cancelled hc := h'.cancelled (h.cancelled hc)
  slot hs := h'.slot (h.slot hs)
  done i c hi hdone := h'.done i c (h.done i c hi hdone) hdone
  refused := by
    intro hc i result hi
    rcases h'.refused (h.cancelled hc) i result hi with hi | hresult
    · exact h.refused hc i result hi
    · exact .inr hresult

theorem later_moveOn {c old : Caller α} {gate : Gate α} {holder : Option Nat} {gone : Option α}
    (hi : r.callers[i]? = some old) (hold : old.isDone = false)
    (hcancelled : r.gate.cancelled = true → gate.cancelled = true)
    (hslot : r.gate.slot = none → gate.slot = none)
    (hrefused : r.gate.cancelled = true → ∀ result, c = .started result → result = .error .closed) :
    Later r (r.moveOn i c gate holder gone) := by
  refine ⟨hcancelled, hslot, ?_, ?_⟩
  · intro j d hj hdone
    rwa [caller_moveOn_of_ne]
    rintro rfl
    cases hi.symm.trans hj
    cases hold.symm.trans hdone
  · intro hc j result hj
    rcases caller_of_moveOn hi hj with ⟨-, hresult⟩ | ⟨-, hj⟩
    · exact .inr (hrefused hc result hresult.symm)
    · exact .inl hj

theorem Transition.later (ht : Transition r i r') : Later r r' := by
  cases ht with
  | took hi => exact later_moveOn hi rfl id (fun _ => rfl) nofun
  | tooLate hi =>
    refine later_moveOn hi rfl id id ?_
    rintro - result ⟨⟩
    rfl
  | obtained hi hopen | foundNone hi hopen =>
    exact later_moveOn hi rfl id id fun hc => nomatch hopen.symm.trans hc
  | cancelled hi => exact later_moveOn hi rfl (fun _ => rfl) id nofun
  | emptied hi => exact later_moveOn hi rfl id (fun _ => rfl) nofun

/-- A result is given by a verdict on the moment before. -/
theorem Transition.verdict (ht : Transition r i r') (h : Owned listener r)
    {result : Except Failure α} (hj : r'.callers[j]? = some (.started result)) :
    r.callers[j]? = some (.started result) ∨ (j = i ∧ Verdict listener r result) := by
  cases ht with
  | took hi | cancelled hi | emptied hi =>
    rcases caller_of_moveOn hi hj with ⟨-, hc⟩ | ⟨-, hj⟩
    · cases hc
    · exact .inl hj
  | tooLate hi hclosed =>
    rcases caller_of_moveOn hi hj with ⟨rfl, hc⟩ | ⟨-, hj⟩
    · cases hc
      exact .inr ⟨rfl, .closed hclosed⟩
    · exact .inl hj
  | obtained hi hopen =>
    rcases caller_of_moveOn hi hj with ⟨rfl, hc⟩ | ⟨-, hj⟩
    · cases hc
      cases h.eq_of_held hi (List.mem_singleton_self _)
      refine .inr ⟨rfl, .first hopen ?_⟩
      intro k l hk
      by_cases hkj : k = j
      · subst hkj
        cases hi.symm.trans hk
      · cases h.first j _ hi k _ hkj hk
    · exact .inl hj
  | foundNone hi hopen =>
    rcases caller_of_moveOn hi hj with ⟨rfl, hc⟩ | ⟨-, hj⟩
    · cases hc
      -- The listener is with another start, which has decided before this one got the lock.
      rcases h.dropped_or_held (h.slot_of_taken j _ hi rfl) with hdropped | ⟨k, d, hk, hd⟩
      · rw [h.dropped_of_open hopen] at hdropped
        cases hdropped
      · rcases mem_held.mp hd with rfl | rfl
        · cases h.eq_of_holder ((h.deciding_iff j).mpr ⟨_, hi⟩) hk
          cases hi.symm.trans hk
        · exact .inr ⟨rfl, .again hopen hk⟩
    · exact .inl hj

theorem runAll_append (r : Race α) (order more : List Nat) :
    r.runAll (order ++ more) = (r.runAll order).runAll more := List.foldl_append

theorem Owned.exists_step (h : Owned listener r) {c : Caller α} (hi : r.callers[i]? = some c)
    (hdone : c.isDone = false) : ∃ j, (r.step j).isSome := by
  cases hholder : r.holder with
  | some j =>
    obtain ⟨taken, hj⟩ := (h.deciding_iff j).mp hholder
    exact ⟨j, by simp [Race.step, hj]⟩
  | none =>
    refine ⟨i, ?_⟩
    cases c with
    | started | closed => cases hdone
    | _ => simp [Race.step, hi, hholder]

end PortForward.Gate.Race

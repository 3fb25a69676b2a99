import PortForward.Proofs.Datagram.Transition

/-!
# When a relay has nothing left to do

Some steps wait for the world around the proxy: for time to pass, for a datagram of a client
and for one of the backend. All others the relay takes on its own, whatever the kernel
answers. It is quiet if none of those is possible.
-/

namespace PortForward.DatagramRelay

def Event.isOwn : Event → Bool
  | .advance _ | .receive _ | .replyReceive .. => false
  | _ => true

/-- The relay has nothing left to do. -/
def IsQuiet (closed : Bool) (r : DatagramRelay) : Prop :=
  ∀ event : Event, event.isOwn → r.step closed event = none

variable {closed : Bool} {r : DatagramRelay}

/-- A quiet loop waits for a datagram or for its sweep, if it is in a run at all. -/
theorem IsQuiet.loop_eq (h : r.IsQuiet closed) :
    r.loop = .idle ∨ r.loop = .ended ∨
      (r.loop = .waiting ∧ closed = false ∧ r.now < r.nextSweep) := by
  cases hloop : r.loop with
  | idle => exact .inl rfl
  | ended => exact .inr (.inl rfl)
  | waiting =>
    have hstop := h .stop rfl
    have hsweep := h .sweep rfl
    simp only [step, hloop, true_and, ite_eq_right_iff, reduceCtorEq, imp_false] at hstop hsweep
    exact .inr (.inr ⟨rfl, by simpa using hstop, by omega⟩)
  | looking client payload =>
    have hlook := h (.lookUp ⟨.error default, .error default⟩) rfl
    simp only [step, hloop] at hlook
    split at hlook <;> cases hlook
  | sending client payload socket retried =>
    have hsend := h (.send (.ok ())) rfl
    simp [step, hloop] at hsend
  | draining loopEnd =>
    have hdrain := h .drain rfl
    simp [step, hloop] at hdrain

theorem IsQuiet.now_lt_nextSweep (h : r.IsQuiet closed) (hloop : r.loop = .waiting) :
    r.now < r.nextSweep := by
  rcases h.loop_eq with hl | hl | ⟨-, -, hahead⟩
  · cases hloop.symm.trans hl
  · cases hloop.symm.trans hl
  · exact hahead

/-- A quiet task waits for a reply, and nobody has told it to end. -/
theorem IsQuiet.task_eq (h : r.IsQuiet closed) {socket : Nat} {t : ReplyTask}
    (ht : r.task? socket = some t) :
    t.phase = .receiving ∧ t.cancelled = false ∧ closed = false := by
  cases hphase : t.phase with
  | receiving =>
    have hstop := h (.replyStop socket) rfl
    simp only [step, ht, hphase, Option.bind_some, ite_eq_right_iff, reduceCtorEq, imp_false,
      not_or, Bool.not_eq_true] at hstop
    exact ⟨rfl, hstop⟩
  | refreshing payload =>
    have hrefresh := h (.refresh socket) rfl
    simp [step, ht, hphase] at hrefresh
  | replying payload =>
    have hsend := h (.replySend socket (.ok ())) rfl
    simp [step, ht, hphase] at hsend
  | forgetting =>
    have hforget := h (.forget socket) rfl
    simp [step, ht, hphase] at hforget

theorem isQuiet_iff :
    r.IsQuiet closed ↔
      (r.loop = .idle ∨ r.loop = .ended ∨
        (r.loop = .waiting ∧ closed = false ∧ r.now < r.nextSweep)) ∧
      ∀ t ∈ r.tasks, r.task? t.socket = some t →
        t.phase = .receiving ∧ t.cancelled = false ∧ closed = false := by
  refine ⟨fun h => ⟨h.loop_eq, fun _ _ ht => h.task_eq ht⟩, ?_⟩
  rintro ⟨hloop, htasks⟩
  have htask : ∀ {socket t}, r.task? socket = some t →
      t.phase = .receiving ∧ t.cancelled = false ∧ closed = false := by
    intro socket t ht
    obtain rfl : t.socket = socket := by simpa using List.find?_some ht
    exact htasks t (List.mem_of_find?_eq_some ht) ht
  intro event hown
  have hstep : ∀ turn, r.step closed event ≠ some turn := by
    intro turn hturn
    cases transition_of_step hturn with
    | advance | received | receiveFailed | replyReceived | replyRefused | replyBroken => cases hown
    | refreshed ht hphase | replied ht hphase | replyFailed ht hphase | forgot ht hphase =>
      simp [(htask ht).1] at hphase
    | replyStopped ht _ hend => simp [htask ht] at hend
    | sweep hl hdue =>
      rcases hloop with h | h | ⟨-, -, hlater⟩
      · cases hl.symm.trans h
      · cases hl.symm.trans h
      · omega
    | stopped hl hclosed =>
      rcases hloop with h | h | ⟨-, hopen, -⟩
      · cases hl.symm.trans h
      · cases hl.symm.trans h
      · cases hopen.symm.trans hclosed
    | _ => rcases hloop with h | h | ⟨h, -⟩ <;> simp_all
  cases h : r.step closed event with
  | none => rfl
  | some turn => exact absurd h (hstep turn)

instance : Decidable (r.IsQuiet closed) := decidable_of_iff' _ isQuiet_iff

theorem isQuiet_of
    (hloop : r.loop = .idle ∨ r.loop = .ended ∨
      (r.loop = .waiting ∧ closed = false ∧ r.now < r.nextSweep))
    (htasks : ∀ t ∈ r.tasks, t.phase = .receiving ∧ t.cancelled = false ∧ closed = false) :
    r.IsQuiet closed :=
  isQuiet_iff.mpr ⟨hloop, fun t ht _ => htasks t ht⟩

end PortForward.DatagramRelay

import PortForward.Proofs.Stream.Traffic

/-!
# A stream relay left to itself settles

What is due for a relay at any moment: the calls it makes on its own, and the reads for which
there is something to read. Each of them leaves less to do, for a byte is read once and written
once. So a relay comes to rest, or ends, unless a call of it fails; and at rest it has read all
that was written and has passed it on.
-/

namespace PortForward

/-- How many steps a relay is away from copying. -/
def StreamPhase.wait : StreamPhase → Nat
  | accepted => 3
  | announced => 2
  | dialing => 1
  | copying .. => 0

theorem StreamPhase.wait_setHalf {phase : StreamPhase} {source : Side} {h : Half} :
    (phase.setHalf source h).wait = phase.wait := by
  cases phase with
  | copying => cases source <;> rfl
  | _ => rfl

namespace Half

/-- The direction can only wait, given what was written and not yet read, and whether the source
has finished. -/
def AtRest (unread : Bytes) (finished : Bool) : Half → Prop
  | copying held _ => held = [] ∧ unread = [] ∧ finished = false
  | ending .. => False
  | ended _ => True

/-- A bound for the steps that the direction can take with so many bytes to be read. -/
def work (unread : Nat) : Half → Nat
  | copying held _ => 2 * unread + held.length + 2
  | ending held _ => held.length + 1
  | ended _ => 0

variable {client : Nat} {target : Side} {h h' : Half} {event : Event} {effects : List Effect}

theorem step_write_all {held : Bytes} (hne : held ≠ []) (n : Nat) :
    (copying held n).step client target (.write (.ok held.length)) =
        some (.ok (copying [] (n + held.length), [.deliver client target held])) ∧
      (ending held n).step client target (.write (.ok held.length)) =
        some (.ok (ending [] (n + held.length), [.deliver client target held])) := by
  have hpos : 0 < held.length := List.length_pos_iff.mpr hne
  simp [step, hpos]

theorem exists_step (client : Nat) (target : Side) {unread : Bytes} {finished : Bool}
    (hrest : ¬ h.AtRest unread finished) :
    ∃ event h' effects, h.step client target event = some (.ok (h', effects)) ∧
      ∀ bytes, event = .read (.ok bytes) →
        if bytes = [] then unread = [] ∧ finished = true else bytes <+: unread := by
  cases h with
  | copying held n =>
    by_cases hheld : held = []
    · subst hheld
      cases unread with
      | nil =>
        have hfinished : finished = true := by simpa [AtRest] using hrest
        refine ⟨.read (.ok []), ending [] n, [], rfl, ?_⟩
        intro bytes heq
        cases heq
        exact ⟨rfl, hfinished⟩
      | cons b rest =>
        refine ⟨.read (.ok [b]), copying [b] n, [], rfl, ?_⟩
        intro bytes heq
        cases heq
        exact ⟨rest, rfl⟩
    · exact ⟨_, _, _, (step_write_all hheld n).1, nofun⟩
  | ending held n =>
    by_cases hheld : held = []
    · subst hheld
      exact ⟨.shutdown (.ok ()), _, _, rfl, nofun⟩
    · exact ⟨_, _, _, (step_write_all hheld n).2, nofun⟩
  | ended n => exact absurd trivial hrest

theorem Transition.work_lt (ht : Transition client target h event h' effects) {unread : Nat}
    (hle : event.bytes.length ≤ unread) : h'.work (unread - event.bytes.length) < h.work unread := by
  cases ht with
  | @read held n bytes hbytes =>
    have hpos : 0 < bytes.length := List.length_pos_iff.mpr hbytes
    simp only [work, Event.bytes, List.length_append] at hle ⊢
    omega
  | sourceEnded =>
    simp only [work]
    omega
  | wrote hpos hk | wroteLast hpos hk =>
    simp only [work, Event.bytes, List.length_drop, List.length_nil]
    omega
  | shut => exact Nat.zero_lt_one

end Half

section Due

variable (client : Nat) (side : Side) (all : List Happening)

def unread : Bytes := (bytesWritten client side all).drop (bytesRead client side all).length

/-- A step of this client's relay, as one of the things that happen. -/
def Happening.ofRelay (event : StreamRelay.Event) : Happening :=
  .step (.service (.stream (.relay client event)))

/-- The relay of this client can make this step now, or the kernel can answer its call so. -/
def StreamRelay.Event.isDue : StreamRelay.Event → Bool
  | .copy _ (.read (.error _)) => false
  | event => (Happening.ofRelay client event).fits all

/-- Nothing is due for the relay of this client. -/
def Settled (p : Proxy) : Prop :=
  ∀ event : StreamRelay.Event, event.isDue client all →
    p.step (.service (.stream (.relay client event))) = none

/-- The relay waits for more to be written, in each direction that has not ended. -/
def StreamRelay.AtRest (r : StreamRelay) : Prop :=
  r.phase.isCopying ∧
    ∀ side, (r.phase.half side).AtRest (unread client side all) (hasFinished client side all)

/-- A bound for the steps that are due for the relay, each in its turn. -/
def StreamRelay.work (r : StreamRelay) : Nat :=
  r.phase.wait + (r.phase.half .client).work (unread client .client all).length +
    (r.phase.half .backend).work (unread client .backend all).length

end Due

variable {client : Nat} {side : Side} {all : List Happening} {closed : Bool} {r : StreamRelay}

theorem InOrder.written_eq (h : InOrder client side all) :
    bytesRead client side all ++ unread client side all = bytesWritten client side all :=
  List.prefix_iff_eq_append.mp h.read_prefix

theorem InOrder.isDue_read (h : InOrder client side all) {bytes : Bytes}
    (hread : if bytes = [] then unread client side all = [] ∧ hasFinished client side all = true
      else bytes <+: unread client side all) :
    (StreamRelay.Event.copy side (.read (.ok bytes))).isDue client all := by
  have hwritten := h.written_eq
  by_cases hnil : bytes = []
  · rw [if_pos hnil] at hread
    rw [hread.1, List.append_nil] at hwritten
    simp [StreamRelay.Event.isDue, Happening.ofRelay, Happening.fits, hnil, hread.2, hwritten]
  · rw [if_neg hnil] at hread
    simp only [StreamRelay.Event.isDue, Happening.ofRelay, Happening.fits, hnil, if_false, decide_eq_true_eq]
    rw [← hwritten]
    exact (List.prefix_append_right_inj _).mpr hread

namespace StreamRelay

theorem exists_due (closed : Bool) (horder : ∀ side, InOrder client side all)
    (hrest : ¬ r.AtRest client all) :
    ∃ event next effects, event.isDue client all = true ∧ event.failure? = none ∧
      r.step closed event = some (next, effects) := by
  cases hphase : r.phase with
  | accepted => exact ⟨.announce, _, _, rfl, rfl, by simp only [step, hphase]; rfl⟩
  | announced => exact ⟨.dial, _, _, rfl, rfl, by simp only [step, hphase]; rfl⟩
  | dialing => exact ⟨.connected (.ok ()), _, _, rfl, rfl, by simp only [step, hphase]; rfl⟩
  | copying up down =>
    have hcopying : r.phase.isCopying := by rw [hphase]; rfl
    simp only [AtRest, hcopying, true_and, not_forall] at hrest
    obtain ⟨side, hside⟩ := hrest
    obtain ⟨event, h, moved, hstep, hread⟩ := Half.exists_step r.client side.other hside
    have hrelay : r.step closed (.copy side event) = _ := step_copy hcopying
    rw [hstep] at hrelay
    refine ⟨.copy side event, _, _, ?_, (Half.transition_of_step hstep).failure_eq_none, hrelay⟩
    cases event with
    | read result =>
      cases result with
      | ok bytes => exact (horder side).isDue_read (hread bytes rfl)
      | error e => cases (Half.transition_of_step hstep).failure_eq_none
    | _ => rfl

theorem fits_of_isDue {event : Event} (h : event.isDue client all) :
    (Happening.ofRelay client event).fits all := by
  unfold Event.isDue at h
  split at h
  · cases h
  · exact h

theorem bytesFrom_ofRelay (event : Event) :
    bytesRead client side [.ofRelay client event] = event.bytesFrom side := by
  simp [Happening.ofRelay, bytesRead_step, Proxy.Event.bytesFrom]

/-- What is read is no longer unread. -/
theorem length_unread_step (event : Event) :
    (unread client side (all ++ [.ofRelay client event])).length =
      (unread client side all).length - (event.bytesFrom side).length := by
  have hwritten : bytesWritten client side [.ofRelay client event] = [] := rfl
  simp only [unread, bytesWritten_append, bytesRead_append, bytesFrom_ofRelay, hwritten,
    List.append_nil, List.length_drop, List.length_append]
  omega

theorem length_bytesFrom_le {event : Event} (horder : InOrder client side all)
    (h : event.isDue client all) :
    (event.bytesFrom side).length ≤ (unread client side all).length := by
  have hafter : InOrder client side (all ++ [.ofRelay client event]) :=
    horder.step (fits_of_isDue h)
  have hwritten : bytesWritten client side [.ofRelay client event] = [] := rfl
  have hle := hafter.read_prefix.length_le
  rw [bytesRead_append, bytesWritten_append, bytesFrom_ofRelay, hwritten, List.length_append,
    List.append_nil] at hle
  rw [unread, List.length_drop]
  omega

theorem Transition.work_lt {event : Event} {r' : StreamRelay} {effects : List Effect}
    (ht : Transition closed r event (some r') effects) (horder : ∀ side, InOrder client side all)
    (hdue : event.isDue client all) :
    r'.work client (all ++ [.ofRelay client event]) < r.work client all := by
  have hle := fun side => length_bytesFrom_le (horder side) hdue
  simp only [work, length_unread_step]
  cases ht with
  | announced hphase | dialed hphase =>
    rw [hphase]
    simp only [StreamPhase.wait, StreamPhase.half, Event.bytesFrom, List.length_nil, Nat.sub_zero]
    omega
  | connected hphase =>
    rw [hphase]
    simp only [StreamPhase.wait, StreamPhase.half, Event.bytesFrom, List.length_nil, Nat.sub_zero]
    omega
  | @moved source event h effects hcopying ht hunfinished =>
    have hself : (r.phase.setHalf source h).half source = h :=
      StreamPhase.half_setHalf_self hcopying
    have hother : ∀ side, side ≠ source →
        (r.phase.setHalf source h).half side = r.phase.half side :=
      fun _ => StreamPhase.half_setHalf_of_ne
    have hwait : (r.phase.setHalf source h).wait = r.phase.wait := StreamPhase.wait_setHalf
    have hread : event.bytes.length ≤ (unread client source all).length := by
      simpa [Event.bytesFrom] using hle source
    have hlt := ht.work_lt hread
    cases source with
    | client =>
      rw [hself, hother .backend (by decide), hwait]
      simp only [Event.bytesFrom, if_true, reduceCtorEq, if_false, List.length_nil, Nat.sub_zero]
      omega
    | backend =>
      rw [hself, hother .client (by decide), hwait]
      simp only [Event.bytesFrom, if_true, reduceCtorEq, if_false, List.length_nil, Nat.sub_zero]
      omega

end StreamRelay

open StreamService

variable {frontend : Address} {backend : StreamBackend} {past : List (Moment StreamService)}
variable {p : Proxy} {s : StreamService}

theorem step_relay {event : StreamRelay.Event} {next : Option StreamRelay} {effects : List Effect}
    (hs : p.service = .stream s) (hr : s.relay? client = some r)
    (h : r.step p.isClosed event = some (next, effects)) :
    p.step (.service (.stream (.relay client event))) =
      some ({ p with service := .stream (s.replace client next) }, effects) := by
  simp only [Proxy.step, hs, Service.step, StreamService.step, hr, h, Option.bind_some,
    Option.map_some]
  rfl

theorem atRest_of_settled (hs : p.service = .stream s) (hr : s.relay? client = some r)
    (horder : ∀ side, InOrder client side all) (h : Settled client all p) : r.AtRest client all := by
  by_contra hrest
  obtain ⟨event, next, effects, hdue, -, hstep⟩ := StreamRelay.exists_due p.isClosed horder hrest
  cases (h event hdue).symm.trans (step_relay hs hr hstep)

theorem plausible_ofRelay (h : Plausible all) {event : StreamRelay.Event}
    (hdue : event.isDue client all) : Plausible (all ++ [.ofRelay client event]) :=
  Plausible.snoc_iff.mpr ⟨h, StreamRelay.fits_of_isDue hdue⟩

/-- In every state of every run a relay can come to rest by steps that are due, or end. -/
theorem StreamService.exists_settled (hall : Plausible all)
    (h : History .stream (.bound frontend (.stream (.idle backend))) past p s)
    (hr : s.relay? client = some r) :
    ∃ (own : List StreamRelay.Event) (q : Proxy) (s' : StreamService) (late : List Effect),
      (∀ event ∈ own, event.failure? = none) ∧
      Plausible (all ++ own.map (.ofRelay client)) ∧
      p.runAll (proxyEvents (own.map (.ofRelay client))) = some (q, late) ∧
      q.service = .stream s' ∧
      ∀ r', s'.relay? client = some r' → r'.AtRest client (all ++ own.map (.ofRelay client)) := by
  induction hwork : r.work client all using Nat.strongRecOn generalizing all past p s r with
  | ind n ih =>
    have horder : ∀ side, InOrder client side all := fun _ => hall.inOrder
    by_cases hrest : r.AtRest client all
    · refine ⟨[], p, s, [], fun _ he => absurd he List.not_mem_nil, ?_, rfl, h.service_eq, ?_⟩
      · simpa using hall
      · intro r' hr'
        cases hr.symm.trans hr'
        simpa using hrest
    obtain ⟨event, next, effects, hdue, hok, hstep⟩ :=
      StreamRelay.exists_due p.isClosed horder hrest
    have ht := StreamRelay.transition_of_step hstep
    have hmoved := step_relay h.service_eq hr hstep
    have hplausible := plausible_ofRelay hall hdue
    have hafter : (s.replace client next).relay? client = next := by
      apply relay?_replace_self hr
      exact fun r' hr' => (ht.keeps hr').1.trans (client_of_relay? hr)
    -- The relay ends with this step, or goes on with less to do.
    cases next with
    | none =>
      refine ⟨[event], _, _, _, ?_, hplausible, Proxy.runAll_cons hmoved rfl, rfl, ?_⟩
      · intro e he
        cases List.mem_singleton.mp he
        exact hok
      · intro r' hr'
        rw [hafter] at hr'
        cases hr'
    | some r' =>
      have hlt : r'.work client (all ++ [.ofRelay client event]) < n :=
        hwork ▸ ht.work_lt horder hdue
      obtain ⟨own, q, s', late, hfine, hall', hrun, hs', hend⟩ :=
        ih _ hlt hplausible (h.snoc hmoved rfl) hafter rfl
      refine ⟨event :: own, q, s', effects ++ late, ?_, ?_, Proxy.runAll_cons hmoved hrun, hs', ?_⟩
      · intro e he
        rcases List.mem_cons.mp he with rfl | he
        · exact hok
        · exact hfine e he
      · simpa using hall'
      · simpa using hend

end PortForward

import PortForward.Proofs.Datagram.Activity
import PortForward.Proofs.Datagram.Settling

/-!
# When sweeps take place

A sweep is due at the start of a run and one period after another from then on. If the clock
jumps over several of these times, one sweep serves them all; if it moves only while nothing is
left to do, that sweep takes place at the time to which it jumps.

The next sweep is never further away than a period from now, nor than the timeout and a period
from the last activity of any entry.

What a sweep leaves does not expire before the clock moves, whatever else is done meanwhile, so a
second sweep at the same time would find nothing to do.
-/

namespace PortForward

open DatagramRelay

/-- The time at which a step sweeps, if it does. -/
def Moment.sweeps (m : Moment DatagramRelay) : List Nat :=
  match m.event with
  | .service (.datagram .sweep) => [m.before.now]
  | _ => []

namespace DatagramRelay

/-- A step that neither moves the clock, nor sweeps, nor starts the loop. -/
structure Steady (r r' : DatagramRelay) : Prop where
  now_eq : r'.now = r.now
  timeout_eq : r'.timeout = r.timeout
  started_eq : r'.started = r.started
  nextSweep_eq : r'.nextSweep = r.nextSweep
  entries : ∀ {client flow}, (client, flow) ∈ r'.table →
    (client, flow) ∈ r.table ∨ flow.lastActivity = r.now
  idle_iff : r'.loop = .idle ↔ r.loop = .idle
  ended : r.loop = .ended → r'.loop = .ended
  ties : r'.loop ≠ .ended → (∀ s, r.phaseOf s ≠ .forgetting) → r.table.ties ⊆ r'.table.ties

/-- What a step means for the clock, the sweeps and the entries. -/
inductive Timing (r : DatagramRelay) : Proxy.Event → DatagramRelay → Prop
  | waited (d : Nat) : Timing r (.service (.datagram (.advance d))) { r with now := r.now + d }
  | swept : r.loop = .waiting → r.nextSweep ≤ r.now →
      Timing r (.service (.datagram .sweep)) r.sweepNow.next
  | started : r.loop = .idle → r.table = [] → Timing r .run r.start
  | steady {event r'} : event ≠ .service (.datagram .sweep) → Steady r r' → Timing r event r'

section Timing

variable {closed closed' : Bool} {r r' : DatagramRelay} {turn : Turn DatagramRelay}

theorem Steady.refl : Steady r r :=
  ⟨rfl, rfl, rfl, rfl, .inl, Iff.rfl, id, fun _ _ _ hx => hx⟩

/-- A step of the loop. -/
theorem Steady.of_loop (hnow : r'.now = r.now) (htimeout : r'.timeout = r.timeout)
    (hstarted : r'.started = r.started) (hnext : r'.nextSweep = r.nextSweep)
    (hentries : ∀ {client flow}, (client, flow) ∈ r'.table →
      (client, flow) ∈ r.table ∨ flow.lastActivity = r.now)
    (hties : r.table.ties ⊆ r'.table.ties) (hbefore : r.loop ≠ .idle ∧ r.loop ≠ .ended)
    (hafter : r'.loop ≠ .idle) : Steady r r' where
  now_eq := hnow
  timeout_eq := htimeout
  started_eq := hstarted
  nextSweep_eq := hnext
  entries := hentries
  idle_iff := iff_of_false hafter hbefore.1
  ended hended := absurd hended hbefore.2
  ties _ _ := hties

/-- A step of a reply task. -/
theorem Steady.of_task (hloop : r'.loop = r.loop) (hnow : r'.now = r.now)
    (htimeout : r'.timeout = r.timeout) (hstarted : r'.started = r.started)
    (hnext : r'.nextSweep = r.nextSweep)
    (hentries : ∀ {client flow}, (client, flow) ∈ r'.table →
      (client, flow) ∈ r.table ∨ flow.lastActivity = r.now)
    (hties : (∀ s, r.phaseOf s ≠ .forgetting) → r.table.ties ⊆ r'.table.ties) : Steady r r' where
  now_eq := hnow
  timeout_eq := htimeout
  started_eq := hstarted
  nextSweep_eq := hnext
  entries := hentries
  idle_iff := by rw [hloop]
  ended hended := hloop.trans hended
  ties _ := hties

theorem timing_of_transition {event : Event} (h : Transition closed r event turn) :
    Timing r (.service (.datagram event)) turn.next := by
  cases h with
  | advance d => exact .waited d
  | sweep hloop hdue => exact .swept hloop hdue
  | received hloop | receiveFailed hloop | unopened hloop | unnamed hloop | sent hloop
  | refusedOnce hloop | sendFailed hloop | stopped hloop =>
    refine .steady (by simp) (.of_loop rfl rfl rfl rfl .inl (fun _ hx => hx) ?_ ?_)
    · simp [hloop]
    · simp [giveUp]
  | found _ hloop =>
    refine .steady (by simp)
      (.of_loop rfl rfl rfl rfl FlowTable.mem_or_of_touch ?_ (by simp [hloop]) (by simp))
    rw [Turn.on_next, FlowTable.touch_ties]
    exact fun _ hx => hx
  | @opened c payload _ _ hloop =>
    refine .steady (by simp) (.of_loop rfl rfl rfl rfl ?_ ?_ (by simp [hloop]) (by simp [addFlow]))
    · intro client flow hentry
      rcases List.mem_append.mp hentry with hold | hnew
      · exact .inl hold
      · cases List.mem_singleton.mp hnew
        exact .inr rfl
    · rw [Turn.on_next, addFlow, FlowTable.add_ties]
      exact List.subset_append_left _ _
  | drained hloop =>
    refine .steady (by simp) ⟨rfl, rfl, rfl, rfl, ?_, ?_, fun _ => rfl, ?_⟩
    · intro _ _ hentry
      cases hentry
    · simp [hloop]
    · exact fun hgoing => absurd rfl hgoing
  | replyReceived | replyRefused | replyBroken | replied | replyFailed | replyStopped =>
    exact .steady (by simp) (.of_task rfl rfl rfl rfl rfl .inl fun _ _ hx => hx)
  | refreshed =>
    refine .steady (by simp)
      (.of_task rfl rfl rfl rfl rfl FlowTable.mem_or_of_touch fun _ => ?_)
    rw [Turn.on_next, setPhase_table, FlowTable.touch_ties]
    exact fun _ hx => hx
  | @forgot s t htask hphase =>
    refine .steady (by simp) (.of_task rfl rfl rfl rfl rfl ?_ ?_)
    · exact fun hentry => .inl (List.mem_of_mem_filter hentry)
    · exact fun hunbroken => absurd ((phaseOf_of_task htask).trans hphase) (hunbroken s)

theorem Passage.timing {event : Proxy.Event} {effects : List Effect}
    (h : Passage r closed event effects closed' r') (htracks : Tracks closed r) :
    Timing r event r' := by
  cases h with
  | refused | closed => exact .steady (by simp) .refl
  | started hidle =>
    exact .started hidle (List.map_eq_nil_iff.mp (htracks.empty_of_idle hidle).1)
  | moved ht => exact timing_of_transition ht
  | finished ht => exact timing_of_transition ht

end Timing

/-- The next sweep is due at a multiple of the period after the start, and soon. -/
structure Timely (timeout : Nat) (r : DatagramRelay) : Prop where
  timeout_eq : r.timeout = timeout
  started_le : r.started ≤ r.now
  multiple : ∃ k, r.nextSweep = r.started + k * r.period
  nextSweep_le : r.nextSweep ≤ r.now + r.period
  active_le : ∀ {client flow}, (client, flow) ∈ r.table → flow.lastActivity ≤ r.now
  nextSweep_le_active : ∀ {client flow}, (client, flow) ∈ r.table →
    r.nextSweep ≤ flow.lastActivity + r.timeout + r.period

/-- Each sweep serves a time of which none before it could know, and all such times before the
next sweep have been served. -/
structure Served (r : DatagramRelay) (sweeps : List Nat) : Prop where
  idle : r.loop = .idle → sweeps = []
  lt_next : ∀ t ∈ sweeps, t < r.nextSweep
  spaced : sweeps.Pairwise fun t t' =>
    ∃ k, t < r.started + k * r.period ∧ r.started + k * r.period ≤ t'
  served : ∀ k, r.started + k * r.period < r.nextSweep →
    ∃ t ∈ sweeps, r.started + k * r.period ≤ t

/-- No entry has expired by now, and the next sweep lies ahead. -/
structure IsSwept (r : DatagramRelay) : Prop where
  unexpired : ∀ entry ∈ r.table, ¬ r.timeout < r.now - entry.2.lastActivity
  nextSweep_eq : r.nextSweep = r.sweepAfter

section Schedule

variable {closed : Bool} {r r' : DatagramRelay} {event : Proxy.Event} {timeout : Nat}

theorem Steady.period_eq (h : Steady r r') : r'.period = r.period := by
  rw [period, h.timeout_eq, period]

theorem sweepAfter_le (h : r.started ≤ r.now) : r.sweepAfter ≤ r.now + r.period := by
  have hle := Nat.div_mul_le_self (r.now - r.started) r.period
  rw [sweepAfter, Nat.add_mul, Nat.one_mul]
  omega

theorem le_now_of_lt_sweepAfter {k : Nat} (h : r.started ≤ r.now)
    (hk : r.started + k * r.period < r.sweepAfter) : r.started + k * r.period ≤ r.now := by
  have hlt : k * r.period < ((r.now - r.started) / r.period + 1) * r.period := by
    rw [sweepAfter] at hk
    omega
  have hle := Nat.mul_le_mul_right r.period (Nat.le_of_lt_succ (Nat.lt_of_mul_lt_mul_right hlt))
  have hlast := Nat.div_mul_le_self (r.now - r.started) r.period
  omega

theorem mem_sweepNow {entry : SocketAddress × Flow} :
    entry ∈ r.sweepNow.next.table ↔
      entry ∈ r.table ∧ ¬ r.timeout < r.now - entry.2.lastActivity := by
  rw [sweepNow, Turn.on_next, cancelTasks_table, FlowTable.kept, List.mem_filter]
  simp [Flow.isExpired]

theorem Timely.fresh {backend : SocketAddress} {level : Level} :
    Timely timeout (.fresh backend level timeout) where
  timeout_eq := rfl
  started_le := Nat.le_refl _
  multiple := ⟨0, (Nat.zero_mul _).symm ▸ rfl⟩
  nextSweep_le := Nat.zero_le _
  active_le := nofun
  nextSweep_le_active := nofun

theorem Timely.step (h : Timely timeout r) (ht : Timing r event r') : Timely timeout r' := by
  cases ht with
  | waited d =>
    refine ⟨h.timeout_eq, Nat.le_add_right_of_le h.started_le, h.multiple, ?_, ?_,
      h.nextSweep_le_active⟩
    · exact Nat.le_trans h.nextSweep_le (Nat.add_le_add_right (Nat.le_add_right _ d) _)
    · exact fun hentry => Nat.le_add_right_of_le (h.active_le hentry)
  | swept =>
    have hnext : r.sweepNow.next.nextSweep ≤ r.now + r.period := sweepAfter_le h.started_le
    refine ⟨h.timeout_eq, h.started_le, ⟨_, rfl⟩, hnext, ?_, ?_⟩
    · exact fun hentry => h.active_le (mem_sweepNow.mp hentry).1
    · intro client flow hentry
      have hyoung := (mem_sweepNow.mp hentry).2
      have htimeout : r.sweepNow.next.timeout = r.timeout := rfl
      have hperiod : r.sweepNow.next.period = r.period := rfl
      rw [htimeout, hperiod]
      simp only at hyoung
      omega
  | started _ hempty =>
    refine ⟨h.timeout_eq, Nat.le_refl _, ⟨0, by simp [start]⟩, Nat.le_add_right _ _, ?_, ?_⟩
    · intro client flow hentry
      rw [start, hempty] at hentry
      cases hentry
    · intro client flow hentry
      rw [start, hempty] at hentry
      cases hentry
  | steady _ hs =>
    have hsoon := h.nextSweep_le
    have hmultiple := h.multiple
    constructor
    case timeout_eq => exact hs.timeout_eq.trans h.timeout_eq
    case started_le => rw [hs.started_eq, hs.now_eq]; exact h.started_le
    case multiple => rwa [hs.nextSweep_eq, hs.started_eq, hs.period_eq]
    case nextSweep_le => rwa [hs.nextSweep_eq, hs.now_eq, hs.period_eq]
    case active_le =>
      intro client flow hentry
      rw [hs.now_eq]
      rcases hs.entries hentry with hold | hnow
      · exact h.active_le hold
      · exact Nat.le_of_eq hnow
    case nextSweep_le_active =>
      intro client flow hentry
      rw [hs.nextSweep_eq, hs.timeout_eq, hs.period_eq]
      rcases hs.entries hentry with hold | hnow
      · exact h.nextSweep_le_active hold
      · omega

theorem Served.step {sweeps : List Nat} {effects : List Effect} (h : Served r sweeps)
    (htimely : Timely timeout r) (ht : Timing r event r') :
    Served r' (sweeps ++ Moment.sweeps ⟨closed, r, event, effects, r'⟩) := by
  cases ht with
  | waited d =>
    rw [Moment.sweeps, List.append_nil]
    exact ⟨h.idle, h.lt_next, h.spaced, h.served⟩
  | swept hloop hdue =>
    have hnext : r.now < r.sweepNow.next.nextSweep := now_lt_sweepAfter r
    constructor
    case idle =>
      intro hidle
      cases hloop.symm.trans hidle
    case lt_next =>
      intro t ht
      rcases List.mem_append.mp ht with ht | ht
      · have hlt := h.lt_next t ht
        omega
      · cases List.mem_singleton.mp ht
        exact hnext
    case spaced =>
      refine List.pairwise_append.mpr ⟨h.spaced, List.pairwise_singleton _ _, ?_⟩
      intro t ht t' ht'
      cases List.mem_singleton.mp ht'
      obtain ⟨k, hk⟩ := htimely.multiple
      have hlt := h.lt_next t ht
      rw [hk] at hlt hdue
      exact ⟨k, hlt, hdue⟩
    case served =>
      intro k hk
      have hle : r.started + k * r.period ≤ r.now := le_now_of_lt_sweepAfter htimely.started_le hk
      exact ⟨r.now, List.mem_append_right _ (List.mem_singleton_self _), hle⟩
  | started hidle =>
    rw [h.idle hidle, Moment.sweeps, List.append_nil]
    refine ⟨fun _ => rfl, nofun, .nil, ?_⟩
    intro k hk
    have hnow : r.now + k * r.start.period < r.now := hk
    omega
  | steady hother hs =>
    have hnone : Moment.sweeps ⟨closed, r, event, effects, r'⟩ = [] := by
      unfold Moment.sweeps
      split
      · exact absurd ‹_› hother
      · rfl
    rw [hnone, List.append_nil]
    constructor
    case idle => exact fun hidle => h.idle (hs.idle_iff.mp hidle)
    case lt_next => rw [hs.nextSweep_eq]; exact h.lt_next
    case spaced => rw [hs.started_eq, hs.period_eq]; exact h.spaced
    case served => rw [hs.started_eq, hs.period_eq, hs.nextSweep_eq]; exact h.served

theorem Timing.now_le (ht : Timing r event r') : r.now ≤ r'.now := by
  cases ht with
  | waited d => exact Nat.le_add_right _ d
  | swept | started => exact Nat.le_refl _
  | steady _ hs => exact Nat.le_of_eq hs.now_eq.symm

theorem isSwept_sweepNow (r : DatagramRelay) : r.sweepNow.next.IsSwept :=
  ⟨fun _ hentry => (mem_sweepNow.mp hentry).2, rfl⟩

/-- There is nothing to do for a sweep that comes again. -/
theorem IsSwept.sweepNow_eq (h : r.IsSwept) : r.sweepNow = .on r [] := by
  have hexpired : r.table.expired r.timeout r.now = [] :=
    List.filter_eq_nil_iff.mpr fun entry hentry => by
      simpa [Flow.isExpired] using h.unexpired entry hentry
  have hkept : r.table.kept r.timeout r.now = r.table :=
    List.filter_eq_self.mpr fun entry hentry => by
      simpa [Flow.isExpired] using h.unexpired entry hentry
  simp only [sweepNow, hexpired, hkept, ← h.nextSweep_eq, List.map_nil]
  simp [cancelTasks, FlowTable.sockets]

/-- Whatever happens at the time of a sweep, no entry expires at that time. -/
theorem Timing.isSwept (ht : Timing r event r') (h : r.IsSwept) (hloop : r.loop ≠ .idle)
    (hnow : r'.now = r.now) : r'.IsSwept := by
  cases ht with
  | waited d =>
    obtain rfl : d = 0 := Nat.add_eq_left.mp hnow
    exact h
  | swept => exact isSwept_sweepNow r
  | started hidle => exact absurd hidle hloop
  | steady _ hs =>
    constructor
    case unexpired =>
      rintro ⟨client, flow⟩ hentry
      rw [hs.timeout_eq, hnow]
      rcases hs.entries hentry with hold | hactive
      · exact h.unexpired _ hold
      · simp [hactive]
    case nextSweep_eq =>
      rw [sweepAfter, hs.started_eq, hs.now_eq, hs.period_eq, hs.nextSweep_eq]
      exact h.nextSweep_eq

theorem Timing.ended (ht : Timing r event r') (hended : r.loop = .ended) : r'.loop = .ended := by
  cases ht with
  | waited => exact hended
  | swept hloop => cases hloop.symm.trans hended
  | started hloop => cases hloop.symm.trans hended
  | steady _ hs => exact hs.ended hended

/-- The clock has shown no time between the due time of a sweep and the time at which it took
place. -/
structure Punctual (past : List (Moment DatagramRelay)) (r : DatagramRelay) : Prop where
  le_now : ∀ m ∈ past, m.before.now ≤ r.now
  shown : r.loop ≠ .idle → r.loop ≠ .ended → ∀ m ∈ past,
    m.before.now < r.nextSweep ∨ m.before.now = r.now
  served : ∀ k, r.started + k * r.period < r.nextSweep →
    ∃ t ∈ past.flatMap Moment.sweeps, r.started + k * r.period ≤ t ∧
      ∀ m ∈ past, r.started + k * r.period ≤ m.before.now → t ≤ m.before.now

theorem Punctual.sweep_le {past : List (Moment DatagramRelay)} (h : Punctual past r) {t : Nat}
    (ht : t ∈ past.flatMap Moment.sweeps) : t ≤ r.now := by
  obtain ⟨m, hm, hsweep⟩ := List.mem_flatMap.mp ht
  have heq : t = m.before.now := by
    unfold Moment.sweeps at hsweep
    split at hsweep
    · exact List.mem_singleton.mp hsweep
    · cases hsweep
  rw [heq]
  exact h.le_now m hm

/-- A time that was served before the step is served as well after it. -/
theorem Punctual.still_served {past : List (Moment DatagramRelay)} (h : Punctual past r)
    {effects : List Effect} {due : Nat} (hserved : ∃ t ∈ past.flatMap Moment.sweeps, due ≤ t ∧
      ∀ m ∈ past, due ≤ m.before.now → t ≤ m.before.now) :
    let past' : List (Moment DatagramRelay) := past ++ [⟨closed, r, event, effects, r'⟩]
    ∃ t ∈ past'.flatMap Moment.sweeps, due ≤ t ∧
      ∀ m ∈ past', due ≤ m.before.now → t ≤ m.before.now := by
  obtain ⟨t, ht, hdue, hfirst⟩ := hserved
  refine ⟨t, ?_, hdue, List.forall_mem_append.mpr ⟨hfirst, List.forall_mem_singleton.mpr ?_⟩⟩
  · rw [List.flatMap_append]
    exact List.mem_append_left _ ht
  · exact fun _ => h.sweep_le ht

theorem Punctual.step {past : List (Moment DatagramRelay)} {effects : List Effect}
    (h : Punctual past r) (htimely : Timely timeout r) (ht : Timing r event r')
    (hquiet : event.movesClock → r.IsQuiet closed) :
    Punctual (past ++ [⟨closed, r, event, effects, r'⟩]) r' := by
  have hnow := ht.now_le
  have hshown (hpast : ∀ m ∈ past, m.before.now < r'.nextSweep ∨ m.before.now = r'.now)
      (hlast : r.now < r'.nextSweep ∨ r.now = r'.now) :
      ∀ m ∈ past ++ [(⟨closed, r, event, effects, r'⟩ : Moment DatagramRelay)],
        m.before.now < r'.nextSweep ∨ m.before.now = r'.now :=
    List.forall_mem_append.mpr ⟨hpast, List.forall_mem_singleton.mpr hlast⟩
  constructor
  case le_now =>
    have hpast : ∀ m ∈ past, m.before.now ≤ r'.now :=
      fun m hm => Nat.le_trans (h.le_now m hm) hnow
    exact List.forall_mem_append.mpr ⟨hpast, List.forall_mem_singleton.mpr hnow⟩
  case shown =>
    intro hidle hended
    cases ht with
    | waited d =>
      have hahead : r.now < r.nextSweep := by
        rcases (hquiet rfl).loop_eq with hloop | hloop | ⟨-, -, hahead⟩
        · exact absurd hloop hidle
        · exact absurd hloop hended
        · exact hahead
      exact hshown (fun m hm => .inl (Nat.lt_of_le_of_lt (h.le_now m hm) hahead)) (.inl hahead)
    | swept =>
      have hahead : r.now < r.sweepNow.next.nextSweep := now_lt_sweepAfter r
      exact hshown (fun m hm => .inl (Nat.lt_of_le_of_lt (h.le_now m hm) hahead)) (.inl hahead)
    | started => exact hshown (fun m hm => Nat.lt_or_eq_of_le (h.le_now m hm)) (.inr rfl)
    | steady _ hs =>
      have hpast := h.shown (mt hs.idle_iff.mpr hidle) (mt hs.ended hended)
      rw [← hs.nextSweep_eq, ← hs.now_eq] at hpast
      exact hshown hpast (.inr hs.now_eq.symm)
  case served =>
    intro k hk
    cases ht with
    | waited d => exact h.still_served (h.served k hk)
    | swept hloop hdue =>
      by_cases hserved : r.started + k * r.period < r.nextSweep
      · exact h.still_served (h.served k hserved)
      · have hle : r.started + k * r.period ≤ r.now :=
          le_now_of_lt_sweepAfter htimely.started_le hk
        refine ⟨r.now, by simp [Moment.sweeps], hle,
          List.forall_mem_append.mpr ⟨?_, List.forall_mem_singleton.mpr fun _ => Nat.le_refl _⟩⟩
        -- Until now the clock has shown only times at which this sweep was not yet due.
        intro m hm hlater
        have hbefore := h.shown (by simp [hloop]) (by simp [hloop]) m hm
        have hlater : r.started + k * r.period ≤ m.before.now := hlater
        omega
    | started =>
      have hlt : r.now + k * r.start.period < r.now := hk
      omega
    | steady _ hs =>
      rw [hs.started_eq, hs.period_eq, hs.nextSweep_eq] at hk
      rw [hs.started_eq, hs.period_eq]
      exact h.still_served (h.served k hk)

end Schedule

end DatagramRelay

section History

variable {frontend : Address} {backend : SocketAddress} {level : Level} {timeout : Nat}
variable {past : List (Moment DatagramRelay)} {p : Proxy} {r : DatagramRelay}

theorem timing_of_step {q : Proxy} {r' : DatagramRelay} {event : Proxy.Event}
    {effects : List Effect}
    (h : History .datagram (.ofDatagrams frontend backend level timeout) past p r)
    (hstep : p.step event = some (q, effects)) (hr' : q.service = .datagram r') :
    Timing r event r' := by
  obtain ⟨htracks, hphase⟩ := tracks_of_history h
  obtain ⟨hpass, -⟩ := Proxy.passage_of_step hphase h.service_eq hstep hr'
  exact hpass.timing htracks

theorem started_of_history
    (h : History .datagram (.ofDatagrams frontend backend level timeout) past p r) :
    r.loop ≠ .idle → ∃ m ∈ past, m.event = .run ∧ m.before.loop = .idle ∧ m.after.loop ≠ .idle ∧
      r.started = m.before.now := by
  refine (h.owned_induction (motive := fun past _ r => r.loop ≠ .idle → ∃ m ∈ past,
    m.event = .run ∧ m.before.loop = .idle ∧ m.after.loop ≠ .idle ∧ r.started = m.before.now)
    (fun hloop => absurd rfl hloop) ?_).1
  intro past closed r event effects closed' r' htracks _ ih hpass hloop
  let past' : List (Moment DatagramRelay) := past ++ [⟨closed, r, event, effects, r'⟩]
  have hold : r'.started = r.started → r.loop ≠ .idle → ∃ m ∈ past',
      m.event = .run ∧ m.before.loop = .idle ∧ m.after.loop ≠ .idle ∧
        r'.started = m.before.now := by
    intro hsame hbefore
    obtain ⟨m, hm, hrun⟩ := ih hbefore
    rw [hsame]
    exact ⟨m, List.mem_append_left _ hm, hrun⟩
  cases hpass.timing htracks with
  | waited => exact hold rfl hloop
  | swept hwaiting => exact hold rfl (by simp [hwaiting])
  | started hidle =>
    exact ⟨_, List.mem_append_right _ (List.mem_singleton_self _), rfl, hidle, hloop, rfl⟩
  | steady _ hs => exact hold hs.started_eq (mt hs.idle_iff.mpr hloop)

theorem timely_of_history
    (h : History .datagram (.ofDatagrams frontend backend level timeout) past p r) :
    Timely timeout r ∧ Served r (past.flatMap Moment.sweeps) := by
  refine (h.owned_induction (motive := fun past _ r =>
    Timely timeout r ∧ Served r (past.flatMap Moment.sweeps))
    ⟨.fresh, fun _ => rfl, nofun, .nil, fun k hk => absurd hk (Nat.not_lt_zero _)⟩ ?_).1
  rintro past closed r event effects closed' r' htracks _ ⟨htimely, hserved⟩ hpass
  have htiming := hpass.timing htracks
  refine ⟨htimely.step htiming, ?_⟩
  simpa using hserved.step htimely htiming

/-- Once a sweep has taken place at the current time, another one would change nothing. -/
theorem isSwept_of_history
    (h : History .datagram (.ofDatagrams frontend backend level timeout) past p r) :
    (∀ t ∈ past.flatMap Moment.sweeps, t ≤ r.now) ∧
      (r.now ∈ past.flatMap Moment.sweeps → r.IsSwept) := by
  induction h with
  | nil => exact ⟨fun _ ht => absurd ht List.not_mem_nil, fun ht => absurd ht List.not_mem_nil⟩
  | @snoc past p r event q effects r' hist hstep hs ih =>
    obtain ⟨hle, hswept⟩ := ih
    have htiming := timing_of_step hist hstep hs
    have hlast : ∀ t ∈ Moment.sweeps ⟨p.isClosed, r, event, effects, r'⟩,
        t = r.now ∧ r'.IsSwept := by
      intro t ht
      cases htiming with
      | swept => exact ⟨List.mem_singleton.mp ht, isSwept_sweepNow r⟩
      | waited | started => cases ht
      | steady hother =>
        unfold Moment.sweeps at ht
        split at ht
        · exact absurd ‹_› hother
        · cases ht
    have hnow := htiming.now_le
    rw [List.flatMap_append, List.flatMap_singleton]
    refine ⟨List.forall_mem_append.mpr ⟨fun t ht => Nat.le_trans (hle t ht) hnow, ?_⟩, ?_⟩
    · exact fun t ht => (hlast t ht).1 ▸ hnow
    · intro hsweep
      rcases List.mem_append.mp hsweep with hold | hnew
      · have hsame : r'.now = r.now := Nat.le_antisymm (hle _ hold) hnow
        have hloop : r.loop ≠ .idle := by
          intro hidle
          rw [(timely_of_history hist).2.idle hidle] at hold
          cases hold
        exact htiming.isSwept (hswept (hsame ▸ hold)) hloop hsame
      · exact (hlast _ hnew).2

theorem punctual_of_history
    (h : History .datagram (.ofDatagrams frontend backend level timeout) past p r)
    (hprompt : IsPrompt past) : Punctual past r := by
  induction h with
  | nil hs =>
    cases hs
    refine ⟨fun m hm => absurd hm List.not_mem_nil, fun _ _ m hm => absurd hm List.not_mem_nil, ?_⟩
    exact fun k hk => absurd hk (Nat.not_lt_zero _)
  | snoc hist hstep hs ih =>
    obtain ⟨hbefore, hnow⟩ := List.forall_mem_append.mp hprompt
    exact (ih hbefore).step (timely_of_history hist).1 (timing_of_step hist hstep hs)
      (hnow _ (List.mem_singleton_self _))

end History

end PortForward

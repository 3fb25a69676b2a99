import Mathlib.Data.List.Chain
import PortForward.Proofs.Datagram.Schedule

/-!
# How flows expire

A sweep removes the entries that have been idle for longer than the timeout, and while the run
lasts nothing else removes one, unless a socket breaks. So a flow that is heard of again before
it has been idle for longer than that keeps its socket, and none is idle for the timeout and a
period.
-/

namespace PortForward

open DatagramRelay

/-- A backend socket can no longer receive. -/
def DatagramRelay.Event.breaksSocket : Event → Bool
  | replyReceive _ (.error e) => e.kind ≠ .connectionRefused
  | _ => false

def Proxy.Event.breaksSocket : Event → Bool
  | service (.datagram event) => event.breaksSocket
  | _ => false

/-- A receive on this socket fails for good. -/
def Moment.Breaks (m : Moment DatagramRelay) (socket : Nat) : Prop :=
  ∃ e, m.event = .service (.datagram (.replyReceive socket (.error e))) ∧
    e.kind ≠ .connectionRefused

/-- A sweep removes what has been idle for too long, and nothing else removes an entry as long
as the loop goes on. -/
structure Moment.RemovesExpired (timeout : Nat) (m : Moment DatagramRelay) : Prop where
  of_sweep : m.event = .service (.datagram .sweep) → ∀ entry,
    entry ∈ m.after.table ↔
      entry ∈ m.before.table ∧ ¬ timeout < m.before.now - entry.2.lastActivity
  of_other : m.event ≠ .service (.datagram .sweep) → m.after.loop ≠ .ended →
    m.before.table.ties ⊆ m.after.table.ties

namespace DatagramRelay

section Removal

variable {closed closed' : Bool} {r r' : DatagramRelay} {turn : Turn DatagramRelay}

/-- A task gives up its socket only when that can no longer receive. -/
theorem broken_of_transition {event : Event} (h : Transition closed r event turn)
    (htracks : Tracks closed r) {s : Nat} (hs : turn.next.phaseOf s = .forgetting) :
    r.phaseOf s = .forgetting ∨
      ∃ e, event = .replyReceive s (.error e) ∧ e.kind ≠ .connectionRefused := by
  cases h with
  | sweep =>
    rw [sweepNow, Turn.on_next, phaseOf_cancelTasks] at hs
    exact .inl hs
  | drained =>
    rw [phaseOf_cancelTasks] at hs
    exact .inl hs
  | opened =>
    rw [Turn.on_next, phaseOf_addFlow htracks] at hs
    exact .inl hs
  | replyReceived htask | replied htask | replyFailed htask =>
    rw [Turn.on_next, phaseOf_setPhase htask] at hs
    split at hs
    · cases hs
    · exact .inl hs
  | @refreshed socket t _ htask =>
    have htask' : { r with table := r.table.touch t.client r.now }.task? socket = some t := htask
    rw [Turn.on_next, phaseOf_setPhase htask'] at hs
    split at hs
    · cases hs
    · exact .inl hs
  | @replyBroken socket _ e htask _ hbroken =>
    rw [Turn.on_next, phaseOf_setPhase htask] at hs
    by_cases heq : s = socket
    · exact .inr ⟨e, by rw [heq], hbroken⟩
    · rw [if_neg heq] at hs
      exact .inl hs
  | forgot | replyStopped =>
    rw [Turn.on_next, phaseOf_endTask] at hs
    split at hs
    · cases hs
    · exact .inl hs
  | _ => exact .inl hs

variable {event : Proxy.Event} {effects : List Effect}

theorem broken_of_passage (h : Passage r closed event effects closed' r')
    (htracks : Tracks closed r) {s : Nat} (hs : r'.phaseOf s = .forgetting) :
    r.phaseOf s = .forgetting ∨ ∃ e,
      event = .service (.datagram (.replyReceive s (.error e))) ∧ e.kind ≠ .connectionRefused := by
  cases h with
  | refused | started | closed => exact .inl hs
  | moved ht | finished ht =>
    rcases broken_of_transition ht htracks hs with hold | ⟨e, rfl, he⟩
    · exact .inl hold
    · exact .inr ⟨e, rfl, he⟩

theorem Timing.removesExpired (ht : Timing r event r') (hr : ∀ s, r.phaseOf s ≠ .forgetting) :
    Moment.RemovesExpired r.timeout ⟨closed, r, event, effects, r'⟩ := by
  constructor
  case of_sweep =>
    rintro rfl entry
    cases ht with
    | swept => exact mem_sweepNow
    | steady hother => exact absurd rfl hother
  case of_other =>
    intro hother hgoing
    cases ht with
    | waited | started => exact fun _ hx => hx
    | swept => exact absurd rfl hother
    | steady _ hs => exact hs.ties hgoing hr

end Removal

section Silence

variable {r : DatagramRelay} {client : SocketAddress} {flow : Flow} {timeout : Nat}

theorem heard_cases (m : Moment DatagramRelay) (socket : Nat) :
    m.heard socket = [] ∨ m.heard socket = [m.before.now] := by
  unfold Moment.heard
  split
  case h_4 => exact .inl rfl
  all_goals
    split
    · exact .inr rfl
    · exact .inl rfl

/-- A flow that was never silent for too long is not idle for too long either. -/
theorem Noted.idle_le {heard : List Nat} (h : r.Noted client flow heard)
    (hchain : (heard ++ [r.now]).IsChain fun t t' => t' - t ≤ timeout) :
    r.now - flow.lastActivity ≤ timeout := by
  obtain ⟨noted, unnoted, rfl, hlast, hrest⟩ := h.split
  obtain ⟨before, rfl⟩ := List.getLast?_eq_some_iff.mp hlast
  obtain ⟨rest, hnext⟩ : ∃ rest, unnoted ++ [r.now] = r.now :: rest := by
    cases unnoted with
    | nil => exact ⟨[], rfl⟩
    | cons t unnoted =>
      rw [hrest t List.mem_cons_self]
      exact ⟨unnoted ++ [r.now], rfl⟩
  rw [List.append_assoc, hnext, List.append_assoc, List.singleton_append] at hchain
  exact (List.isChain_append_cons_cons.mp hchain).2.1

/-- What is never silent for too long until later was not until now. -/
theorem isChain_until {heard more : List Nat} {now later : Nat} (hmore : more = [] ∨ more = [now])
    (hle : now ≤ later) (h : (heard ++ more ++ [later]).IsChain fun t t' => t' - t ≤ timeout) :
    (heard ++ [now]).IsChain fun t t' => t' - t ≤ timeout := by
  rcases hmore with rfl | rfl
  · rw [List.append_nil] at h
    obtain ⟨hheard, -, hlast⟩ := List.isChain_append.mp h
    refine List.isChain_append.mpr ⟨hheard, List.isChain_singleton _, ?_⟩
    intro t ht t' ht'
    cases ht'
    have hgap := hlast t ht later rfl
    omega
  · exact h.left_of_append

end Silence

/-- When the sweeps of a run take place, and which entries they leave. -/
structure Expires (timeout : Nat) (past : List (Moment DatagramRelay)) (closed : Bool)
    (r : DatagramRelay) : Prop where
  period_eq : r.period = max Duration.second (min timeout (30 * Duration.second))
  started : r.loop ≠ .idle → ∃ m ∈ past,
    m.event = .run ∧ m.before.loop = .idle ∧ m.after.loop ≠ .idle ∧ r.started = m.before.now
  /-- between two sweeps another one became due -/
  spaced : (past.flatMap Moment.sweeps).Pairwise fun t t' =>
    ∃ k, t < r.started + k * r.period ∧ r.started + k * r.period ≤ t'
  /-- a second sweep at the same time would change nothing -/
  once : r.now ∈ past.flatMap Moment.sweeps → r.sweepNow = .on r []
  /-- no sweep is overdue when the relay is quiet -/
  served : r.IsQuiet closed → r.loop = .waiting → ∀ k, r.started + k * r.period ≤ r.now →
    ∃ t ∈ past.flatMap Moment.sweeps, r.started + k * r.period ≤ t
  removes : ∀ m ∈ past, m.RemovesExpired timeout
  active_le : ∀ client flow, (client, flow) ∈ r.table → flow.lastActivity ≤ r.now
  idle_lt : r.IsQuiet closed → ∀ client flow, (client, flow) ∈ r.table →
    r.now - flow.lastActivity < timeout + r.period

/-- What the entries say of their flows, if the clock moves only while nothing is left to do. -/
structure Heeds (timeout : Nat) (past : List (Moment DatagramRelay)) (closed : Bool)
    (r : DatagramRelay) : Prop where
  /-- a sweep takes place as soon as the clock shows the time at which it is due, or a later one -/
  punctual : r.IsQuiet closed → r.loop = .waiting → ∀ k, r.started + k * r.period ≤ r.now →
    ∃ t ∈ past.flatMap Moment.sweeps, r.started + k * r.period ≤ t ∧
      ∀ m ∈ past, r.started + k * r.period ≤ m.before.now → t ≤ m.before.now
  received : ∀ m ∈ past, ∀ client socket, (client, socket) ∈ m.openings →
    ∃ m' ∈ past, m'.Receives client ∧ m'.before.now = m.before.now
  noted : ∀ client flow, (client, flow) ∈ r.table →
    r.Noted client flow (past.flatMap (·.heard flow.socket))
  last_eq : r.IsQuiet closed → ∀ client flow, (client, flow) ∈ r.table →
    (past.flatMap (·.heard flow.socket)).getLast? = some flow.lastActivity
  /-- a flow that is never silent for longer than the timeout keeps its socket -/
  stays : ∀ client socket, (client, socket) ∈ past.flatMap Moment.openings → r.loop ≠ .ended →
    (past.flatMap (·.heard socket) ++ [r.now]).IsChain (fun t t' => t' - t ≤ timeout) →
    (client, socket) ∈ r.table.ties

end DatagramRelay

section History

variable {frontend : Address} {backend : SocketAddress} {level : Level} {timeout : Nat}
variable {past : List (Moment DatagramRelay)} {p : Proxy} {r : DatagramRelay}

/-- A task that has given up its socket has had a receive fail on it for good. -/
theorem broken_of_history
    (h : History .datagram (.ofDatagrams frontend backend level timeout) past p r) {s : Nat}
    (hs : r.phaseOf s = .forgetting) : ∃ m ∈ past, m.Breaks s := by
  refine (h.owned_induction (motive := fun past _ r =>
    ∀ s, r.phaseOf s = .forgetting → ∃ m ∈ past, m.Breaks s) ?_ ?_).1 s hs
  · exact fun _ hs => ReplyPhase.noConfusion hs
  · intro past closed r event effects closed' r' htracks _ ih hpass s hs
    rcases broken_of_passage hpass htracks hs with hold | hbroken
    · obtain ⟨m, hm, hbreaks⟩ := ih s hold
      exact ⟨m, List.mem_append_left _ hm, hbreaks⟩
    · exact ⟨_, List.mem_append_right _ (List.mem_singleton_self _), hbroken⟩

theorem unbroken_of_history
    (h : History .datagram (.ofDatagrams frontend backend level timeout) past p r)
    (hsoft : ∀ m ∈ past, m.event.breaksSocket = false) (s : Nat) : r.phaseOf s ≠ .forgetting := by
  intro hs
  obtain ⟨m, hm, e, hevent, he⟩ := broken_of_history h hs
  have hsoft := hsoft m hm
  simp [hevent, Proxy.Event.breaksSocket, DatagramRelay.Event.breaksSocket, he] at hsoft

theorem removesExpired_of_history
    (h : History .datagram (.ofDatagrams frontend backend level timeout) past p r)
    (hsoft : ∀ m ∈ past, m.event.breaksSocket = false) : ∀ m ∈ past, m.RemovesExpired timeout := by
  induction h with
  | nil => exact fun m hm => absurd hm List.not_mem_nil
  | snoc hist hstep hs ih =>
    obtain ⟨hbefore, -⟩ := List.forall_mem_append.mp hsoft
    intro m hm
    rcases List.mem_append.mp hm with hm | hm
    · exact ih hbefore m hm
    · cases List.mem_singleton.mp hm
      rw [← (timely_of_history hist).1.timeout_eq]
      exact (timing_of_step hist hstep hs).removesExpired (unbroken_of_history hist hbefore)

theorem expires_of_history
    (h : History .datagram (.ofDatagrams frontend backend level timeout) past p r)
    (hsoft : ∀ m ∈ past, m.event.breaksSocket = false) : Expires timeout past p.isClosed r := by
  obtain ⟨htimely, hserved⟩ := timely_of_history h
  have hahead : r.IsQuiet p.isClosed → r.table ≠ [] → r.now < r.nextSweep := by
    intro hquiet htable
    obtain ⟨htracks, -⟩ := tracks_of_history h
    rcases hquiet.loop_eq with hloop | hloop | ⟨-, -, hahead⟩
    · exact absurd (List.map_eq_nil_iff.mp (htracks.empty_of_idle hloop).1) htable
    · exact absurd (List.map_eq_nil_iff.mp (htracks.empty_of_ended hloop)) htable
    · exact hahead
  constructor
  case period_eq => rw [period, htimely.timeout_eq]
  case started => exact started_of_history h
  case spaced => exact hserved.spaced
  case once => exact fun hsweep => ((isSwept_of_history h).2 hsweep).sweepNow_eq
  case served =>
    intro hquiet hwaiting k hk
    exact hserved.served k (Nat.lt_of_le_of_lt hk (hquiet.now_lt_nextSweep hwaiting))
  case removes => exact removesExpired_of_history h hsoft
  case active_le => exact fun _ _ hentry => htimely.active_le hentry
  case idle_lt =>
    intro hquiet client flow hentry
    have hsweep := hahead hquiet (List.ne_nil_of_mem hentry)
    have hbound := htimely.nextSweep_le_active hentry
    rw [htimely.timeout_eq] at hbound
    have hactive := htimely.active_le hentry
    omega

theorem stays_of_history
    (h : History .datagram (.ofDatagrams frontend backend level timeout) past p r)
    (hsoft : ∀ m ∈ past, m.event.breaksSocket = false) (hprompt : IsPrompt past)
    {client : SocketAddress} {socket : Nat}
    (hopened : (client, socket) ∈ past.flatMap Moment.openings) (hgoing : r.loop ≠ .ended)
    (hchain : (past.flatMap (·.heard socket) ++ [r.now]).IsChain fun t t' => t' - t ≤ timeout) :
    (client, socket) ∈ r.table.ties := by
  induction h with
  | nil => exact absurd hopened List.not_mem_nil
  | @snoc past p r event q effects r' hist hstep hs ih =>
    obtain ⟨hsoft', -⟩ := List.forall_mem_append.mp hsoft
    obtain ⟨hprompt', -⟩ := List.forall_mem_append.mp hprompt
    have htiming := timing_of_step hist hstep hs
    rw [List.flatMap_append, List.flatMap_singleton] at hopened hchain
    rcases List.mem_append.mp hopened with hold | hnew
    · have hbefore : (past.flatMap (·.heard socket) ++ [r.now]).IsChain fun t t' =>
          t' - t ≤ timeout :=
        isChain_until (heard_cases _ socket) htiming.now_le hchain
      have htie := ih hsoft' hprompt' hold (mt htiming.ended hgoing) hbefore
      have hlaw := removesExpired_of_history (hist.snoc hstep hs) hsoft _
        (List.mem_append_right _ (List.mem_singleton_self _))
      by_cases hsweep : event = .service (.datagram .sweep)
      · obtain ⟨flow, hentry, rfl⟩ := r.table.mem_ties.mp htie
        have hidle := ((attends_of_history hist hprompt').noted hentry).idle_le hbefore
        have hkept := (hlaw.of_sweep hsweep (client, flow)).mpr ⟨hentry, Nat.not_lt.mpr hidle⟩
        exact r'.table.mem_ties.mpr ⟨flow, hkept, rfl⟩
      · exact hlaw.of_other hsweep hgoing htie
    · exact List.mem_of_mem_filter hnew

theorem heeds_of_history
    (h : History .datagram (.ofDatagrams frontend backend level timeout) past p r)
    (hsoft : ∀ m ∈ past, m.event.breaksSocket = false) (hprompt : IsPrompt past) :
    Heeds timeout past p.isClosed r := by
  have hattends := attends_of_history h hprompt
  constructor
  case punctual =>
    intro hquiet hwaiting k hk
    exact (punctual_of_history h hprompt).served k
      (Nat.lt_of_le_of_lt hk (hquiet.now_lt_nextSweep hwaiting))
  case received => exact received_of_history h hprompt
  case noted => exact fun _ _ hentry => hattends.noted hentry
  case last_eq =>
    exact fun hquiet _ _ hentry =>
      (hattends.noted hentry).last_of_noted (not_isUnnoted_of_quiet hquiet)
  case stays =>
    exact fun _ _ hopened hgoing hchain => stays_of_history h hsoft hprompt hopened hgoing hchain

end History

/-- In every run of a datagram proxy in which no socket breaks, entries expire exactly when they
have been idle for longer than the timeout; and if the clock moves only while nothing is left to
do, they have been idle since their flows were last heard of. -/
theorem expires_of_runAll {frontend : Address} {backend : SocketAddress} {level : Level}
    {timeout : Nat} {events : List Proxy.Event} {effects : List Effect} {p : Proxy}
    (hrun : (Proxy.ofDatagrams frontend backend level timeout).runAll events = some (p, effects))
    (hsoft : ∀ event ∈ events, event.breaksSocket = false) :
    ∃ past r,
      History .datagram (.ofDatagrams frontend backend level timeout) past p r ∧
      past.map (·.event) = events ∧
      Expires timeout past p.isClosed r ∧
      ((Proxy.ofDatagrams frontend backend level timeout).isPrompt events →
        Heeds timeout past p.isClosed r) := by
  obtain ⟨past, r, hist, rfl, -⟩ := exists_history Service.isKind_datagram rfl hrun
  have hsoft' : ∀ m ∈ past, m.event.breaksSocket = false := List.forall_mem_map.mp hsoft
  refine ⟨past, r, hist, rfl, expires_of_history hist hsoft', ?_⟩
  exact fun hprompt => heeds_of_history hist hsoft' (hist.isPrompt hprompt)

/-- Two flows were opened one after the other; at the sweep one has been idle for the timeout and
the other for a nanosecond more. -/
theorem expires_at_boundary :
    let first : SocketAddress := .v4 .loopback 5001
    let second : SocketAddress := .v4 .loopback 5002
    let opening : Opening := ⟨.ok (), .ok (.v4 .loopback 6000)⟩
    let timeout : Nat := Duration.second - 1
    let events : List DatagramRelay.Event :=
      [.sweep, .receive (.ok (first, [1])), .lookUp opening, .send (.ok ()), .advance 1,
        .receive (.ok (second, [2])), .lookUp opening, .send (.ok ()), .advance timeout, .sweep,
        .replyStop 0]
    let r : DatagramRelay :=
      { DatagramRelay.fresh (.v4 .loopback 5353) .info timeout with
        now := Duration.second
        nextSweep := 2 * Duration.second
        loop := .waiting
        table := [(second, ⟨1, 1⟩)]
        tasks := [⟨1, second, false, .receiving⟩]
        opened := 2 }
    let p : Proxy := ⟨.datagram (.v4 .loopback 53), ⟨none, false⟩, [.running], .datagram r⟩
    let made := Proxy.ofDatagrams (.datagram (.v4 .loopback 53)) (.v4 .loopback 5353) .info timeout
    (∃ effects, made.runAll (.run :: ofRelay events) = some (p, effects)) ∧
      (∀ event ∈ .run :: ofRelay events, event.breaksSocket = false) ∧
      made.isPrompt (.run :: ofRelay events) ∧ r.IsQuiet p.isClosed ∧
      ∃ past, History .datagram made past p r ∧ past.map (·.event) = .run :: ofRelay events ∧
        Expires timeout past p.isClosed r ∧ Heeds timeout past p.isClosed r := by
  intro first second opening timeout events r p made
  have hfinal : (made.runAll (.run :: ofRelay events)).map Prod.fst = some p := by
    decide +kernel
  have hsoft : ∀ event ∈ .run :: ofRelay events, event.breaksSocket = false := by
    simp [events, ofRelay, Proxy.Event.breaksSocket, Event.breaksSocket]
  have hprompt : made.isPrompt (.run :: ofRelay events) := by decide +kernel
  have hquiet : r.IsQuiet p.isClosed := by decide
  obtain ⟨⟨q, effects⟩, hrun, rfl⟩ := Option.map_eq_some_iff.mp hfinal
  obtain ⟨past, r', hist, hevents, hexpires, hheeds⟩ := expires_of_runAll hrun hsoft
  cases hist.service_eq
  exact ⟨⟨effects, hrun⟩, hsoft, hprompt, hquiet, past, hist, hevents, hexpires, hheeds hprompt⟩

end PortForward

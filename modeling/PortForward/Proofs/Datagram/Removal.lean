import PortForward.Proofs.Datagram.Expiry

/-!
# What takes an entry away

A client may lose its entry and get another one, any number of times, while a task on one of its
older sockets has yet to find out. Sockets are never used twice, and a task removes an entry only
if it holds the socket of the task, so no task can remove an entry that came after its own.
-/

namespace PortForward

open DatagramRelay

/-- Why a step took this entry of a client away. -/
inductive Removal (timeout : Nat) (early : List (Moment DatagramRelay)) (m : Moment DatagramRelay)
    (client : SocketAddress) (flow : Flow) : Prop
  /-- a sweep found that the flow had been idle for longer than the timeout -/
  | idle : m.event = .service (.datagram .sweep) →
      timeout < m.before.now - flow.lastActivity → Removal timeout early m client flow
  /-- the task of the entry's own socket, after a receive had failed for good -/
  | broken {t m'} : m.event = .service (.datagram (.forget flow.socket)) →
      m.before.task? flow.socket = some t → t.client = client → m' ∈ early →
      m'.Breaks flow.socket → Removal timeout early m client flow
  /-- the end of the run -/
  | finished : m.event = .service (.datagram .drain) → Removal timeout early m client flow

/-- The task of a socket fails to receive, or does what it has left to do after that. -/
inductive DatagramRelay.Event.GivesUp (socket : Nat) : Event → Prop
  | failing (e : IoError) : GivesUp socket (.replyReceive socket (.error e))
  | forgetting : GivesUp socket (.forget socket)

namespace DatagramRelay

/-- An entry is left as it was, and so are its socket and its task. -/
structure Leaves (client : SocketAddress) (flow : Flow) (closed : Bool) (r r' : DatagramRelay) :
    Prop where
  entry : (client, flow) ∈ r'.table
  socket : r'.isOpen flow.socket
  task : r'.task? flow.socket = r.task? flow.socket
  live : closed = false → ∃ t, r'.task? flow.socket = some t ∧ t.client = client ∧
    t.cancelled = false

variable {closed closed' : Bool} {r r' : DatagramRelay} {turn : Turn DatagramRelay}
variable {client : SocketAddress} {flow : Flow} {socket : Nat}

/-- The only steps that take an entry away. -/
theorem Transition.removes {event : Event} (h : Transition closed r event turn)
    (hentry : (client, flow) ∈ r.table) :
    (client, flow.socket) ∈ turn.next.table.ties ∨
      (event = .sweep ∧ r.timeout < r.now - flow.lastActivity) ∨
      (event = .forget flow.socket ∧
        ∃ t, r.task? flow.socket = some t ∧ t.client = client ∧ t.phase = .forgetting) ∨
      event = .drain := by
  have htie := r.table.mem_ties.mpr ⟨flow, hentry, rfl⟩
  cases h with
  | sweep =>
    by_cases hidle : r.timeout < r.now - flow.lastActivity
    · exact .inr (.inl ⟨rfl, hidle⟩)
    · exact .inl (FlowTable.mem_ties _ |>.mpr ⟨flow, mem_sweepNow.mpr ⟨hentry, hidle⟩, rfl⟩)
  | drained => exact .inr (.inr (.inr rfl))
  | opened =>
    rw [Turn.on_next, addFlow, FlowTable.add_ties]
    exact .inl (List.mem_append_left _ htie)
  | found =>
    rw [Turn.on_next, FlowTable.touch_ties]
    exact .inl htie
  | refreshed =>
    rw [Turn.on_next, setPhase_table, FlowTable.touch_ties]
    exact .inl htie
  | @forgot s t htask hphase =>
    rw [Turn.on_next, endTask_table, FlowTable.forget_ties]
    by_cases hown : (client, flow.socket) = (t.client, s)
    · obtain ⟨rfl, rfl⟩ := Prod.mk.inj hown
      exact .inr (.inr (.inl ⟨rfl, t, htask, rfl, hphase⟩))
    · exact .inl (List.mem_filter.mpr ⟨htie, decide_eq_true hown⟩)
  | _ => exact .inl htie

theorem Tracks.exists_live (h : Tracks closed r) (hentry : (client, flow) ∈ r.table)
    (hopen : closed = false) :
    ∃ t, r.task? flow.socket = some t ∧ t.client = client ∧ t.cancelled = false := by
  have hlive := h.live_of_flow hopen _ (r.table.mem_ties.mpr ⟨flow, hentry, rfl⟩)
  obtain ⟨t, ht, hrunning, htie⟩ := r.mem_liveTies.mp hlive
  obtain ⟨rfl, hsocket⟩ := Prod.mk.inj htie
  exact ⟨t, hsocket ▸ h.task?_of_mem ht, rfl, hrunning⟩

theorem Leaves.of_task (h : Tracks closed r) (hbefore : (client, flow) ∈ r.table)
    (hafter : (client, flow) ∈ r'.table)
    (htask : r'.task? flow.socket = r.task? flow.socket) : Leaves client flow closed r r' where
  entry := hafter
  socket := by
    have hsocket : flow.socket ∈ r'.table.sockets := List.mem_map_of_mem hafter
    simp [isOpen, hsocket]
  task := htask
  live hopen := by
    rw [htask]
    exact h.exists_live hbefore hopen

/-- A task that fails on its socket leaves the entries of all other sockets alone, those of its own
client included. -/
theorem Transition.leaves {event : Event} (h : Transition closed r event turn)
    (htracks : Tracks closed r) (hgives : event.GivesUp socket)
    (hentry : (client, flow) ∈ r.table) (hother : flow.socket ≠ socket) :
    Leaves client flow closed r turn.next := by
  cases hgives with
  | failing =>
    cases h with
    | replyRefused => exact .of_task htracks hentry hentry rfl
    | replyBroken =>
      exact .of_task htracks hentry hentry (task?_setPhase_of_ne hother _)
  | forgetting =>
    cases h with
    | forgot htask =>
      refine .of_task htracks hentry ?_ (task?_endTask_of_ne hother)
      exact List.mem_filter.mpr ⟨hentry, by simp [hother]⟩

variable {event : Proxy.Event} {effects : List Effect}

theorem Passage.removes (h : Passage r closed event effects closed' r')
    (hentry : (client, flow) ∈ r.table) :
    (client, flow.socket) ∈ r'.table.ties ∨
      (event = .service (.datagram .sweep) ∧ r.timeout < r.now - flow.lastActivity) ∨
      (event = .service (.datagram (.forget flow.socket)) ∧
        ∃ t, r.task? flow.socket = some t ∧ t.client = client ∧ t.phase = .forgetting) ∨
      event = .service (.datagram .drain) := by
  cases h with
  | refused | started | closed => exact .inl (r.table.mem_ties.mpr ⟨flow, hentry, rfl⟩)
  | moved ht | finished ht =>
    rcases ht.removes hentry with htie | ⟨rfl, hidle⟩ | ⟨rfl, hown⟩ | rfl
    · exact .inl htie
    · exact .inr (.inl ⟨rfl, hidle⟩)
    · exact .inr (.inr (.inl ⟨rfl, hown⟩))
    · exact .inr (.inr (.inr rfl))

theorem Passage.leaves {e : Event}
    (h : Passage r closed (.service (.datagram e)) effects closed' r') (htracks : Tracks closed r)
    (hgives : e.GivesUp socket) (hentry : (client, flow) ∈ r.table)
    (hother : flow.socket ≠ socket) : Leaves client flow closed r r' := by
  cases h with
  | moved ht => exact ht.leaves htracks hgives hentry hother
  | finished ht => exact ht.leaves htracks hgives hentry hother

/-- A flow that was opened is there, or one of its own steps has taken its entry away; no step of
the task of another socket does anything to it. -/
structure OwnRemovals (timeout : Nat) (past : List (Moment DatagramRelay)) (r : DatagramRelay) :
    Prop where
  /-- no socket is opened twice, so that a socket stands for one flow -/
  sockets_nodup : ((past.flatMap Moment.openings).map Prod.snd).Nodup
  removal : ∀ early m late, past = early ++ m :: late → ∀ client flow,
    (client, flow) ∈ m.before.table → (client, flow.socket) ∉ m.after.table.ties →
    Removal timeout early m client flow
  stays : ∀ client socket, (client, socket) ∈ past.flatMap Moment.openings →
    (client, socket) ∈ r.table.ties ∨
      ∃ early m late flow, past = early ++ m :: late ∧ (client, flow) ∈ m.before.table ∧
        flow.socket = socket ∧ Removal timeout early m client flow
  leaves : ∀ m ∈ past, ∀ (event : Event) (socket : Nat), m.event = .service (.datagram event) →
    event.GivesUp socket → ∀ client flow, (client, flow) ∈ m.before.table →
    flow.socket ≠ socket → Leaves client flow m.closed m.before m.after

end DatagramRelay

section History

variable {frontend : Address} {backend : SocketAddress} {level : Level} {timeout : Nat}
variable {past : List (Moment DatagramRelay)} {p q : Proxy} {r r' : DatagramRelay}
variable {event : Proxy.Event} {effects : List Effect}
variable {client : SocketAddress} {flow : Flow} {socket : Nat}

theorem removal_of_step
    (h : History .datagram (.ofDatagrams frontend backend level timeout) past p r)
    (hstep : p.step event = some (q, effects)) (hr' : q.service = .datagram r')
    (hentry : (client, flow) ∈ r.table) :
    (client, flow.socket) ∈ r'.table.ties ∨
      Removal timeout past ⟨p.isClosed, r, event, effects, r'⟩ client flow := by
  obtain ⟨-, hphase⟩ := tracks_of_history h
  obtain ⟨hpass, -⟩ := Proxy.passage_of_step hphase h.service_eq hstep hr'
  rcases hpass.removes hentry with
    htie | ⟨hsweep, hidle⟩ | ⟨hforget, t, ht, hclient, hgiven⟩ | hdrain
  · exact .inl htie
  · rw [(timely_of_history h).1.timeout_eq] at hidle
    exact .inr (.idle hsweep hidle)
  · obtain ⟨m', hm', hbreaks⟩ := broken_of_history h ((phaseOf_of_task ht).trans hgiven)
    exact .inr (.broken hforget ht hclient hm' hbreaks)
  · exact .inr (.finished hdrain)

theorem stays_or_removed
    (h : History .datagram (.ofDatagrams frontend backend level timeout) past p r)
    (hopened : (client, socket) ∈ past.flatMap Moment.openings) :
    (client, socket) ∈ r.table.ties ∨
      ∃ early m late flow, past = early ++ m :: late ∧ (client, flow) ∈ m.before.table ∧
        flow.socket = socket ∧ Removal timeout early m client flow := by
  induction h with
  | nil => exact absurd hopened List.not_mem_nil
  | @snoc past p r event q effects r' hist hstep hs ih =>
    rw [List.flatMap_append, List.flatMap_singleton] at hopened
    rcases List.mem_append.mp hopened with hold | hnew
    · rcases ih hold with htie | ⟨early, m, late, flow, rfl, hremoved⟩
      · obtain ⟨flow, hentry, rfl⟩ := r.table.mem_ties.mp htie
        rcases removal_of_step hist hstep hs hentry with htie | hremoval
        · exact .inl htie
        · exact .inr ⟨past, _, [], flow, rfl, hentry, rfl, hremoval⟩
      · refine .inr ⟨early, m, late ++ [⟨p.isClosed, r, event, effects, r'⟩], flow, ?_, hremoved⟩
        rw [List.append_assoc, List.cons_append]
    · exact .inl (List.mem_of_mem_filter hnew)

theorem leaves_of_history
    (h : History .datagram (.ofDatagrams frontend backend level timeout) past p r)
    {m : Moment DatagramRelay} (hm : m ∈ past) {e : DatagramRelay.Event}
    (hevent : m.event = .service (.datagram e)) (hgives : e.GivesUp socket)
    (hentry : (client, flow) ∈ m.before.table) (hother : flow.socket ≠ socket) :
    Leaves client flow m.closed m.before m.after := by
  obtain ⟨early, late, rfl⟩ := List.append_of_mem hm
  obtain ⟨q, closed', hist, htracks, hpass⟩ := h.passage_of_moment
  rw [hevent] at hpass
  exact hpass.leaves htracks hgives hentry hother

end History

/-- In every run of a datagram proxy, in whatever order its parties take their steps, an entry goes
only by a sweep that finds its flow idle for too long, by the task of its own socket after that has
failed, or with the run. A task that fails on another socket leaves it in place, also if both are
sockets of one client. -/
theorem ownRemovals_of_runAll {frontend : Address} {backend : SocketAddress} {level : Level}
    {timeout : Nat} {events : List Proxy.Event} {effects : List Effect} {p : Proxy}
    (hrun : (Proxy.ofDatagrams frontend backend level timeout).runAll events = some (p, effects)) :
    ∃ past r,
      History .datagram (.ofDatagrams frontend backend level timeout) past p r ∧
      past.map (·.event) = events ∧ past.flatMap (·.effects) = effects ∧
      OwnRemovals timeout past r := by
  obtain ⟨past, r, hist, hevents, heffects⟩ := exists_history Service.isKind_datagram rfl hrun
  refine ⟨past, r, hist, hevents, heffects, ?_⟩
  constructor
  case sockets_nodup => exact (owned_of_history hist).nodup
  case removal =>
    rintro early m late rfl client flow hentry hgone
    obtain ⟨q, q', hbefore, hclosed, hstep, hs⟩ := hist.of_moment
    have hremoval := (removal_of_step hbefore hstep hs hentry).resolve_left hgone
    rwa [hclosed] at hremoval
  case stays => exact fun _ _ hopened => stays_or_removed hist hopened
  case leaves =>
    exact fun _ hm _ _ hevent hgives _ _ hentry hother =>
      leaves_of_history hist hm hevent hgives hentry hother

/-- The socket of an idle flow fails, a sweep removes the flow, its client opens another one, and
only then does the task of the first socket come to remove an entry. -/
theorem ownRemovals_stale_task :
    let client : SocketAddress := .v4 .loopback 5001
    let opening : Opening := ⟨.ok (), .ok (.v4 .loopback 6000)⟩
    let timeout : Nat := 1500 * Duration.millisecond
    let pause : Nat := 2 * timeout
    let events : List DatagramRelay.Event :=
      [.sweep, .receive (.ok (client, [1])), .lookUp opening, .send (.ok ()), .advance pause,
        .replyReceive 0 (.error (.os 113)), .sweep, .receive (.ok (client, [2])), .lookUp opening,
        .forget 0, .send (.ok ())]
    let r : DatagramRelay :=
      { DatagramRelay.fresh (.v4 .loopback 5353) .info timeout with
        now := pause
        nextSweep := pause + timeout
        loop := .waiting
        table := [(client, ⟨1, pause⟩)]
        tasks := [⟨1, client, false, .receiving⟩]
        opened := 2 }
    let p : Proxy := ⟨.datagram (.v4 .loopback 53), ⟨none, false⟩, [.running], .datagram r⟩
    let made := Proxy.ofDatagrams (.datagram (.v4 .loopback 53)) (.v4 .loopback 5353) .info timeout
    (∃ effects, made.runAll (.run :: ofRelay events) = some (p, effects)) ∧
      ∃ past, History .datagram made past p r ∧ past.map (·.event) = .run :: ofRelay events ∧
        OwnRemovals timeout past r := by
  intro client opening timeout pause events r p made
  have hfinal : (made.runAll (.run :: ofRelay events)).map Prod.fst = some p := by
    decide +kernel
  obtain ⟨⟨q, effects⟩, hrun, rfl⟩ := Option.map_eq_some_iff.mp hfinal
  obtain ⟨past, r', hist, hevents, -, hremovals⟩ := ownRemovals_of_runAll hrun
  cases hist.service_eq
  exact ⟨⟨effects, hrun⟩, past, hist, hevents, hremovals⟩

end PortForward

import PortForward.Proofs.Datagram.Forwarding
import PortForward.Proofs.Datagram.Replies

/-!
# Whose activity an entry records

The last activity of an entry is noted when the loop finds the entry for a datagram of its
client, and when a reply task that has a reply finds an entry of its client. Before it removes
an entry a task asks whether that holds its own socket, but it does not ask so here. A task
whose own flow has expired may still take a reply, and may come to note it after its client has
got another entry; then the newer entry looks younger than its flow is, and expires later. Only
a task that was cancelled, on a socket opened earlier, can do so.
-/

namespace PortForward

open DatagramRelay

/-- A step notes what was received of the flow of this entry: the last datagram of all, which came
from the client, or the last reply on the entry's own socket. -/
inductive Moment.NotesOwn (early : List (Moment DatagramRelay)) (m : Moment DatagramRelay)
    (client : SocketAddress) (socket : Nat) : Prop
  | datagram {opening payload} : m.event = .service (.datagram (.lookUp opening)) →
      m.before.loop = .looking client payload →
      (early.flatMap Moment.arrivals).getLast? = some (client, payload) →
      NotesOwn early m client socket
  | reply {payload} : m.event = .service (.datagram (.refresh socket)) →
      (early.flatMap (·.replies socket)).getLast? = some payload → NotesOwn early m client socket

/-- A step notes the last reply on an older socket of the client, whose entry is gone. -/
structure Moment.NotesStale (early : List (Moment DatagramRelay)) (m : Moment DatagramRelay)
    (client : SocketAddress) (older socket : Nat) : Prop where
  event_eq : m.event = .service (.datagram (.refresh older))
  reply : ∃ payload, (early.flatMap (·.replies older)).getLast? = some payload
  older_lt : older < socket
  opened : (client, older) ∈ early.flatMap Moment.openings
  gone : (client, older) ∉ m.before.table.ties
  cancelled : ∃ t, m.before.task? older = some t ∧ t.client = client ∧ t.cancelled = true

theorem FlowTable.mem_touch_self {t : FlowTable} {client : SocketAddress} {flow : Flow}
    (h : (client, flow) ∈ t) (now : Nat) :
    (client, { flow with lastActivity := now }) ∈ t.touch client now :=
  List.mem_map.mpr ⟨(client, flow), h, by simp⟩

namespace DatagramRelay

/-- What the entries of a run record. -/
structure Records (past : List (Moment DatagramRelay)) : Prop where
  datagrams : ∀ m ∈ past, ∀ opening client payload flow,
    m.event = .service (.datagram (.lookUp opening)) → m.before.loop = .looking client payload →
    (client, flow) ∈ m.before.table →
    (client, { flow with lastActivity := m.before.now }) ∈ m.after.table
  replies : ∀ m ∈ past, ∀ client flow, m.event = .service (.datagram (.refresh flow.socket)) →
    (client, flow) ∈ m.before.table →
    (client, { flow with lastActivity := m.before.now }) ∈ m.after.table
  /-- nothing else moves the last activity, but for stale tasks -/
  moves : ∀ early m late, past = early ++ m :: late → ∀ client flow flow',
    (client, flow) ∈ m.before.table → (client, flow') ∈ m.after.table → flow' ≠ flow →
    flow' = { flow with lastActivity := m.before.now } ∧
      (m.NotesOwn early client flow.socket ∨ ∃ older, m.NotesStale early client older flow.socket)

/-- No entry records the activity of another flow. -/
def Undisturbed (past : List (Moment DatagramRelay)) : Prop :=
  ∀ early m late, past = early ++ m :: late → ∀ client flow flow',
    (client, flow) ∈ m.before.table → (client, flow') ∈ m.after.table → flow' ≠ flow →
    m.NotesOwn early client flow.socket

/-- Of the sockets that belong to one client, that of its entry was opened last. -/
def Youngest (r : DatagramRelay) : Prop :=
  ∀ client socket socket', (client, socket) ∈ r.taskTies → (client, socket') ∈ r.table.ties →
    socket ≤ socket'

variable {closed closed' : Bool} {r r' : DatagramRelay} {turn : Turn DatagramRelay}
variable {client : SocketAddress} {flow flow' : Flow}

/-- The steps that move the last activity of an entry. -/
inductive Touches (r : DatagramRelay) (client : SocketAddress) : Event → Prop
  | found {opening payload} : r.loop = .looking client payload → Touches r client (.lookUp opening)
  | refreshed {socket t payload} : r.task? socket = some t → t.client = client →
      t.phase = .refreshing payload → Touches r client (.refresh socket)

theorem Transition.touches {event : Event} (h : Transition closed r event turn)
    (htracks : Tracks closed r) (hbefore : (client, flow) ∈ r.table)
    (hafter : (client, flow') ∈ turn.next.table) (hne : flow' ≠ flow) :
    flow' = { flow with lastActivity := r.now } ∧ Touches r client event := by
  have hsame : (client, flow') ∉ r.table :=
    fun h => hne (FlowTable.flow_unique htracks.clients_nodup h hbefore)
  have htouched : ∀ {c : SocketAddress}, (client, flow') ∈ r.table.touch c r.now →
      client = c ∧ flow' = { flow with lastActivity := r.now } := by
    intro c hentry
    rcases FlowTable.mem_touch hentry with ⟨hc, hnow, htie⟩ | ⟨-, hold⟩
    · have hsocket := htracks.socket_of_client htie (r.table.mem_ties.mpr ⟨flow, hbefore, rfl⟩)
      obtain ⟨socket, lastActivity⟩ := flow'
      dsimp only at hnow hsocket
      rw [hnow, hsocket]
      exact ⟨hc, rfl⟩
    · exact absurd hold hsame
  cases h with
  | found opening hloop hflow =>
    obtain ⟨rfl, hflow'⟩ := htouched hafter
    exact ⟨hflow', .found hloop⟩
  | refreshed htask hphase =>
    obtain ⟨hclient, hflow'⟩ := htouched hafter
    exact ⟨hflow', .refreshed htask hclient.symm hphase⟩
  | opened hloop hnew =>
    rcases List.mem_append.mp hafter with hold | hentry
    · exact absurd hold hsame
    · cases List.mem_singleton.mp hentry
      exact absurd rfl (FlowTable.ne_of_find?_eq_none hnew hbefore)
  | drained => exact absurd hafter List.not_mem_nil
  | sweep | forgot => exact absurd (List.mem_of_mem_filter hafter) hsame
  | _ => exact absurd hafter hsame

variable {event : Proxy.Event} {effects : List Effect}

theorem Passage.touches (h : Passage r closed event effects closed' r')
    (htracks : Tracks closed r) (hbefore : (client, flow) ∈ r.table)
    (hafter : (client, flow') ∈ r'.table) (hne : flow' ≠ flow) :
    flow' = { flow with lastActivity := r.now } ∧
      ∃ e, event = .service (.datagram e) ∧ Touches r client e := by
  cases h with
  | refused | started | closed =>
    exact absurd (FlowTable.flow_unique htracks.clients_nodup hafter hbefore) hne
  | moved ht | finished ht =>
    obtain ⟨hflow', htouches⟩ := ht.touches htracks hbefore hafter hne
    exact ⟨hflow', _, rfl, htouches⟩

theorem Passage.found {opening : Opening} {payload : Bytes}
    (h : Passage r closed (.service (.datagram (.lookUp opening))) effects closed' r')
    (htracks : Tracks closed r) (hloop : r.loop = .looking client payload)
    (hentry : (client, flow) ∈ r.table) :
    (client, { flow with lastActivity := r.now }) ∈ r'.table := by
  have hfind := FlowTable.find?_of_mem htracks.clients_nodup hentry
  have hlook : ∀ {turn : Turn DatagramRelay}, Transition closed r (.lookUp opening) turn →
      (client, { flow with lastActivity := r.now }) ∈ turn.next.table := by
    intro turn ht
    cases ht with
    | found _ hloop' =>
      cases hloop.symm.trans hloop'
      exact FlowTable.mem_touch_self hentry r.now
    | unopened hloop' hnew | unnamed hloop' hnew | opened hloop' hnew =>
      cases hloop.symm.trans hloop'
      cases hfind.symm.trans hnew
  cases h with
  | moved ht | finished ht => exact hlook ht

theorem Passage.refreshed {opened : List (SocketAddress × Nat)}
    (h : Passage r closed (.service (.datagram (.refresh flow.socket))) effects closed' r')
    (howned : Owned opened r) (hentry : (client, flow) ∈ r.table) :
    (client, { flow with lastActivity := r.now }) ∈ r'.table := by
  have hnote : ∀ {turn : Turn DatagramRelay}, Transition closed r (.refresh flow.socket) turn →
      (client, { flow with lastActivity := r.now }) ∈ turn.next.table := by
    intro turn ht
    cases ht with
    | refreshed htask =>
      obtain ⟨hmem, hsocket⟩ := mem_of_task? htask
      rw [Turn.on_next, setPhase_table, ← howned.client_eq hentry hmem hsocket.symm]
      exact FlowTable.mem_touch_self hentry r.now
  cases h with
  | moved ht | finished ht => exact hnote ht

theorem Youngest.passage (h : r.Youngest) (htracks : Tracks closed r)
    (hpass : Passage r closed event effects closed' r') : r'.Youngest := by
  intro client socket socket' htask hflow
  rcases passage_passes_or_opens hpass with hpasses | ⟨c, payload, -, hnew, rfl⟩
  · exact h client socket socket' (hpasses.tasks htask) (hpasses.flows hflow)
  · have htasks : (r.addFlow c payload).taskTies = r.taskTies ++ [(c, r.opened)] := by
      simp [addFlow, taskTies, ReplyTask.tie]
    rw [htasks] at htask
    rw [addFlow, FlowTable.add_ties] at hflow
    rcases List.mem_append.mp hflow with hold | hopened
    · rcases List.mem_append.mp htask with htask | htask
      · exact h client socket socket' htask hold
      · cases List.mem_singleton.mp htask
        exact absurd (List.mem_map_of_mem hold) (r.table.find?_eq_none.mp hnew)
    · cases List.mem_singleton.mp hopened
      rcases List.mem_append.mp htask with htask | htask
      · exact Nat.le_of_lt (htracks.task_lt _ htask)
      · cases List.mem_singleton.mp htask
        exact Nat.le_refl _

end DatagramRelay

section History

variable {frontend : Address} {backend : SocketAddress} {level : Level} {timeout : Nat}
variable {past : List (Moment DatagramRelay)} {p : Proxy} {r : DatagramRelay}
variable {client : SocketAddress} {flow : Flow} {payload : Bytes}

theorem youngest_of_history
    (h : History .datagram (.ofDatagrams frontend backend level timeout) past p r) :
    r.Youngest :=
  (h.owned_induction (motive := fun _ _ r => r.Youngest) nofun
    fun htracks _ hyoungest hpass => hyoungest.passage htracks hpass).1

/-- The datagram that the loop is looking up is the last one that arrived. -/
theorem arrival_of_looking
    (h : History .datagram (.ofDatagrams frontend backend level timeout) past p r)
    (hloop : r.loop = .looking client payload) :
    (past.flatMap Moment.arrivals).getLast? = some (client, payload) := by
  obtain ⟨ds, hbooks, -⟩ := dealt_of_history h
  have hdatagrams := hbooks.datagrams
  rw [show r.inHand = [(client, payload)] by simp only [inHand, hloop]] at hdatagrams
  rw [show past.flatMap Moment.arrivals = _ from hdatagrams, List.getLast?_concat]

/-- The reply that a task is about to note is the last one on its socket. -/
theorem reply_of_refreshing
    (h : History .datagram (.ofDatagrams frontend backend level timeout) past p r) {socket : Nat}
    (hphase : r.phaseOf socket = .refreshing payload) :
    (past.flatMap (·.replies socket)).getLast? = some payload := by
  obtain ⟨answers, hbooks, -⟩ := answered_of_history h socket
  have hpayloads := hbooks.payloads
  rw [replyInHand_eq, hphase, List.nil_append] at hpayloads
  rw [hpayloads]
  exact List.getLast?_concat ..

/-- A reply is noted in the entry of its own socket, unless its task is a stale one. -/
theorem notes_of_refresh {m : Moment DatagramRelay} {socket : Nat} {t : ReplyTask}
    (h : History .datagram (.ofDatagrams frontend backend level timeout) past p m.before)
    (hevent : m.event = .service (.datagram (.refresh socket)))
    (htask : m.before.task? socket = some t) (hphase : t.phase = .refreshing payload)
    (hentry : (t.client, flow) ∈ m.before.table) :
    m.NotesOwn past t.client flow.socket ∨ m.NotesStale past t.client socket flow.socket := by
  obtain ⟨htracks, -⟩ := tracks_of_history h
  obtain ⟨hmem, rfl⟩ := mem_of_task? htask
  have hlast := reply_of_refreshing h ((phaseOf_of_task htask).trans hphase)
  have htie : (t.client, flow.socket) ∈ m.before.table.ties :=
    FlowTable.mem_ties _ |>.mpr ⟨flow, hentry, rfl⟩
  have htaskTie : t.tie ∈ m.before.taskTies := m.before.mem_taskTies.mpr ⟨t, hmem, rfl⟩
  by_cases hown : flow.socket = t.socket
  · rw [hown]
    exact .inl (.reply hevent hlast)
  · have hgone : t.tie ∉ m.before.table.ties :=
      fun hheld => hown (htracks.socket_of_client htie hheld)
    have hle := youngest_of_history h t.client t.socket flow.socket htaskTie htie
    refine .inr ⟨hevent, ⟨payload, hlast⟩, Nat.lt_of_le_of_ne hle (Ne.symm hown), ?_, hgone, ?_⟩
    · exact (owned_of_history h).held (mem_heldTies.mpr (.inr (.inl htaskTie)))
    · refine ⟨t, htask, rfl, ?_⟩
      by_contra hlive
      have hlive : t.tie ∈ m.before.liveTies :=
        m.before.mem_liveTies.mpr ⟨t, hmem, by simpa using hlive, rfl⟩
      exact hgone (htracks.flow_of_live t.tie hlive)

theorem records_of_history
    (h : History .datagram (.ofDatagrams frontend backend level timeout) past p r) :
    Records past := by
  constructor
  case datagrams =>
    intro m hm opening client payload flow hevent hloop hentry
    obtain ⟨early, late, rfl⟩ := List.append_of_mem hm
    obtain ⟨q, closed', hist, htracks, hpass⟩ := h.passage_of_moment
    rw [hevent] at hpass
    exact hpass.found htracks hloop hentry
  case replies =>
    intro m hm client flow hevent hentry
    obtain ⟨early, late, rfl⟩ := List.append_of_mem hm
    obtain ⟨q, closed', hist, htracks, hpass⟩ := h.passage_of_moment
    rw [hevent] at hpass
    exact hpass.refreshed (owned_of_history hist) hentry
  case moves =>
    rintro early m late rfl client flow flow' hbefore hafter hne
    obtain ⟨q, closed', hist, htracks, hpass⟩ := h.passage_of_moment
    obtain ⟨hflow', e, hevent, htouches⟩ := hpass.touches htracks hbefore hafter hne
    refine ⟨hflow', ?_⟩
    cases htouches with
    | found hloop => exact .inl (.datagram hevent hloop (arrival_of_looking hist hloop))
    | refreshed htask hclient hphase =>
      subst hclient
      exact (notes_of_refresh hist hevent htask hphase hbefore).imp_right fun hstale => ⟨_, hstale⟩

end History

/-- In every run of a datagram proxy, in whatever order its parties take their steps, an entry
records when its flow was last heard of; but it may also record the reply of a task on an older
socket of its client, which was cancelled and whose own entry is gone. -/
theorem records_of_runAll {frontend : Address} {backend : SocketAddress} {level : Level}
    {timeout : Nat} {events : List Proxy.Event} {effects : List Effect} {p : Proxy}
    (hrun : (Proxy.ofDatagrams frontend backend level timeout).runAll events = some (p, effects)) :
    ∃ past r, History .datagram (.ofDatagrams frontend backend level timeout) past p r ∧
      past.map (·.event) = events ∧ Records past := by
  obtain ⟨past, r, hist, hevents, -⟩ := exists_history Service.isKind_datagram rfl hrun
  exact ⟨past, r, hist, hevents, records_of_history hist⟩

/-- The task of an expired flow notes a reply after its client has got another flow, and then the
task of that one notes a reply. -/
theorem records_both_sockets :
    let client : SocketAddress := .v4 .loopback 5001
    let opening : Opening := ⟨.ok (), .ok (.v4 .loopback 6000)⟩
    let timeout : Nat := 3 * Duration.second
    let events : List DatagramRelay.Event :=
      [.sweep, .receive (.ok (client, [1])), .lookUp opening, .send (.ok ()),
        .advance (2 * timeout), .sweep, .replyReceive 0 (.ok [7]), .receive (.ok (client, [2])),
        .lookUp opening, .send (.ok ()), .advance Duration.second, .refresh 0,
        .replySend 0 (.ok ()), .replyStop 0, .replyReceive 1 (.ok [8]), .advance Duration.second,
        .refresh 1]
    let r : DatagramRelay :=
      { DatagramRelay.fresh (.v4 .loopback 5353) .info timeout with
        now := 8 * Duration.second
        nextSweep := 9 * Duration.second
        loop := .waiting
        table := [(client, ⟨1, 8 * Duration.second⟩)]
        tasks := [⟨1, client, false, .replying [8]⟩]
        opened := 2 }
    let p : Proxy := ⟨.datagram (.v4 .loopback 53), ⟨none, false⟩, [.running], .datagram r⟩
    let made := Proxy.ofDatagrams (.datagram (.v4 .loopback 53)) (.v4 .loopback 5353) .info timeout
    (∃ effects, made.runAll (.run :: ofRelay events) = some (p, effects)) ∧
      ∃ past, History .datagram made past p r ∧ past.map (·.event) = .run :: ofRelay events ∧
        Records past := by
  intro client opening timeout events r p made
  have hfinal : (made.runAll (.run :: ofRelay events)).map Prod.fst = some p := by
    decide +kernel
  obtain ⟨⟨q, effects⟩, hrun, rfl⟩ := Option.map_eq_some_iff.mp hfinal
  obtain ⟨past, r', hist, hevents, hrecords⟩ := records_of_runAll hrun
  cases hist.service_eq
  exact ⟨⟨effects, hrun⟩, past, hist, hevents, hrecords⟩

/-- A flow expires, its task takes a reply, and the client opens another flow of which nothing is
heard any more. The first task notes its reply two seconds later, so that the sweep leaves the
second entry although its flow has been idle for longer than the timeout of three seconds. -/
theorem disturbed_by_older_socket :
    let client : SocketAddress := .v4 .loopback 5001
    let opening : Opening := ⟨.ok (), .ok (.v4 .loopback 6000)⟩
    let timeout : Nat := 3 * Duration.second
    let opened : Nat := 2 * timeout
    let noted : Nat := opened + 2 * Duration.second
    let swept : Nat := opened + 4 * Duration.second
    let events : List DatagramRelay.Event :=
      [.sweep, .receive (.ok (client, [1])), .lookUp opening, .send (.ok ()), .advance opened,
        .sweep, .replyReceive 0 (.ok [7]), .receive (.ok (client, [2])), .lookUp opening,
        .send (.ok ()), .advance (2 * Duration.second)]
    let relay (now nextSweep lastActivity : Nat) (phase : ReplyPhase) : DatagramRelay :=
      { DatagramRelay.fresh (.v4 .loopback 5353) .info timeout with
        now
        nextSweep
        loop := .waiting
        table := [(client, ⟨1, lastActivity⟩)]
        tasks := [⟨0, client, true, phase⟩, ⟨1, client, false, .receiving⟩]
        opened := 2 }
    let proxy (r : DatagramRelay) : Proxy :=
      ⟨.datagram (.v4 .loopback 53), ⟨none, false⟩, [.running], .datagram r⟩
    let made := Proxy.ofDatagrams (.datagram (.v4 .loopback 53)) (.v4 .loopback 5353) .info timeout
    let r := relay swept (4 * timeout) noted (.replying [7])
    ∃ past, History .datagram made past (proxy r) r ∧
      past.map (·.event) =
        .run :: ofRelay (events ++ [.refresh 0, .advance (2 * Duration.second), .sweep]) ∧
      ¬ Undisturbed past := by
  intro client opening timeout opened noted swept events relay proxy made r
  let expired := relay noted (3 * timeout) opened (.refreshing [7])
  have hbefore : (made.runAll (.run :: ofRelay events)).map Prod.fst = some (proxy expired) := by
    decide +kernel
  obtain ⟨⟨q, effects⟩, hrun, rfl⟩ := Option.map_eq_some_iff.mp hbefore
  obtain ⟨early, r', hist, hevents, -⟩ := exists_history Service.isKind_datagram rfl hrun
  cases hist.service_eq
  let replying := relay noted (3 * timeout) noted (.replying [7])
  let late := relay swept (3 * timeout) noted (.replying [7])
  let note : Moment DatagramRelay :=
    ⟨false, expired, .service (.datagram (.refresh 0)), [], replying⟩
  let advance : Moment DatagramRelay :=
    ⟨false, replying, .service (.datagram (.advance (2 * Duration.second))), [], late⟩
  let sweep : Moment DatagramRelay := ⟨false, late, .service (.datagram .sweep), [], r⟩
  have hnoted : History .datagram made (early ++ [note]) (proxy replying) replying :=
    .snoc hist (by decide +kernel) rfl
  have hlate : History .datagram made (early ++ [note] ++ [advance]) (proxy late) late :=
    .snoc hnoted (by decide +kernel) rfl
  have hswept : History .datagram made (early ++ [note] ++ [advance] ++ [sweep]) (proxy r) r :=
    .snoc hlate (by decide +kernel) rfl
  refine ⟨_, hswept, ?_, ?_⟩
  · simp only [List.map_append, hevents]
    rfl
  · intro hundisturbed
    have hown := hundisturbed early note [advance, sweep] (by simp) client ⟨1, opened⟩ ⟨1, noted⟩
      (List.mem_singleton_self _) (List.mem_singleton_self _) (by decide)
    cases hown with
    | datagram hevent => cases hevent
    | reply hevent => cases hevent

end PortForward

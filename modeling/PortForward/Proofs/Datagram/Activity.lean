import PortForward.Proofs.Datagram.Quiet
import PortForward.Proofs.Datagram.Replies

/-!
# When a flow was last heard of

A flow is heard of when it is opened, whenever its client sends, and whenever its socket has a
reply; what then becomes of the datagram does not matter. The table learns of it one step later,
so what it says is right once the loop and the task have nothing in hand.

A task that was cancelled while it waited may still take a reply, and then it notes the activity
of whoever has its client's entry by then. If the clock stands still until everything is done,
that entry was made at the same time, and nothing is changed.
-/

namespace PortForward

open DatagramRelay

/-- The times, at most one, at which a step hears of the flow on a socket. -/
def Moment.heard (m : Moment DatagramRelay) (socket : Nat) : List Nat :=
  match m.event with
  | .service (.datagram (.receive (.ok (client, _)))) =>
    if (m.before.table.find? client).map (·.socket) = some socket then [m.before.now] else []
  | .service (.datagram (.lookUp _)) =>
    if socket ∈ m.openings.map Prod.snd then [m.before.now] else []
  | .service (.datagram (.replyReceive s (.ok _))) => if s = socket then [m.before.now] else []
  | _ => []

def DatagramRelay.Event.movesClock : Event → Bool
  | advance _ => true
  | _ => false

def Proxy.Event.movesClock : Event → Bool
  | service (.datagram event) => event.movesClock
  | _ => false

/-- The clock moves only while the relay has nothing left to do. -/
def IsPrompt (past : List (Moment DatagramRelay)) : Prop :=
  ∀ m ∈ past, m.event.movesClock → m.before.IsQuiet m.closed

namespace Proxy

def isAtRest (p : Proxy) : Bool :=
  match p.service with
  | .datagram r => r.IsQuiet p.isClosed
  | _ => false

/-- In the run that these events make, the datagrams, the replies and the passing of time follow
one another, and each is dealt with before the clock moves. -/
def isPrompt (p : Proxy) : List Event → Bool
  | [] => true
  | event :: events =>
    (!event.movesClock || p.isAtRest) && (p.step event).all fun next => next.1.isPrompt events

theorem isPrompt_snoc {p q : Proxy} {events : List Event} {event : Event} {effects : List Effect}
    (hrun : p.runAll events = some (q, effects)) (h : p.isPrompt (events ++ [event])) :
    p.isPrompt events ∧ (event.movesClock → q.isAtRest) := by
  induction events generalizing p effects with
  | nil =>
    cases hrun
    simp only [List.nil_append, isPrompt, Bool.and_eq_true, Bool.or_eq_true,
      Bool.not_eq_true'] at h
    refine ⟨rfl, fun hmoves => ?_⟩
    rcases h.1 with hstill | hrest
    · cases hmoves.symm.trans hstill
    · exact hrest
  | cons first events ih =>
    simp only [runAll] at hrun
    obtain ⟨⟨p', one⟩, hstep, hlast⟩ := Option.bind_eq_some_iff.mp hrun
    obtain ⟨⟨q', rest⟩, hrest, heq⟩ := Option.map_eq_some_iff.mp hlast
    cases heq
    simp only [List.cons_append, isPrompt, hstep, Option.all_some, Bool.and_eq_true] at h ⊢
    obtain ⟨hevents, hevent⟩ := ih hrest h.2
    exact ⟨⟨h.1, hevents⟩, hevent⟩

end Proxy

theorem History.isPrompt {start p : Proxy} {past : List (Moment DatagramRelay)} {r : DatagramRelay}
    (h : History .datagram start past p r) (hprompt : start.isPrompt (past.map (·.event))) :
    IsPrompt past := by
  induction h with
  | nil => exact fun m hm => absurd hm List.not_mem_nil
  | snoc hist hstep hs ih =>
    rw [List.map_append, List.map_singleton] at hprompt
    obtain ⟨hevents, hevent⟩ := Proxy.isPrompt_snoc hist.runAll_eq hprompt
    intro m hm hmoves
    rcases List.mem_append.mp hm with hm | hm
    · exact ih hevents m hm hmoves
    · cases List.mem_singleton.mp hm
      have hrest := hevent hmoves
      simpa only [Proxy.isAtRest, hist.service_eq, decide_eq_true_eq] using hrest

namespace DatagramRelay

/-- A datagram of this flow is in hand, and the table does not know of it yet. -/
def IsUnnoted (r : DatagramRelay) (client : SocketAddress) (socket : Nat) : Prop :=
  (∃ payload, r.loop = .looking client payload) ∨
    ∃ payload, r.phaseOf socket = .refreshing payload

/-- An entry says when its flow was last heard of, except for what was heard just now and is
still to be noted. -/
structure Noted (r : DatagramRelay) (client : SocketAddress) (flow : Flow) (heard : List Nat) :
    Prop where
  split : ∃ noted unnoted, heard = noted ++ unnoted ∧ noted.getLast? = some flow.lastActivity ∧
    ∀ t ∈ unnoted, t = r.now
  last_of_unnoted : r.IsUnnoted client flow.socket → heard.getLast? = some r.now
  last_of_noted : ¬ r.IsUnnoted client flow.socket → heard.getLast? = some flow.lastActivity

/-- A cancelled task cannot make an entry of its client look younger than it is. -/
def StaleNow (r : DatagramRelay) : Prop :=
  ∀ t ∈ r.tasks, t.cancelled → ∀ flow, (t.client, flow) ∈ r.table → flow.lastActivity = r.now

section Noted

variable {r r' : DatagramRelay} {client : SocketAddress} {flow : Flow} {heard : List Nat}

theorem Noted.of_same (h : r.Noted client flow heard) (hnow : r'.now = r.now)
    (hsame : r'.IsUnnoted client flow.socket ↔ r.IsUnnoted client flow.socket) :
    r'.Noted client flow heard := by
  obtain ⟨hsplit, hunnoted, hnoted⟩ := h
  rw [← hnow] at hsplit hunnoted
  rw [← hsame] at hunnoted hnoted
  exact ⟨hsplit, hunnoted, hnoted⟩

theorem Noted.hear (h : r.Noted client flow heard) (hnow : r'.now = r.now)
    (hunnoted : r'.IsUnnoted client flow.socket) :
    r'.Noted client flow (heard ++ [r.now]) := by
  obtain ⟨noted, unnoted, rfl, hlast, hrest⟩ := h.split
  refine ⟨⟨noted, unnoted ++ [r.now], by simp, hlast, ?_⟩, ?_, fun hnot => absurd hunnoted hnot⟩
  · intro t ht
    rw [hnow]
    rcases List.mem_append.mp ht with ht | ht
    · exact hrest t ht
    · exact List.mem_singleton.mp ht
  · intro _
    rw [hnow, List.getLast?_concat]

theorem Noted.of_now (hlast : heard.getLast? = some r.now) (hflow : flow.lastActivity = r.now) :
    r.Noted client flow heard := by
  rw [← hflow] at hlast
  exact ⟨⟨heard, [], by simp, hlast, nofun⟩, fun _ => hflow ▸ hlast, fun _ => hlast⟩

theorem Noted.last_of_now (h : r.Noted client flow heard) (hflow : flow.lastActivity = r.now) :
    heard.getLast? = some r.now := by
  by_cases hunnoted : r.IsUnnoted client flow.socket
  · exact h.last_of_unnoted hunnoted
  · exact hflow ▸ h.last_of_noted hunnoted

/-- Time may pass once all is noted. -/
theorem Noted.later (h : r.Noted client flow heard) (hnoted : ¬ r.IsUnnoted client flow.socket)
    (hnoted' : ¬ r'.IsUnnoted client flow.socket) : r'.Noted client flow heard :=
  have hlast := h.last_of_noted hnoted
  ⟨⟨heard, [], by simp, hlast, nofun⟩, fun hunnoted => absurd hunnoted hnoted', fun _ => hlast⟩

end Noted

section Unnoted

variable {closed : Bool} {r r' : DatagramRelay} {client : SocketAddress} {socket : Nat}

theorem isUnnoted_congr
    (hloop : ∀ payload, r'.loop = .looking client payload ↔ r.loop = .looking client payload)
    (hphase : r'.phaseOf socket = r.phaseOf socket) :
    r'.IsUnnoted client socket ↔ r.IsUnnoted client socket := by
  simp only [IsUnnoted, hloop, hphase]

theorem isUnnoted_of_task {t : ReplyTask} {payload : Bytes} (h : r.task? socket = some t)
    (hphase : t.phase = .refreshing payload) : r.IsUnnoted client socket :=
  .inr ⟨payload, (phaseOf_of_task h).trans hphase⟩

theorem isUnnoted_setPhase {s : Nat} {t : ReplyTask} (h : r.task? s = some t) {phase : ReplyPhase}
    (hbefore : ∀ payload, t.phase ≠ .refreshing payload)
    (hafter : ∀ payload, phase ≠ .refreshing payload) :
    (r.setPhase s phase).IsUnnoted client socket ↔ r.IsUnnoted client socket := by
  by_cases hs : socket = s
  · subst hs
    simp [IsUnnoted, phaseOf_setPhase h, phaseOf_of_task h, hbefore, hafter]
  · simp [IsUnnoted, phaseOf_setPhase h, hs]

theorem isUnnoted_endTask {s : Nat} {t : ReplyTask} (h : r.task? s = some t)
    (hbefore : ∀ payload, t.phase ≠ .refreshing payload) :
    (r.endTask s).IsUnnoted client socket ↔ r.IsUnnoted client socket := by
  by_cases hs : socket = s
  · subst hs
    simp [IsUnnoted, phaseOf_endTask, phaseOf_of_task h, hbefore]
  · simp [IsUnnoted, phaseOf_endTask, hs]

theorem not_isUnnoted_of_quiet (h : r.IsQuiet closed) : ¬ r.IsUnnoted client socket := by
  rintro (⟨payload, hloop⟩ | ⟨payload, hphase⟩)
  · rcases h.loop_eq with hl | hl | ⟨hl, -⟩ <;> cases hl.symm.trans hloop
  · cases htask : r.task? socket with
    | none => simp [phaseOf, htask] at hphase
    | some t =>
      rw [phaseOf_of_task htask, (h.task_eq htask).1] at hphase
      cases hphase

end Unnoted

section Step

variable {closed : Bool} {r : DatagramRelay} {turn : Turn DatagramRelay}

/-- All entries say when their flows were last heard of, given for each socket the times at
which its flow was heard of. -/
structure Attends (r : DatagramRelay) (heard : Nat → List Nat) : Prop where
  noted : ∀ {client flow}, (client, flow) ∈ r.table → r.Noted client flow (heard flow.socket)
  stale : r.StaleNow

theorem heard_lookUp {opening : Opening} {effects : List Effect} {next : DatagramRelay}
    (hties : next.table.ties = r.table.ties) (socket : Nat) :
    Moment.heard ⟨closed, r, .service (.datagram (.lookUp opening)), effects, next⟩ socket =
      [] := by
  simp [Moment.heard, Moment.openings, hties]

variable {heard : Nat → List Nat} {client : SocketAddress} {flow : Flow}

theorem Attends.received {c : SocketAddress} {payload : Bytes} (h : r.Attends heard)
    (htracks : Tracks closed r) (hloop : r.loop = .waiting) (hentry : (client, flow) ∈ r.table) :
    Noted { r with loop := .looking c payload } client flow
      (heard flow.socket ++
        if (r.table.find? c).map (·.socket) = some flow.socket then [r.now] else []) := by
  by_cases hc : client = c
  · subst hc
    rw [FlowTable.find?_of_mem htracks.clients_nodup hentry, Option.map_some, if_pos rfl]
    exact (h.noted hentry).hear rfl (.inl ⟨payload, rfl⟩)
  · have hother : (r.table.find? c).map (·.socket) ≠ some flow.socket := by
      intro hfound
      obtain ⟨flow', hfind, hsocket⟩ := Option.map_eq_some_iff.mp hfound
      have htie : (client, flow.socket) ∈ r.table.ties :=
        r.table.mem_ties.mpr ⟨flow, hentry, rfl⟩
      have htie' : (c, flow.socket) ∈ r.table.ties := hsocket ▸ FlowTable.tie_of_find? hfind
      exact hc (congrArg Prod.fst (List.inj_on_of_nodup_map htracks.sockets_nodup htie htie' rfl))
    rw [if_neg hother, List.append_nil]
    exact (h.noted hentry).of_same rfl (isUnnoted_congr (by simp [hloop, Ne.symm hc]) rfl)

theorem Attends.found {c : SocketAddress} {payload : Bytes} {f : Flow} (h : r.Attends heard)
    (hloop : r.loop = .looking c payload) (hentry : (client, flow) ∈ r.table.touch c r.now) :
    Noted { r with loop := .sending c payload f.socket false, table := r.table.touch c r.now }
      client flow (heard flow.socket) := by
  rcases FlowTable.mem_touch hentry with ⟨rfl, hnow, htie⟩ | ⟨hc, hentry⟩
  · obtain ⟨flow', hentry', hsocket⟩ := r.table.mem_ties.mp htie
    refine .of_now ?_ hnow
    rw [← hsocket]
    exact (h.noted hentry').last_of_unnoted (.inl ⟨payload, hloop⟩)
  · exact (h.noted hentry).of_same rfl (isUnnoted_congr (by simp [hloop, Ne.symm hc]) rfl)

theorem Attends.opened {c : SocketAddress} {payload : Bytes} (h : r.Attends heard)
    (htracks : Tracks closed r) (hloop : r.loop = .looking c payload)
    (hnew : r.table.find? c = none) (hentry : (client, flow) ∈ (r.addFlow c payload).table) :
    (r.addFlow c payload).Noted client flow
      (heard flow.socket ++ if flow.socket ∈ [r.opened] then [r.now] else []) := by
  rcases List.mem_append.mp hentry with hentry | hentry
  · have htie : (client, flow.socket) ∈ r.table.ties := r.table.mem_ties.mpr ⟨flow, hentry, rfl⟩
    have hold : flow.socket ∉ [r.opened] := by
      rw [List.mem_singleton]
      exact Nat.ne_of_lt (htracks.flow_lt _ htie)
    have hc := FlowTable.ne_of_find?_eq_none hnew hentry
    rw [if_neg hold, List.append_nil]
    refine (h.noted hentry).of_same rfl (isUnnoted_congr ?_ (phaseOf_addFlow htracks c payload _))
    simp [addFlow, hloop, Ne.symm hc]
  · cases List.mem_singleton.mp hentry
    rw [if_pos (List.mem_singleton_self _)]
    exact .of_now (List.getLast?_concat ..) rfl

theorem Attends.replyReceived {s : Nat} {t : ReplyTask} {payload : Bytes} (h : r.Attends heard)
    (htask : r.task? s = some t) (hentry : (client, flow) ∈ r.table) :
    (r.setPhase s (.refreshing payload)).Noted client flow
      (heard flow.socket ++ if s = flow.socket then [r.now] else []) := by
  by_cases hs : s = flow.socket
  · rw [if_pos hs]
    refine (h.noted hentry).hear rfl (.inr ⟨payload, ?_⟩)
    rw [phaseOf_setPhase htask, if_pos hs.symm]
  · rw [if_neg hs, List.append_nil]
    refine (h.noted hentry).of_same rfl (isUnnoted_congr (fun _ => Iff.rfl) ?_)
    rw [phaseOf_setPhase htask, if_neg (Ne.symm hs)]

/-- The task of an entry notes what it holds; any other task of the same client was cancelled,
and what it notes is true already. -/
theorem Attends.refreshed {opened : List (SocketAddress × Nat)} {s : Nat} {t : ReplyTask}
    {payload : Bytes} (h : r.Attends heard) (htracks : Tracks closed r) (howned : Owned opened r)
    (htask : r.task? s = some t) (hphase : t.phase = .refreshing payload)
    (hentry : (client, flow) ∈ r.table.touch t.client r.now) :
    ({ r with table := r.table.touch t.client r.now }.setPhase s (.replying payload)).Noted
      client flow (heard flow.socket) := by
  obtain ⟨hmem, hsocket⟩ := mem_of_task? htask
  have htask' : { r with table := r.table.touch t.client r.now }.task? s = some t := htask
  rcases FlowTable.mem_touch hentry with ⟨rfl, hnow, htie⟩ | ⟨hc, hentry⟩
  · obtain ⟨flow', hentry', hsame⟩ := r.table.mem_ties.mp htie
    refine .of_now ?_ hnow
    rw [← hsame]
    by_cases hs : flow'.socket = s
    · exact (h.noted hentry').last_of_unnoted (isUnnoted_of_task (hs ▸ htask) hphase)
    · have hcancelled : t.cancelled := by
        by_contra hlive
        have hown := htracks.flow_of_live t.tie
          (r.mem_liveTies.mpr ⟨t, hmem, by simpa using hlive, rfl⟩)
        exact hs (hsame.trans ((htracks.socket_of_client htie hown).trans hsocket))
      exact (h.noted hentry').last_of_now (h.stale t hmem hcancelled flow' hentry')
  · have hother : flow.socket ≠ s :=
      fun hs => hc (howned.client_eq hentry hmem (hs.trans hsocket.symm))
    refine (h.noted hentry).of_same rfl (isUnnoted_congr (fun _ => Iff.rfl) ?_)
    rw [phaseOf_setPhase htask', if_neg hother]
    rfl

/-- One step keeps the entries right, if the clock moves only while the relay is quiet. -/
theorem Attends.noted_of_transition {opened : List (SocketAddress × Nat)} {event : Event}
    (h : r.Attends heard) (htracks : Tracks closed r) (howned : Owned opened r)
    (ht : Transition closed r event turn) (hquiet : event.movesClock → r.IsQuiet closed)
    (hentry : (client, flow) ∈ turn.next.table) :
    turn.next.Noted client flow (heard flow.socket ++
      Moment.heard ⟨closed, r, .service (.datagram event), turn.effects, turn.next⟩
        flow.socket) := by
  have hsilent : turn.next.Noted client flow (heard flow.socket) →
      turn.next.Noted client flow (heard flow.socket ++ []) := by
    rw [List.append_nil]
    exact id
  cases ht with
  | advance d =>
    have hnoted : ¬ r.IsUnnoted client flow.socket := not_isUnnoted_of_quiet (hquiet rfl)
    exact hsilent ((h.noted hentry).later hnoted hnoted)
  | sweep =>
    refine hsilent ((h.noted (List.mem_of_mem_filter hentry)).of_same rfl ?_)
    exact isUnnoted_congr (fun _ => Iff.rfl) (phaseOf_cancelTasks _)
  | received hloop => exact h.received htracks hloop hentry
  | found opening hloop _ =>
    rw [heard_lookUp (FlowTable.touch_ties _ _ _)]
    exact hsilent (h.found hloop hentry)
  | @unopened c _ _ _ hloop hnew | @unnamed c _ _ _ hloop hnew =>
    rw [heard_lookUp (by rfl)]
    have hc := FlowTable.ne_of_find?_eq_none hnew hentry
    refine hsilent ((h.noted hentry).of_same rfl (isUnnoted_congr ?_ rfl))
    simp [giveUp, hloop, Ne.symm hc]
  | @opened c payload _ _ hloop hnew =>
    have hheard := h.opened htracks hloop hnew hentry
    simp only [Turn.on_next, Moment.heard, openings_addFlow htracks]
    exact hheard
  | drained => cases hentry
  | replyReceived htask => exact h.replyReceived htask hentry
  | refreshed htask hphase => exact hsilent (h.refreshed htracks howned htask hphase hentry)
  | replyBroken htask hphase | replied htask hphase | replyFailed htask hphase =>
    refine hsilent ((h.noted hentry).of_same rfl ?_)
    exact isUnnoted_setPhase htask (by simp [hphase]) (by simp)
  | @forgot s t htask hphase =>
    have htask' : { r with table := r.table.forget t.client s }.task? s = some t := htask
    refine hsilent ((h.noted (List.mem_of_mem_filter hentry)).of_same rfl ?_)
    exact isUnnoted_endTask htask' (by simp [hphase])
  | replyStopped htask hphase =>
    refine hsilent ((h.noted hentry).of_same rfl ?_)
    exact isUnnoted_endTask htask (by simp [hphase])
  | replyRefused => exact hsilent (h.noted hentry)
  | receiveFailed hloop | sent hloop | refusedOnce hloop | sendFailed hloop | stopped hloop =>
    refine hsilent ((h.noted hentry).of_same rfl (isUnnoted_congr ?_ rfl))
    simp [giveUp, hloop]

theorem StaleNow.of_le {r' : DatagramRelay} (h : r.StaleNow) (hnow : r'.now = r.now)
    (htasks : ∀ t' ∈ r'.tasks, ∃ t ∈ r.tasks, t.client = t'.client ∧ t.cancelled = t'.cancelled)
    (htable : ∀ c f, (c, f) ∈ r'.table → (c, f) ∈ r.table ∨ f.lastActivity = r.now) :
    r'.StaleNow := by
  intro t' ht' hcancelled f hentry
  obtain ⟨t, ht, hclient, hsame⟩ := htasks t' ht'
  rw [hnow]
  rcases htable _ f hentry with hold | hfresh
  · exact h t ht (hsame.trans hcancelled) f (hclient ▸ hold)
  · exact hfresh

theorem exists_of_mem_setPhase {s : Nat} {phase : ReplyPhase} {t' : ReplyTask}
    (h : t' ∈ (r.setPhase s phase).tasks) :
    ∃ t ∈ r.tasks, t.client = t'.client ∧ t.cancelled = t'.cancelled := by
  obtain ⟨t, ht, rfl⟩ := List.mem_map.mp h
  refine ⟨t, ht, ?_⟩
  split <;> exact ⟨rfl, rfl⟩

/-- The sweep cancels the tasks of the entries that it removes, and of no client that keeps one. -/
theorem StaleNow.sweepNow {opened : List (SocketAddress × Nat)} (h : r.StaleNow)
    (htracks : Tracks closed r) (howned : Owned opened r) : r.sweepNow.next.StaleNow := by
  intro t' ht' hcancelled f hentry
  obtain ⟨hentry, hkept⟩ := List.mem_filter.mp hentry
  obtain ⟨t, ht, rfl⟩ := List.mem_map.mp ht'
  by_cases hgone : t.socket ∈ (r.table.expired r.timeout r.now).sockets
  · rw [if_pos hgone] at hentry
    obtain ⟨⟨c, f'⟩, hexpired, hsocket⟩ := List.mem_map.mp hgone
    obtain ⟨hentry', hexpired⟩ := List.mem_filter.mp hexpired
    obtain rfl := howned.client_eq hentry' ht hsocket
    have hsame := FlowTable.flow_unique htracks.clients_nodup hentry hentry'
    rw [hsame] at hkept
    simp [hexpired] at hkept
  · rw [if_neg hgone] at hcancelled hentry
    exact h t ht hcancelled f hentry

theorem StaleNow.of_transition {opened : List (SocketAddress × Nat)} {event : Event}
    (h : r.StaleNow) (htracks : Tracks closed r) (howned : Owned opened r)
    (ht : Transition closed r event turn) (hquiet : event.movesClock → r.IsQuiet closed) :
    turn.next.StaleNow := by
  have htasks : ∀ t ∈ r.tasks, ∃ t' ∈ r.tasks, t'.client = t.client ∧ t'.cancelled = t.cancelled :=
    fun t ht => ⟨t, ht, rfl, rfl⟩
  have htable : ∀ c f, (c, f) ∈ r.table → (c, f) ∈ r.table ∨ f.lastActivity = r.now :=
    fun _ _ => .inl
  cases ht with
  | advance d =>
    intro t ht hcancelled
    obtain ⟨-, hlive, -⟩ := htracks.live_of_quiet (hquiet rfl) ht
    cases hlive.symm.trans hcancelled
  | sweep => exact h.sweepNow htracks howned
  | found => exact h.of_le rfl htasks fun _ _ => FlowTable.mem_or_of_touch
  | @opened c payload =>
    intro t ht hcancelled f hentry
    rcases List.mem_append.mp hentry with hentry | hentry
    · rcases List.mem_append.mp ht with ht | ht
      · exact h t ht hcancelled f hentry
      · cases List.mem_singleton.mp ht
        cases hcancelled
    · cases List.mem_singleton.mp hentry
      rfl
  | drained =>
    intro _ _ _ _ hentry
    cases hentry
  | replyReceived | replyBroken | replied | replyFailed =>
    exact h.of_le rfl (fun _ => exists_of_mem_setPhase) htable
  | refreshed =>
    exact h.of_le rfl (fun _ => exists_of_mem_setPhase) fun _ _ => FlowTable.mem_or_of_touch
  | forgot =>
    exact h.of_le rfl (fun t ht => htasks t (List.mem_of_mem_filter ht))
      fun c f hentry => htable c f (List.mem_of_mem_filter hentry)
  | replyStopped => exact h.of_le rfl (fun t ht => htasks t (List.mem_of_mem_filter ht)) htable
  | _ => exact h.of_le rfl htasks htable

theorem Attends.of_empty (h : r.table = []) : r.Attends heard := by
  constructor
  · intro _ _ hentry
    rw [h] at hentry
    cases hentry
  · intro _ _ _ _ hentry
    rw [h] at hentry
    cases hentry

theorem Attends.passage {opened : List (SocketAddress × Nat)} {event : Proxy.Event}
    {effects : List Effect} {closed' : Bool} {r' : DatagramRelay} (h : r.Attends heard)
    (htracks : Tracks closed r) (howned : Owned opened r)
    (hpass : Passage r closed event effects closed' r')
    (hquiet : event.movesClock → r.IsQuiet closed) :
    r'.Attends fun s => heard s ++ Moment.heard ⟨closed, r, event, effects, r'⟩ s := by
  cases hpass with
  | refused | closed =>
    refine ⟨fun hentry => ?_, h.stale⟩
    simpa [Moment.heard] using h.noted hentry
  | started hidle =>
    exact .of_empty (List.map_eq_nil_iff.mp (htracks.empty_of_idle hidle).1)
  | moved ht =>
    exact ⟨h.noted_of_transition htracks howned ht hquiet,
      h.stale.of_transition htracks howned ht hquiet⟩
  | finished ht hend =>
    cases ht with
    | drained => exact .of_empty rfl
    | _ => cases hend

end Step

end DatagramRelay

/-- A datagram of this client is received. -/
def Moment.Receives (m : Moment DatagramRelay) (client : SocketAddress) : Prop :=
  ∃ payload, m.event = .service (.datagram (.receive (.ok (client, payload))))

namespace DatagramRelay

theorem looking_of_passage {closed closed' : Bool} {r r' : DatagramRelay} {event : Proxy.Event}
    {effects : List Effect} (h : Passage r closed event effects closed' r')
    {client : SocketAddress} {payload : Bytes} (hloop : r'.loop = .looking client payload) :
    Moment.Receives ⟨closed, r, event, effects, r'⟩ client ∧ r'.now = r.now ∨
      r.loop = .looking client payload ∧ (event.movesClock ∨ r'.now = r.now) := by
  cases h with
  | refused | closed => exact .inr ⟨hloop, .inr rfl⟩
  | started => cases hloop
  | moved ht =>
    cases ht with
    | advance => exact .inr ⟨hloop, .inl rfl⟩
    | received =>
      cases hloop
      exact .inl ⟨⟨_, rfl⟩, rfl⟩
    | receiveFailed | found | unopened | unnamed | opened | sent | refusedOnce | sendFailed
    | stopped | drained => cases hloop
    | _ => exact .inr ⟨hloop, .inr rfl⟩
  | finished ht hend =>
    cases ht with
    | drained => cases hloop
    | _ => cases hend

end DatagramRelay

/-- If the clock is prompt, a flow is opened at the time at which a datagram of its client was
received. -/
theorem received_of_history {frontend : Address} {backend : SocketAddress} {level : Level}
    {timeout : Nat} {past : List (Moment DatagramRelay)} {p : Proxy} {r : DatagramRelay}
    (h : History .datagram (.ofDatagrams frontend backend level timeout) past p r)
    (hprompt : IsPrompt past) :
    ∀ m ∈ past, ∀ client socket, (client, socket) ∈ m.openings →
      ∃ m' ∈ past, m'.Receives client ∧ m'.before.now = m.before.now := by
  refine (h.owned_induction (motive := fun past _ r => IsPrompt past →
    (∀ m ∈ past, ∀ client socket, (client, socket) ∈ m.openings →
      ∃ m' ∈ past, m'.Receives client ∧ m'.before.now = m.before.now) ∧
    ∀ client payload, r.loop = .looking client payload →
      ∃ m ∈ past, m.Receives client ∧ m.before.now = r.now) ?_ ?_).1 hprompt |>.1
  · exact fun _ => ⟨fun m hm => absurd hm List.not_mem_nil, nofun⟩
  · intro past closed r event effects closed' r' htracks _ ih hpass hprompt
    obtain ⟨hbefore, hnow⟩ := List.forall_mem_append.mp hprompt
    obtain ⟨hopened, hlooking⟩ := ih hbefore
    constructor
    · intro m hm client socket hopening
      rcases List.mem_append.mp hm with hm | hm
      · obtain ⟨m', hm', hreceived⟩ := hopened m hm client socket hopening
        exact ⟨m', List.mem_append_left _ hm', hreceived⟩
      · cases List.mem_singleton.mp hm
        rcases passage_passes_or_opens hpass with hpasses | ⟨c, payload, hloop, -, rfl⟩
        · rw [hpasses.openings] at hopening
          cases hopening
        · rw [openings_addFlow htracks] at hopening
          cases List.mem_singleton.mp hopening
          obtain ⟨m', hm', hreceived⟩ := hlooking _ _ hloop
          exact ⟨m', List.mem_append_left _ hm', hreceived⟩
    · intro client payload hloop
      rcases looking_of_passage hpass hloop with ⟨hreceives, hsame⟩ | ⟨hold, hclock⟩
      · exact ⟨_, List.mem_append_right _ (List.mem_singleton_self _), hreceives, hsame.symm⟩
      · obtain ⟨m, hm, hreceives, htime⟩ := hlooking client payload hold
        refine ⟨m, List.mem_append_left _ hm, hreceives, ?_⟩
        rcases hclock with hmoves | hsame
        · -- A loop with a datagram in hand is not quiet, so the clock cannot have moved.
          have hnoted : ¬ r.IsUnnoted client 0 :=
            not_isUnnoted_of_quiet (hnow _ (List.mem_singleton_self _) hmoves)
          exact absurd (.inl ⟨payload, hold⟩) hnoted
        · exact htime.trans hsame.symm

/-- In every run with a prompt clock all entries say when their flows were last heard of. -/
theorem attends_of_history {frontend : Address} {backend : SocketAddress} {level : Level}
    {timeout : Nat} {past : List (Moment DatagramRelay)} {p : Proxy} {r : DatagramRelay}
    (h : History .datagram (.ofDatagrams frontend backend level timeout) past p r)
    (hprompt : IsPrompt past) : r.Attends fun s => past.flatMap (·.heard s) := by
  refine (h.owned_induction (motive := fun past _ r =>
    IsPrompt past → r.Attends fun s => past.flatMap (·.heard s)) ?_ ?_).1 hprompt
  · exact fun _ => .of_empty rfl
  · intro past closed r event effects closed' r' htracks howned ih hpass hprompt
    obtain ⟨hbefore, hnow⟩ := List.forall_mem_append.mp hprompt
    have hnext := (ih hbefore).passage htracks howned hpass
      (hnow _ (List.mem_singleton_self _))
    simpa using hnext

end PortForward

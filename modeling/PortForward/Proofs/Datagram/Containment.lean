import PortForward.Proofs.Datagram.Forwarding
import PortForward.Proofs.Datagram.Replies

/-!
# The failures of one client

A call that fails for one client costs that client a datagram, a reply or its flow, and
nobody else anything: the flows, the tasks and the sockets of all others stay as they were. The
loop goes on: with the second try after a first refusal, else with the next datagram, and the log
has one line about what was lost. The client's own flow goes only if its socket can no longer
receive. This takes two steps, the failure and the access to the table, and others may move in
between; but nothing except that access can end the task.
-/

namespace PortForward

open DatagramRelay

namespace FlowTable

variable {t : FlowTable} {client : SocketAddress} {flow : Flow}

/-- A client loses its entry to a socket that this entry holds, and to no other. -/
theorem find?_forget (hnodup : (t.ties.map Prod.fst).Nodup) (socket : Nat) :
    (t.forget client socket).find? client = (t.find? client).filter (·.socket ≠ socket) := by
  have hkept : ((t.forget client socket).ties.map Prod.fst).Nodup := by
    rw [forget_ties]
    exact hnodup.sublist (List.filter_sublist.map _)
  cases hfind : t.find? client with
  | none =>
    rw [find?_eq_none] at hfind
    rw [Option.filter_none, find?_eq_none, forget_ties]
    exact fun hmem => hfind ((List.filter_sublist.map _).subset hmem)
  | some flow =>
    by_cases hsocket : flow.socket = socket
    · rw [Option.filter_some_neg (by simpa using hsocket), find?_eq_none, forget_ties]
      intro hmem
      obtain ⟨⟨c, s⟩, htie, rfl⟩ := List.mem_map.mp hmem
      obtain ⟨htie, hne⟩ := List.mem_filter.mp htie
      obtain ⟨flow', hflow', rfl⟩ := t.mem_ties.mp htie
      cases hfind.symm.trans (find?_of_mem hnodup hflow')
      simp [hsocket] at hne
    · rw [Option.filter_some_pos (by simpa using hsocket)]
      exact find?_of_mem hkept (List.mem_filter.mpr ⟨mem_of_find? hfind, by simpa using hsocket⟩)

end FlowTable

namespace DatagramRelay

/-- The call that the relay is waiting for on behalf of a client fails. -/
inductive Mishap (r : DatagramRelay) (client : SocketAddress) : Event → Prop
  | unopened {payload opening e} : r.loop = .looking client payload →
      r.table.find? client = none → opening.connected = .error e → Mishap r client (.lookUp opening)
  | unnamed {payload opening e} : r.loop = .looking client payload →
      r.table.find? client = none → opening.connected = .ok () → r.level.shows .info →
      opening.localAddress = .error e → Mishap r client (.lookUp opening)
  | unsent {payload socket retried} (e : IoError) :
      r.loop = .sending client payload socket retried → Mishap r client (.send (.error e))
  | unreceived {socket t} (e : IoError) : r.task? socket = some t → t.client = client →
      t.phase = .receiving → Mishap r client (.replyReceive socket (.error e))
  | unanswered {socket t payload} (e : IoError) : r.task? socket = some t → t.client = client →
      t.phase = .replying payload → Mishap r client (.replySend socket (.error e))

/-- What belongs to other clients is the same, down to the time of the last activity. -/
structure SparesOthers (client : SocketAddress) (r r' : DatagramRelay) : Prop where
  flows : r'.table.filter (·.1 ≠ client) = r.table.filter (·.1 ≠ client)
  tasks : r'.tasks.filter (·.client ≠ client) = r.tasks.filter (·.client ≠ client)
  sockets : ∀ c ≠ client, ∀ s, (c, s) ∈ r'.heldTies ↔ (c, s) ∈ r.heldTies

variable {closed : Bool} {r r' : DatagramRelay} {client : SocketAddress} {socket : Nat}
variable {t : ReplyTask} {event : Event} {turn : Turn DatagramRelay}

theorem exists_loopTie_iff : (∃ c, (c, socket) ∈ r.loopTies) ↔ r.loop.socket? = some socket := by
  unfold loopTies
  cases hloop : r.loop <;> simp [LoopPhase.socket?, eq_comm]

theorem isOpen_iff : r.isOpen socket ↔ ∃ c, (c, socket) ∈ r.heldTies := by
  have hflow : socket ∈ r.table.sockets ↔ ∃ c, (c, socket) ∈ r.table.ties := by
    simp [FlowTable.sockets_eq]
  have htask : socket ∈ r.tasks.map (·.socket) ↔ ∃ c, (c, socket) ∈ r.taskTies := by
    simp [mem_taskTies, ReplyTask.tie]
  simp only [isOpen, Bool.decide_or, Bool.or_eq_true, decide_eq_true_eq, mem_heldTies, exists_or]
  rw [hflow, htask, exists_loopTie_iff]

theorem SparesOthers.of_loop (htable : r'.table = r.table) (htasks : r'.tasks = r.tasks)
    (hloop : ∀ c ≠ client, ∀ s, (c, s) ∈ r'.loopTies ↔ (c, s) ∈ r.loopTies) :
    SparesOthers client r r' := by
  refine ⟨by rw [htable], by rw [htasks], ?_⟩
  intro c hc s
  rw [mem_heldTies, mem_heldTies, htable, taskTies, taskTies, htasks, hloop c hc s]

theorem sparesOthers_setPhase (h : Tracks closed r) (ht : r.task? socket = some t)
    (phase : ReplyPhase) : SparesOthers t.client r (r.setPhase socket phase) := by
  obtain ⟨hmem, hsocket⟩ := mem_of_task? ht
  refine ⟨rfl, ?_, ?_⟩
  · have hsame : ∀ x ∈ r.tasks.filter (·.client ≠ t.client),
        (if x.socket = socket then { x with phase } else x) = x := by
      intro x hx
      obtain ⟨hx, hne⟩ := List.mem_filter.mp hx
      refine if_neg fun heq => ?_
      rw [h.task_eq_of_socket hx hmem (heq.trans hsocket.symm)] at hne
      simp at hne
    have hclient : ∀ x : ReplyTask,
        (if x.socket = socket then { x with phase } else x).client = x.client := by
      intro x
      split <;> rfl
    simp only [setPhase, List.filter_map, Function.comp_def, hclient]
    rw [List.map_congr_left hsame, List.map_id']
  · intro c _ s
    rw [mem_heldTies, mem_heldTies, setPhase_taskTies]
    rfl

theorem sparesOthers_forget (h : Tracks closed r) (ht : r.task? socket = some t) :
    SparesOthers t.client r
      ({ r with table := r.table.forget t.client socket }.endTask socket) := by
  obtain ⟨hmem, hsocket⟩ := mem_of_task? ht
  refine ⟨?_, ?_, ?_⟩
  · simp only [endTask_table, FlowTable.forget, List.filter_filter]
    apply List.filter_congr
    rintro ⟨c, f⟩ -
    by_cases hc : c = t.client <;> simp [hc]
  · simp only [endTask, List.filter_filter]
    apply List.filter_congr
    intro x hx
    by_cases heq : x.socket = socket
    · rw [h.task_eq_of_socket hx hmem (heq.trans hsocket.symm)]
      simp
    · simp [heq]
  · intro c hc s
    have hflow : (c, s) ∈ (r.table.forget t.client socket).ties ↔ (c, s) ∈ r.table.ties := by
      rw [FlowTable.forget_ties, List.mem_filter]
      simp [hc]
    have htask : (c, s) ∈ ({ r with table := r.table.forget t.client socket }.endTask
        socket).taskTies ↔ (c, s) ∈ r.taskTies := by
      rw [endTask_taskTies, List.mem_filter]
      refine and_iff_left_of_imp fun hx => ?_
      have hne : s ≠ socket := by
        intro heq
        have htie := h.eq_of_socket hx (r.mem_taskTies.mpr ⟨t, hmem, rfl⟩) (heq.trans hsocket.symm)
        exact hc (congrArg Prod.fst htie)
      simpa using hne
    rw [mem_heldTies, mem_heldTies, htask]
    exact or_congr_left hflow

/-- A task that has given up on its socket does nothing else before it has removed its entry. -/
theorem Transition.forgetting (h : Transition closed r event turn) (htracks : Tracks closed r)
    (ht : r.task? socket = some t) (hphase : t.phase = .forgetting)
    (hne : event ≠ .forget socket) :
    ∃ t', turn.next.task? socket = some t' ∧ t'.client = t.client ∧ t'.phase = .forgetting := by
  have hcancel : ∀ (r₁ : DatagramRelay) (sockets : List Nat), r₁.tasks = r.tasks →
      ∃ t', (r₁.cancelTasks sockets).task? socket = some t' ∧ t'.client = t.client ∧
        t'.phase = .forgetting := by
    intro r₁ sockets heq
    have ht₁ : r₁.task? socket = some t := by rw [task?, heq]; exact ht
    rw [task?_cancelTasks, ht₁]
    refine ⟨_, rfl, ?_⟩
    dsimp only
    split <;> exact ⟨rfl, hphase⟩
  have hother : ∀ {s t' phase}, r.task? s = some t' → t'.phase ≠ .forgetting →
      (r.setPhase s phase).task? socket = some t := by
    intro s t' phase ht' hbusy
    have hs : socket ≠ s := by
      rintro rfl
      cases ht.symm.trans ht'
      exact hbusy hphase
    exact (task?_setPhase_of_ne hs _).trans ht
  cases h with
  | sweep => exact hcancel _ _ rfl
  | drained => exact hcancel _ _ rfl
  | opened =>
    have hlt := htracks.task_lt t.tie (r.mem_taskTies.mpr ⟨t, (mem_of_task? ht).1, rfl⟩)
    have hs : socket ≠ r.opened := by
      rw [← (mem_of_task? ht).2]
      exact Nat.ne_of_lt hlt
    exact ⟨t, (task?_addFlow_of_ne hs).trans ht, rfl, hphase⟩
  | replyReceived ht' hphase' | replyBroken ht' hphase' | replied ht' hphase'
  | replyFailed ht' hphase' | refreshed ht' hphase' =>
    exact ⟨t, hother ht' (by simp [hphase']), rfl, hphase⟩
  | @forgot s =>
    have hs : socket ≠ s := fun heq => hne (heq ▸ rfl)
    exact ⟨t, (task?_endTask_of_ne hs).trans ht, rfl, hphase⟩
  | @replyStopped s _ ht' hphase' =>
    have hs : socket ≠ s := by
      rintro rfl
      cases ht.symm.trans ht'
      cases hphase.symm.trans hphase'
    exact ⟨t, (task?_endTask_of_ne hs).trans ht, rfl, hphase⟩
  | _ => exact ⟨t, ht, rfl, hphase⟩

/-- The loop does nothing with a datagram that it has received but look up its client. -/
theorem Transition.lookUp_of_looking (h : Transition closed r event turn)
    {c : SocketAddress} {payload : Bytes} (hloop : r.loop = .looking c payload)
    (hmoved : turn.next.loop ≠ r.loop) : ∃ opening, event = .lookUp opening := by
  cases h with
  | found opening | unopened | unnamed | opened => exact ⟨_, rfl⟩
  | sweep hl | received hl | receiveFailed hl | sent hl | refusedOnce hl | sendFailed hl
  | stopped hl | drained hl => cases hloop.symm.trans hl
  | _ => exact absurd rfl hmoved

/-- A client without an entry gets one only when a datagram of its own is looked up. -/
theorem Transition.absent (h : Transition closed r event turn)
    (habsent : r.table.find? client = none)
    (hother : ∀ opening payload, event = .lookUp opening → r.loop ≠ .looking client payload) :
    turn.next.table.find? client = none := by
  rw [FlowTable.find?_eq_none] at habsent ⊢
  rcases passes_or_opens h with hpass | ⟨c, payload, hloop, -, hnext⟩
  · exact fun hmem => habsent (List.map_subset _ hpass.flows hmem)
  · have hmoved : turn.next.loop ≠ r.loop := by
      rw [hnext, hloop]
      nofun
    obtain ⟨opening, hevent⟩ := h.lookUp_of_looking hloop hmoved
    have hc : client ≠ c := by
      rintro rfl
      exact hother opening payload hevent hloop
    rw [hnext, addFlow, FlowTable.add_ties]
    simpa [hc] using habsent

theorem Passage.absent {closed' : Bool} {event : Proxy.Event} {effects : List Effect}
    (h : Passage r closed event effects closed' r') (habsent : r.table.find? client = none)
    (hothers : ∀ x ∈ Moment.lookups ⟨closed, r, event, effects, r'⟩, x.1 ≠ client) :
    r'.table.find? client = none := by
  have htransition : ∀ {e turn}, Transition closed r e turn → event = .service (.datagram e) →
      turn.next.table.find? client = none := by
    intro e turn ht hevent
    refine ht.absent habsent ?_
    rintro opening payload rfl hloop
    subst hevent
    refine hothers (client, (r'.table.find? client).map Flow.socket) ?_ rfl
    simp only [Moment.lookups, hloop, List.mem_singleton]
  cases h with
  | refused | started | closed => exact habsent
  | moved ht => exact htransition ht rfl
  | finished ht => exact htransition ht rfl

theorem Passage.forgetting {closed' : Bool} {event : Proxy.Event} {effects : List Effect}
    (h : Passage r closed event effects closed' r') (htracks : Tracks closed r)
    (ht : r.task? socket = some t) (hphase : t.phase = .forgetting)
    (hne : event ≠ .service (.datagram (.forget socket))) :
    ∃ t', r'.task? socket = some t' ∧ t'.client = t.client ∧ t'.phase = .forgetting := by
  cases h with
  | refused | started | closed => exact ⟨t, ht, rfl, hphase⟩
  | moved htrans | finished htrans =>
    refine htrans.forgetting htracks ht hphase ?_
    rintro rfl
    exact hne rfl

end DatagramRelay

section History

variable {frontend : Address} {backend : SocketAddress} {level : Level} {timeout : Nat}
variable {past : List (Moment DatagramRelay)} {p : Proxy} {r : DatagramRelay}
variable {client : SocketAddress} {socket : Nat} {event : DatagramRelay.Event}

/-- As long as no datagram of the client is looked up there is no entry for it, and the first
that is looked up opens a socket of its own, unless the kernel refuses. -/
def OpensAfresh (client : SocketAddress) (p : Proxy) : Prop :=
  ∀ later q r, History .datagram p later q r →
    (∀ x ∈ later.flatMap Moment.lookups, x.1 ≠ client) →
    r.table.find? client = none ∧
      ∀ payload, r.loop = .looking client payload → ∀ opening : Opening,
        opening.connected = .ok () →
        (r.level.shows .info → ∃ a, opening.localAddress = .ok a) →
        r.isOpen r.opened = false ∧ ∃ effects,
          q.step (.service (.datagram (.lookUp opening))) =
            some ({ q with service := .datagram (r.addFlow client payload) }, effects)

/-- Whatever others do, the one thing left to do for the task of a socket that has failed is to
remove the entry of its client, if that still holds this socket, and to end. -/
def Forgets (client : SocketAddress) (socket : Nat) (p : Proxy) : Prop :=
  ∀ later q r, History .datagram p later q r →
    (∀ m ∈ later, m.event ≠ .service (.datagram (.forget socket))) →
    ∃ r', q.step (.service (.datagram (.forget socket))) =
        some ({ q with service := .datagram r' }, [.log (.repliesStopped client)]) ∧
      r'.loop = r.loop ∧ SparesOthers client r r' ∧ r'.task? socket = none ∧
      r'.table.find? client = (r.table.find? client).filter (·.socket ≠ socket) ∧
      (r'.table.find? client = none →
        OpensAfresh client { q with service := .datagram r' })

/-- Where the loop goes on, what is left of the client's own flow, and what the log says, by the
call that failed. -/
inductive Aftermath (client : SocketAddress) (q : Proxy) (r r' : DatagramRelay) :
    DatagramRelay.Event → List Effect → Prop
  | opening {o e} : o.connected = .error e ∨ o.connected = .ok () ∧ o.localAddress = .error e →
      r'.loop = .waiting → r'.table = r.table → r'.tasks = r.tasks →
      (∀ socket, r'.isOpen socket = r.isOpen socket) → OpensAfresh client q →
      Aftermath client q r r' (.lookUp o) [.log (.forwardFailed client e)]
  /-- a first refusal says nothing about the datagram at hand, which is sent once more -/
  | refusedOnce {payload socket e} : r.loop = .sending client payload socket false →
      e.kind = .connectionRefused → r' = { r with loop := .sending client payload socket true } →
      Aftermath client q r r' (.send (.error e)) []
  | unsent {payload socket retried e} : r.loop = .sending client payload socket retried →
      (e.kind = .connectionRefused → retried = true) → r' = { r with loop := .waiting } →
      Aftermath client q r r' (.send (.error e)) [.log (.forwardFailed client e)]
  | answering {socket t e} : r'.loop = r.loop → r'.table = r.table → r.task? socket = some t →
      r'.task? socket = some { t with phase := .receiving } →
      Aftermath client q r r' (.replySend socket (.error e)) [.log (.replyFailed client e)]
  | refused {socket e} : e.kind = .connectionRefused → r' = r →
      Aftermath client q r r' (.replyReceive socket (.error e)) [.log (.receiveRefused client)]
  | broken {socket e} : e.kind ≠ .connectionRefused → r'.loop = r.loop → r'.table = r.table →
      Forgets client socket q →
      Aftermath client q r r' (.replyReceive socket (.error e)) [.log (.receiveFailed client e)]

/-- The step is taken and the run goes on, others are spared, and the client is left with what the
failed call leaves it. -/
def Contained (client : SocketAddress) (p : Proxy) (r : DatagramRelay)
    (event : DatagramRelay.Event) : Prop :=
  ∃ r' effects, p.step (.service (.datagram event)) =
      some ({ p with service := .datagram r' }, effects) ∧
    SparesOthers client r r' ∧
    Aftermath client { p with service := .datagram r' } r r' event effects

theorem lt_opened_of_history
    (h : History .datagram (.ofDatagrams frontend backend level timeout) past p r) :
    ∀ x ∈ r.heldTies, x.2 < r.opened := by
  have howned := owned_of_history h
  exact fun x hx => howned.lt_opened x (howned.held hx)

theorem History.append_datagram {start q : Proxy} {r' : DatagramRelay}
    {later : List (Moment DatagramRelay)} (h : History .datagram start past p r)
    (hlater : History .datagram p later q r') : History .datagram start (past ++ later) q r' :=
  h.append (fun _ _ => Service.datagram.inj) hlater

theorem opensAfresh_of_history
    (h : History .datagram (.ofDatagrams frontend backend level timeout) past p r)
    (habsent : r.table.find? client = none) : OpensAfresh client p := by
  intro later q r' hlater hothers
  have habsent' : r'.table.find? client = none := by
    refine (hlater.passage_induction (motive := fun later _ r =>
      (∀ x ∈ later.flatMap Moment.lookups, x.1 ≠ client) → r.table.find? client = none)
      (tracks_of_history h).2 h.service_eq (fun _ => habsent) ?_).1 hothers
    intro later closed r event effects closed' r' hpast hpass hothers
    rw [List.flatMap_append] at hothers
    have hearlier := hpast fun x hx => hothers x (List.mem_append_left _ hx)
    refine hpass.absent hearlier fun x hx => hothers x (List.mem_append_right _ ?_)
    rwa [List.flatMap_singleton]
  refine ⟨habsent', ?_⟩
  intro payload hloop opening hconn hname
  have hhistory := h.append_datagram hlater
  refine ⟨?_, ?_⟩
  · rw [Bool.eq_false_iff]
    intro hopen
    obtain ⟨c, hc⟩ := isOpen_iff.mp hopen
    exact Nat.lt_irrefl _ (lt_opened_of_history hhistory _ hc)
  · by_cases hshow : r'.level.shows .info
    · obtain ⟨a, ha⟩ := hname hshow
      exact ⟨_, Proxy.step_of_transition hhistory.service_eq
        (.opened hloop habsent' hconn (by rw [if_pos hshow]; exact ⟨a, ha, rfl⟩)) rfl⟩
    · exact ⟨_, Proxy.step_of_transition hhistory.service_eq
        (.opened hloop habsent' hconn (by rw [if_neg hshow])) rfl⟩

theorem forgets_of_history {t : ReplyTask}
    (h : History .datagram (.ofDatagrams frontend backend level timeout) past p r)
    (ht : r.task? socket = some t) (hphase : t.phase = .forgetting) :
    Forgets t.client socket p := by
  intro later q r' hlater hnever
  have htask : ∃ t', r'.task? socket = some t' ∧ t'.client = t.client ∧
      t'.phase = .forgetting := by
    refine ((hlater.passage_induction (motive := fun later closed r => Tracks closed r ∧
      ((∀ m ∈ later, m.event ≠ .service (.datagram (.forget socket))) →
        ∃ t', r.task? socket = some t' ∧ t'.client = t.client ∧ t'.phase = .forgetting))
      (tracks_of_history h).2 h.service_eq
      ⟨(tracks_of_history h).1, fun _ => ⟨t, ht, rfl, hphase⟩⟩ ?_).1).2 hnever
    rintro later closed r event effects closed' r' ⟨htracks, hpast⟩ hpass
    refine ⟨htracks.passage hpass, fun hnever => ?_⟩
    obtain ⟨t', ht', hclient, hphase'⟩ := hpast fun m hm => hnever m (List.mem_append_left _ hm)
    have hne := hnever _ (List.mem_append_right _ (List.mem_singleton_self _))
    obtain ⟨t'', ht'', hsame, hphase''⟩ := hpass.forgetting htracks ht' hphase' hne
    exact ⟨t'', ht'', hsame.trans hclient, hphase''⟩
  obtain ⟨t', ht', hclient, hphase'⟩ := htask
  have hhistory := h.append_datagram hlater
  obtain ⟨htracks, -⟩ := tracks_of_history hhistory
  have hstep := Proxy.step_of_transition hhistory.service_eq (.forgot ht' hphase') rfl
  rw [← hclient]
  refine ⟨_, hstep, rfl, sparesOthers_forget htracks ht', task?_endTask_self,
    FlowTable.find?_forget htracks.clients_nodup socket, ?_⟩
  intro habsent
  exact opensAfresh_of_history (hhistory.snoc hstep rfl) habsent

theorem aftermath_of_unopened {opening : Opening} {payload : Bytes} {e : IoError} {n : Nat}
    (h : History .datagram (.ofDatagrams frontend backend level timeout) past p r)
    (hloop : r.loop = .looking client payload) (hnew : r.table.find? client = none)
    (hfails : opening.connected = .error e ∨
      opening.connected = .ok () ∧ opening.localAddress = .error e)
    (ht : Transition p.isClosed r (.lookUp opening)
      ({ r with opened := n }.giveUp client e)) :
    Contained client p r (.lookUp opening) := by
  have hstep := Proxy.step_of_transition h.service_eq ht rfl
  have hties : r.loopTies = [] := by simp only [loopTies, hloop]
  refine ⟨_, _, hstep, .of_loop rfl rfl ?_, .opening hfails rfl rfl rfl ?_ ?_⟩
  · intro c _ s
    rw [hties]
    rfl
  · intro socket
    rw [Bool.eq_iff_iff, isOpen_iff, isOpen_iff]
    simp only [heldTies, hties]
    rfl
  · exact opensAfresh_of_history (h.snoc hstep rfl) hnew

theorem aftermath_of_unsent {payload : Bytes} {retried : Bool}
    (h : History .datagram (.ofDatagrams frontend backend level timeout) past p r)
    (hloop : r.loop = .sending client payload socket retried) (e : IoError) :
    Contained client p r (.send (.error e)) := by
  have hties : ∀ c ≠ client, ∀ s, (c, s) ∉ r.loopTies := by
    intro c hc s hmem
    simp only [loopTies, hloop, List.mem_singleton] at hmem
    exact hc (congrArg Prod.fst hmem)
  by_cases hretry : e.kind = .connectionRefused ∧ retried = false
  · obtain ⟨hkind, rfl⟩ := hretry
    have hstep := Proxy.step_of_transition h.service_eq (.refusedOnce hloop hkind) rfl
    refine ⟨_, _, hstep, .of_loop rfl rfl ?_, .refusedOnce hloop hkind rfl⟩
    intro c hc s
    have hsame : ({ r with loop := .sending client payload socket true } : DatagramRelay).loopTies =
        r.loopTies := by simp only [loopTies, hloop]
    rw [Turn.on_next, hsame]
  · have hstep := Proxy.step_of_transition h.service_eq
      (.sendFailed hloop (by simpa using hretry)) rfl
    refine ⟨_, _, hstep, .of_loop rfl rfl ?_, .unsent hloop (by simpa using hretry) rfl⟩
    intro c hc s
    exact iff_of_false List.not_mem_nil (hties c hc s)

theorem aftermath_of_unreceived {t : ReplyTask}
    (h : History .datagram (.ofDatagrams frontend backend level timeout) past p r)
    (ht : r.task? socket = some t) (hphase : t.phase = .receiving) (e : IoError) :
    Contained t.client p r (.replyReceive socket (.error e)) := by
  obtain ⟨htracks, -⟩ := tracks_of_history h
  by_cases hkind : e.kind = .connectionRefused
  · have hstep := Proxy.step_of_transition h.service_eq (.replyRefused ht hphase hkind) rfl
    exact ⟨_, _, hstep, .of_loop rfl rfl fun _ _ _ => Iff.rfl, .refused hkind rfl⟩
  · have hstep := Proxy.step_of_transition h.service_eq (.replyBroken ht hphase hkind) rfl
    refine ⟨_, _, hstep, sparesOthers_setPhase htracks ht _, .broken hkind rfl rfl ?_⟩
    exact forgets_of_history (t := { t with phase := .forgetting }) (h.snoc hstep rfl)
      (task?_setPhase_self ht .forgetting) rfl

theorem aftermath_of_unanswered {t : ReplyTask} {payload : Bytes}
    (h : History .datagram (.ofDatagrams frontend backend level timeout) past p r)
    (ht : r.task? socket = some t) (hphase : t.phase = .replying payload) (e : IoError) :
    Contained t.client p r (.replySend socket (.error e)) := by
  obtain ⟨htracks, -⟩ := tracks_of_history h
  have hstep := Proxy.step_of_transition h.service_eq (.replyFailed (e := e) ht hphase) rfl
  refine ⟨_, _, hstep, sparesOthers_setPhase htracks ht _, .answering rfl rfl ht ?_⟩
  rw [Turn.on_next, task?_setPhase_self ht]

end History

/-- Whenever a call fails that a datagram proxy makes for a client, the step is taken; the loop
sends once more or is back at waiting for the next datagram, and a failure of a reply task leaves it
where it was; nothing of the other clients changes; and the client's own flow is not begun, is kept,
or is given up for one that its next datagram begins. -/
theorem contained_of_runAll {frontend : Address} {backend : SocketAddress} {level : Level}
    {timeout : Nat} {events : List Proxy.Event} {effects : List Effect} {p : Proxy}
    {r : DatagramRelay} {client : SocketAddress} {event : DatagramRelay.Event}
    (hrun : (Proxy.ofDatagrams frontend backend level timeout).runAll events = some (p, effects))
    (hr : p.service = .datagram r) (hmishap : Mishap r client event) :
    Contained client p r event := by
  obtain ⟨past, s, hist, -, -⟩ := exists_history Service.isKind_datagram rfl hrun
  cases hist.service_eq.symm.trans hr
  cases hmishap with
  | unopened hloop hnew hconn =>
    exact aftermath_of_unopened hist hloop hnew (.inl hconn) (.unopened hloop hnew hconn)
  | unnamed hloop hnew hconn hshow hname =>
    exact aftermath_of_unopened hist hloop hnew (.inr ⟨hconn, hname⟩)
      (.unnamed hloop hnew hconn hshow hname)
  | unsent e hloop => exact aftermath_of_unsent hist hloop e
  | unreceived e ht hclient hphase =>
    subst hclient
    exact aftermath_of_unreceived hist ht hphase e
  | unanswered e ht hclient hphase =>
    subst hclient
    exact aftermath_of_unanswered hist ht hphase e

/-- The first socket of a client cannot be opened. Its next datagram opens one, on which it is
refused twice. That socket breaks later, while the loop sends for another client. -/
theorem contained_broken_socket :
    let first : SocketAddress := .v4 .loopback 5001
    let second : SocketAddress := .v4 .loopback 5002
    let backend : SocketAddress := .v4 .loopback 5353
    let timeout : Nat := Duration.second
    let opening : Opening := ⟨.ok (), .ok (.v4 .loopback 6000)⟩
    let refused : IoError := .os 111
    let unopened : DatagramRelay.Event := .lookUp ⟨.error (.os 24), .error (.os 24)⟩
    let unsent : DatagramRelay.Event := .send (.error refused)
    let broken : DatagramRelay.Event := .replyReceive 0 (.error (.os 113))
    let start : List DatagramRelay.Event := [.sweep, .receive (.ok (first, [1]))]
    let again : List DatagramRelay.Event :=
      start ++ [unopened, .receive (.ok (first, [2])), .lookUp opening, unsent]
    let other : List DatagramRelay.Event :=
      again ++ [unsent, .advance 700, .receive (.ok (second, [3])), .lookUp opening]
    let swept : DatagramRelay :=
      { DatagramRelay.fresh backend .info timeout with
        nextSweep := timeout }
    let looking : DatagramRelay := { swept with loop := .looking first [1] }
    let retrying : DatagramRelay :=
      { swept with
        loop := .sending first [2] 0 true
        table := [(first, ⟨0, 0⟩)]
        tasks := [⟨0, first, false, .receiving⟩]
        opened := 1 }
    let sending : DatagramRelay :=
      { swept with
        now := 700
        loop := .sending second [3] 1 false
        table := [(first, ⟨0, 0⟩), (second, ⟨1, 700⟩)]
        tasks := [⟨0, first, false, .receiving⟩, ⟨1, second, false, .receiving⟩]
        opened := 2 }
    let proxy (r : DatagramRelay) : Proxy :=
      ⟨.datagram (.v4 .loopback 53), ⟨none, false⟩, [.running], .datagram r⟩
    let made := Proxy.ofDatagrams (.datagram (.v4 .loopback 53)) backend .info timeout
    let reaches (events : List DatagramRelay.Event) (r : DatagramRelay) : Prop :=
      ∃ effects, made.runAll (.run :: ofRelay events) = some (proxy r, effects)
    (reaches start looking ∧ Mishap looking first unopened ∧
      Contained first (proxy looking) looking unopened) ∧
    (reaches again retrying ∧ Mishap retrying first unsent ∧
      Contained first (proxy retrying) retrying unsent) ∧
    reaches other sending ∧ Mishap sending first broken ∧
      Contained first (proxy sending) sending broken := by
  intro first second backend timeout opening refused unopened unsent broken start again other swept
    looking retrying sending proxy made reaches
  have hlooks : looking.loop = .looking first [1] := rfl
  have hunopened : Mishap looking first unopened := .unopened hlooks rfl rfl
  have hunsent : Mishap retrying first unsent := .unsent refused rfl
  have hbroken : Mishap sending first broken :=
    .unreceived (t := ⟨0, first, false, .receiving⟩) (.os 113) rfl rfl rfl
  have hrun : ∀ {events r}, (made.runAll (.run :: ofRelay events)).map Prod.fst = some (proxy r) →
      reaches events r := by
    intro events r hfinal
    obtain ⟨⟨q, effects⟩, hrun, rfl⟩ := Option.map_eq_some_iff.mp hfinal
    exact ⟨effects, hrun⟩
  have hlooking : reaches start looking := hrun (by decide +kernel)
  have hretrying : reaches again retrying := hrun (by decide +kernel)
  have hsending : reaches other sending := hrun (by decide +kernel)
  refine ⟨⟨hlooking, hunopened, ?_⟩, ⟨hretrying, hunsent, ?_⟩, hsending, hbroken, ?_⟩
  · exact contained_of_runAll hlooking.choose_spec rfl hunopened
  · exact contained_of_runAll hretrying.choose_spec rfl hunsent
  · exact contained_of_runAll hsending.choose_spec rfl hbroken

end PortForward

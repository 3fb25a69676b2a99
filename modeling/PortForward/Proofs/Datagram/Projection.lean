import PortForward.Proofs.Datagram.Openings

/-!
# One client alone

What is left of a relay when all clients but one are left out: its flow, its tasks, and the
loop as long as it deals with this client. The sockets of the client are numbered as if no
other socket had ever been opened, and the client and the sockets may have other addresses.
A step for another client leaves this part of the relay alone, and any other step is a step
of it.
-/

namespace PortForward

open DatagramRelay

/-- How a client goes when it is alone: its address, the numbers of its sockets, and the
addresses that the system gives to these. -/
structure Naming where
  client : SocketAddress
  address : SocketAddress
  socket : Nat → Nat
  port : Nat → SocketAddress

namespace Naming

variable (n : Naming)

def about {α : Type} (client : SocketAddress) (a : α) : Option α :=
  if client = n.client then some a else none

def phase : LoopPhase → LoopPhase
  | .looking client payload =>
    if client = n.client then .looking n.address payload else .waiting
  | .sending client payload socket retried =>
    if client = n.client then .sending n.address payload (n.socket socket) retried else .waiting
  | phase => phase

def flow (f : Flow) : Flow := { f with socket := n.socket f.socket }

def table (t : FlowTable) : FlowTable :=
  t.filterMap fun (client, f) => n.about client (n.address, n.flow f)

def task (t : ReplyTask) : ReplyTask :=
  { t with socket := n.socket t.socket, client := n.address }

def tasks (ts : List ReplyTask) : List ReplyTask :=
  ts.filterMap fun t => n.about t.client (n.task t)

def relay (r : DatagramRelay) : DatagramRelay :=
  { r with
    loop := n.phase r.loop
    table := n.table r.table
    tasks := n.tasks r.tasks
    opened := n.socket r.opened }

def opening (number : Nat) (o : Opening) : Opening :=
  { o with localAddress := o.localAddress.map fun _ => n.port number }

/-- A step of the task on a socket, if that is the client's. -/
def taskEvent (r : DatagramRelay) (socket : Nat) (event : Nat → DatagramRelay.Event) :
    Option DatagramRelay.Event :=
  (r.task? socket).bind fun t => n.about t.client (event (n.socket socket))

/-- What a step of the relay is for the client's part. Steps for other clients are nothing. -/
def event (r : DatagramRelay) : DatagramRelay.Event → Option DatagramRelay.Event
  | .receive (.ok (client, payload)) => n.about client (.receive (.ok (n.address, payload)))
  | .lookUp o =>
    r.loop.client?.bind fun client =>
      n.about client (.lookUp (n.opening (n.socket r.opened) o))
  | .send result => r.loop.client?.bind fun client => n.about client (.send result)
  | .replyReceive s result => n.taskEvent r s fun s => .replyReceive s result
  | .refresh s => n.taskEvent r s .refresh
  | .replySend s result => n.taskEvent r s fun s => .replySend s result
  | .forget s => n.taskEvent r s .forget
  | .replyStop s => n.taskEvent r s .replyStop
  | event => some event

/-- A line about the client, with the address of the socket that is opened if one is. -/
def notice (port : SocketAddress) : Notice → Option Notice
  | .flowOpened client backend _ => n.about client (.flowOpened n.address backend port)
  | .flowExpired client => n.about client (.flowExpired n.address)
  | .forwarded length client backend => n.about client (.forwarded length n.address backend)
  | .forwardFailed client e => n.about client (.forwardFailed n.address e)
  | .receiveRefused client => n.about client (.receiveRefused n.address)
  | .receiveFailed client e => n.about client (.receiveFailed n.address e)
  | .replied length client => n.about client (.replied length n.address)
  | .replyFailed client e => n.about client (.replyFailed n.address e)
  | .repliesStopped client => n.about client (.repliesStopped n.address)
  | notice => some notice

def effect (port : SocketAddress) : Effect → Option Effect
  | .log notice => (n.notice port notice).map .log
  | .transmit socket payload => some (.transmit (n.socket socket) payload)
  | .reply client payload => n.about client (.reply n.address payload)
  | effect => some effect

def effects (number : Nat) (effects : List Effect) : List Effect :=
  effects.filterMap (n.effect (n.port number))

@[simp] theorem about_self {α : Type} (a : α) : n.about n.client a = some a := if_pos rfl

variable {n}

theorem about_of_ne {α : Type} {client : SocketAddress} (h : client ≠ n.client) (a : α) :
    n.about client a = none := if_neg h

theorem about_eq_some_iff {α : Type} {client : SocketAddress} {a b : α} :
    n.about client a = some b ↔ client = n.client ∧ a = b := by
  simp [about, Option.ite_none_right_eq_some]

/-- A step of the relay as one of the client's part: a step for the client, with the same
answers, or a step that is for nobody in particular. -/
inductive Renamed (n : Naming) (r : DatagramRelay) :
    DatagramRelay.Event → DatagramRelay.Event → Prop
  | advance (d : Nat) : Renamed n r (.advance d) (.advance d)
  | sweep : Renamed n r .sweep .sweep
  | receive (payload : Bytes) :
      Renamed n r (.receive (.ok (n.client, payload))) (.receive (.ok (n.address, payload)))
  | receiveFailed (e : IoError) : Renamed n r (.receive (.error e)) (.receive (.error e))
  | lookUp (o : Opening) : r.loop.client? = some n.client →
      Renamed n r (.lookUp o) (.lookUp (n.opening (n.socket r.opened) o))
  | send (result : Except IoError Unit) : r.loop.client? = some n.client →
      Renamed n r (.send result) (.send result)
  | stop : Renamed n r .stop .stop
  | drain : Renamed n r .drain .drain
  | replyReceive {s t} (result : Except IoError Bytes) : r.task? s = some t →
      t.client = n.client → Renamed n r (.replyReceive s result) (.replyReceive (n.socket s) result)
  | refresh {s t} : r.task? s = some t → t.client = n.client →
      Renamed n r (.refresh s) (.refresh (n.socket s))
  | replySend {s t} (result : Except IoError Unit) : r.task? s = some t →
      t.client = n.client → Renamed n r (.replySend s result) (.replySend (n.socket s) result)
  | forget {s t} : r.task? s = some t → t.client = n.client →
      Renamed n r (.forget s) (.forget (n.socket s))
  | replyStop {s t} : r.task? s = some t → t.client = n.client →
      Renamed n r (.replyStop s) (.replyStop (n.socket s))

theorem renamed_of_event {r : DatagramRelay} {event e : DatagramRelay.Event}
    (h : n.event r event = some e) : Renamed n r event e := by
  have htask : ∀ {s : Nat} (event : Nat → DatagramRelay.Event), n.taskEvent r s event = some e →
      ∃ t, r.task? s = some t ∧ t.client = n.client ∧ event (n.socket s) = e := by
    intro s event h
    obtain ⟨t, ht, habout⟩ := Option.bind_eq_some_iff.mp h
    exact ⟨t, ht, about_eq_some_iff.mp habout⟩
  cases event with
  | receive result =>
    cases result with
    | error e =>
      cases h
      exact .receiveFailed e
    | ok datagram =>
      obtain ⟨hclient, rfl⟩ := about_eq_some_iff.mp h
      obtain ⟨client, payload⟩ := datagram
      subst hclient
      exact .receive payload
  | lookUp o =>
    obtain ⟨client, hclient, habout⟩ := Option.bind_eq_some_iff.mp h
    obtain ⟨rfl, rfl⟩ := about_eq_some_iff.mp habout
    exact .lookUp o hclient
  | send result =>
    obtain ⟨client, hclient, habout⟩ := Option.bind_eq_some_iff.mp h
    obtain ⟨rfl, rfl⟩ := about_eq_some_iff.mp habout
    exact .send result hclient
  | replyReceive s result =>
    obtain ⟨t, ht, hclient, rfl⟩ := htask (fun s => .replyReceive s result) h
    exact .replyReceive result ht hclient
  | refresh s =>
    obtain ⟨t, ht, hclient, rfl⟩ := htask .refresh h
    exact .refresh ht hclient
  | replySend s result =>
    obtain ⟨t, ht, hclient, rfl⟩ := htask (fun s => .replySend s result) h
    exact .replySend result ht hclient
  | forget s =>
    obtain ⟨t, ht, hclient, rfl⟩ := htask .forget h
    exact .forget ht hclient
  | replyStop s =>
    obtain ⟨t, ht, hclient, rfl⟩ := htask .replyStop h
    exact .replyStop ht hclient
  | advance d =>
    cases h
    exact .advance d
  | sweep =>
    cases h
    exact .sweep
  | stop =>
    cases h
    exact .stop
  | drain =>
    cases h
    exact .drain

section Table

variable {t : FlowTable} {client : SocketAddress}

theorem table_cons_self (f : Flow) :
    n.table ((n.client, f) :: t) = (n.address, n.flow f) :: n.table t := by
  simp [table]

theorem table_cons_of_ne (h : client ≠ n.client) (f : Flow) :
    n.table ((client, f) :: t) = n.table t := by
  simp [table, about_of_ne h]

theorem find?_table (t : FlowTable) :
    (n.table t).find? n.address = (t.find? n.client).map n.flow := by
  induction t with
  | nil => rfl
  | cons e t ih =>
    obtain ⟨client, f⟩ := e
    unfold FlowTable.find? at ih ⊢
    by_cases h : client = n.client
    · subst h
      rw [table_cons_self, List.lookup_cons_self, List.lookup_cons_self]
      rfl
    · have hne : (n.client == client) = false := beq_false_of_ne (Ne.symm h)
      rw [table_cons_of_ne h, ih, List.lookup_cons, hne]

theorem table_add_self (t : FlowTable) (f : Flow) :
    n.table (t.add n.client f) = (n.table t).add n.address (n.flow f) := by
  simp [table, FlowTable.add]

theorem table_add_of_ne (h : client ≠ n.client) (t : FlowTable) (f : Flow) :
    n.table (t.add client f) = n.table t := by
  simp [table, FlowTable.add, about_of_ne h]

theorem table_touch_self (t : FlowTable) (now : Nat) :
    n.table (t.touch n.client now) = (n.table t).touch n.address now := by
  simp only [table, FlowTable.touch, List.filterMap_map, List.map_filterMap]
  apply List.filterMap_congr
  rintro ⟨client, f⟩ -
  by_cases h : client = n.client
  · simp [h, flow]
  · simp [about_of_ne h]

theorem table_touch_of_ne (h : client ≠ n.client) (t : FlowTable) (now : Nat) :
    n.table (t.touch client now) = n.table t := by
  simp only [table, FlowTable.touch, List.filterMap_map]
  apply List.filterMap_congr
  rintro ⟨client', f⟩ -
  by_cases h' : client' = n.client
  · simp [h', Ne.symm h]
  · simp [about_of_ne h']

/-- A filter that treats the client's entries as another one treats their images. -/
theorem table_filter {p q : SocketAddress × Flow → Bool}
    (h : ∀ f, (n.client, f) ∈ t → p (n.client, f) = q (n.address, n.flow f)) :
    n.table (t.filter p) = (n.table t).filter q := by
  simp only [table, List.filterMap_filter, List.filter_filterMap]
  apply List.filterMap_congr
  rintro ⟨client, f⟩ hmem
  by_cases hc : client = n.client
  · subst hc
    simp [h f hmem, Option.filter_some]
  · simp [about_of_ne hc]

theorem table_forget_self {s : Nat}
    (hinj : ∀ f, (n.client, f) ∈ t → n.socket f.socket = n.socket s → f.socket = s) :
    n.table (t.forget n.client s) = (n.table t).forget n.address (n.socket s) := by
  apply table_filter
  intro f hf
  have hiff : n.socket f.socket = n.socket s ↔ f.socket = s :=
    ⟨hinj f hf, fun heq => by rw [heq]⟩
  simp [flow, hiff]

theorem table_forget_of_ne (h : client ≠ n.client) (t : FlowTable) (s : Nat) :
    n.table (t.forget client s) = n.table t := by
  have hall : n.table (t.forget client s) = (n.table t).filter fun _ => true :=
    table_filter fun f _ => by simp [Ne.symm h]
  rw [hall, List.filter_true]

theorem table_kept (t : FlowTable) (timeout now : Nat) :
    n.table (t.kept timeout now) = (n.table t).kept timeout now :=
  table_filter fun _ _ => rfl

theorem table_expired (t : FlowTable) (timeout now : Nat) :
    n.table (t.expired timeout now) = (n.table t).expired timeout now :=
  table_filter fun _ _ => rfl

theorem mem_table {e : SocketAddress × Flow} :
    e ∈ n.table t ↔ ∃ f, (n.client, f) ∈ t ∧ e = (n.address, n.flow f) := by
  simp only [table, List.mem_filterMap, Prod.exists, about_eq_some_iff]
  constructor
  · rintro ⟨client, f, hmem, rfl, heq⟩
    exact ⟨f, hmem, heq.symm⟩
  · rintro ⟨f, hmem, heq⟩
    exact ⟨n.client, f, hmem, rfl, heq.symm⟩

end Table

section Tasks

variable {ts : List ReplyTask} {t : ReplyTask}

theorem tasks_cons_self (h : t.client = n.client) :
    n.tasks (t :: ts) = n.task t :: n.tasks ts := by
  simp [tasks, h]

theorem tasks_cons_of_ne (h : t.client ≠ n.client) : n.tasks (t :: ts) = n.tasks ts := by
  simp [tasks, about_of_ne h]

theorem tasks_map {f g : ReplyTask → ReplyTask} (hclient : ∀ t ∈ ts, (f t).client = t.client)
    (h : ∀ t ∈ ts, t.client = n.client → n.task (f t) = g (n.task t)) :
    n.tasks (ts.map f) = (n.tasks ts).map g := by
  simp only [tasks, List.filterMap_map, List.map_filterMap]
  apply List.filterMap_congr
  intro t ht
  simp only [Function.comp_apply, hclient t ht]
  by_cases hc : t.client = n.client
  · simp [hc, h t ht hc]
  · simp [about_of_ne hc]

theorem tasks_filter {p q : ReplyTask → Bool}
    (h : ∀ t ∈ ts, t.client = n.client → p t = q (n.task t)) :
    n.tasks (ts.filter p) = (n.tasks ts).filter q := by
  simp only [tasks, List.filterMap_filter, List.filter_filterMap]
  apply List.filterMap_congr
  intro t ht
  by_cases hc : t.client = n.client
  · simp [hc, h t ht hc, Option.filter_some]
  · simp [about_of_ne hc]

theorem find?_tasks {p q : ReplyTask → Bool}
    (h : ∀ t ∈ ts, p t ↔ t.client = n.client ∧ q (n.task t)) :
    (n.tasks ts).find? q = (ts.find? p).map n.task := by
  induction ts with
  | nil => rfl
  | cons t ts ih =>
    have ih := ih fun t ht => h t (List.mem_cons_of_mem _ ht)
    have hiff := h t List.mem_cons_self
    by_cases hc : t.client = n.client
    · rw [tasks_cons_self hc, List.find?_cons, List.find?_cons, ih]
      have hpq : p t = q (n.task t) := by simpa [hc] using hiff
      rw [hpq]
      cases q (n.task t) <;> rfl
    · have hp : p t = false := by simpa [hc] using hiff
      rw [tasks_cons_of_ne hc, List.find?_cons, hp, ih]

end Tasks

end Naming

namespace Naming

/-- The client's sockets are numbered in the order of their opening. -/
def Ranks (n : Naming) (owners : List SocketAddress) : Prop :=
  ∀ s ≤ owners.length, n.socket s = (owners.take s).count n.client

variable {n : Naming} {owners : List SocketAddress}

theorem Ranks.left {more : List SocketAddress} (h : n.Ranks (owners ++ more)) :
    n.Ranks owners := by
  intro s hs
  rw [h s (by rw [List.length_append]; omega), List.take_append_of_le_length hs]

theorem Ranks.lt (h : n.Ranks owners) {s s' : Nat} (hs : owners[s]? = some n.client)
    (hlt : s < s') (hs' : s' ≤ owners.length) : n.socket s < n.socket s' := by
  have hle : s + 1 ≤ owners.length := by omega
  have hnext : (owners.take (s + 1)).count n.client = (owners.take s).count n.client + 1 := by
    rw [List.take_add_one, hs]
    simp
  have hmono : (owners.take (s + 1)).count n.client ≤ (owners.take s').count n.client :=
    (List.take_prefix_take_left hlt).sublist.count_le _
  rw [h s (by omega), h s' hs']
  omega

theorem Ranks.inj (h : n.Ranks owners) {s s' : Nat} (hs : owners[s]? = some n.client)
    (hs' : owners[s']? = some n.client) (heq : n.socket s = n.socket s') : s = s' := by
  have hlt : s < owners.length := (List.getElem?_eq_some_iff.mp hs).1
  have hlt' : s' < owners.length := (List.getElem?_eq_some_iff.mp hs').1
  rcases Nat.lt_trichotomy s s' with hless | rfl | hless
  · exact absurd (h.lt hs hless (by omega)) (by omega)
  · rfl
  · exact absurd (h.lt hs' hless (by omega)) (by omega)

section Relay

variable {r : DatagramRelay} {s : Nat} {t : ReplyTask}

theorem owner_of_task (h : r.OwnedBy owners) (ht : t ∈ r.tasks) :
    owners[t.socket]? = some t.client :=
  h.held t.tie (mem_heldTies.mpr (.inr (.inl (r.mem_taskTies.mpr ⟨t, ht, rfl⟩))))

theorem owner_of_flow (h : r.OwnedBy owners) {client : SocketAddress} {f : Flow}
    (hf : (client, f) ∈ r.table) : owners[f.socket]? = some client :=
  h.held (client, f.socket) (mem_heldTies.mpr (.inl (r.table.mem_ties.mpr ⟨f, hf, rfl⟩)))

theorem owner_of_task? (h : r.OwnedBy owners) (htask : r.task? s = some t) :
    owners[s]? = some t.client := by
  obtain ⟨ht, rfl⟩ := mem_of_task? htask
  exact owner_of_task h ht

theorem socket_iff (hown : r.OwnedBy owners) (hrank : n.Ranks owners)
    (hs : owners[s]? = some n.client) :
    ∀ t ∈ r.tasks, t.client = n.client → (n.socket t.socket = n.socket s ↔ t.socket = s) := by
  intro t ht hc
  constructor
  · intro heq
    exact hrank.inj (hc ▸ owner_of_task hown ht) hs heq
  · intro heq
    rw [heq]

theorem socket_ne (hown : r.OwnedBy owners) (htask : r.task? s = some t)
    (hc : t.client ≠ n.client) : ∀ t' ∈ r.tasks, t'.client = n.client → t'.socket ≠ s := by
  rintro t' ht' hc' rfl
  have heq := (owner_of_task hown ht').symm.trans (owner_of_task? hown htask)
  exact hc (Option.some.inj (heq.symm.trans (congrArg some hc')))

theorem task?_relay (hown : r.OwnedBy owners) (hrank : n.Ranks owners)
    (htask : r.task? s = some t) (hc : t.client = n.client) :
    (n.relay r).task? (n.socket s) = some (n.task t) := by
  have hs : owners[s]? = some n.client := hc ▸ owner_of_task? hown htask
  have hfind : (n.tasks r.tasks).find? (·.socket = n.socket s) =
      (r.tasks.find? (·.socket = s)).map n.task := by
    apply find?_tasks
    intro t' ht'
    simp only [task, decide_eq_true_eq]
    constructor
    · rintro rfl
      exact ⟨Option.some.inj ((owner_of_task hown ht').symm.trans hs), decide_eq_true rfl⟩
    · rintro ⟨hc', heq⟩
      exact (socket_iff hown hrank hs t' ht' hc').mp (of_decide_eq_true heq)
  have htask' : r.tasks.find? (·.socket = s) = some t := htask
  rw [htask'] at hfind
  exact hfind

theorem relay_setPhase {phase : ReplyPhase}
    (h : ∀ t ∈ r.tasks, t.client = n.client → (n.socket t.socket = n.socket s ↔ t.socket = s)) :
    n.relay (r.setPhase s phase) = (n.relay r).setPhase (n.socket s) phase := by
  have htasks : n.tasks (r.setPhase s phase).tasks =
      ((n.relay r).setPhase (n.socket s) phase).tasks := by
    refine tasks_map ?_ ?_
    · intro t _
      split <;> rfl
    · intro t ht hc
      by_cases hs : t.socket = s <;> simp [task, hs, h t ht hc]
  simp only [relay, htasks]
  rfl

theorem relay_setPhase_of_ne {phase : ReplyPhase}
    (h : ∀ t ∈ r.tasks, t.client = n.client → t.socket ≠ s) :
    n.relay (r.setPhase s phase) = n.relay r := by
  have htasks : n.tasks (r.setPhase s phase).tasks = (n.tasks r.tasks).map id := by
    refine tasks_map ?_ ?_
    · intro t _
      split <;> rfl
    · intro t ht hc
      rw [if_neg (h t ht hc)]
      rfl
  simp only [relay, htasks, List.map_id]
  rfl

theorem relay_endTask
    (h : ∀ t ∈ r.tasks, t.client = n.client → (n.socket t.socket = n.socket s ↔ t.socket = s)) :
    n.relay (r.endTask s) = (n.relay r).endTask (n.socket s) := by
  have htasks : n.tasks (r.endTask s).tasks = ((n.relay r).endTask (n.socket s)).tasks := by
    apply tasks_filter
    intro t ht hc
    simp [task, h t ht hc]
  simp only [relay, htasks]
  rfl

theorem relay_endTask_of_ne (h : ∀ t ∈ r.tasks, t.client = n.client → t.socket ≠ s) :
    n.relay (r.endTask s) = n.relay r := by
  have htasks : n.tasks (r.endTask s).tasks = (n.tasks r.tasks).filter fun _ => true := by
    apply tasks_filter
    intro t ht hc
    simpa using h t ht hc
  simp only [relay, htasks, List.filter_true]
  rfl

theorem relay_cancelTasks {sockets sockets' : List Nat}
    (h : ∀ t ∈ r.tasks, t.client = n.client →
      (t.socket ∈ sockets ↔ n.socket t.socket ∈ sockets')) :
    n.relay (r.cancelTasks sockets) = (n.relay r).cancelTasks sockets' := by
  have htasks : n.tasks (r.cancelTasks sockets).tasks =
      ((n.relay r).cancelTasks sockets').tasks := by
    refine tasks_map ?_ ?_
    · intro t _
      split <;> rfl
    · intro t ht hc
      by_cases hs : t.socket ∈ sockets
      · simp [task, hs, (h t ht hc).mp hs]
      · simp [task, hs, mt (h t ht hc).mpr hs]
  simp only [relay, htasks]
  rfl

/-- A socket of a task is among those of some flows if it is for the client alone. -/
theorem socket_mem_iff (hown : r.OwnedBy owners) (hrank : n.Ranks owners) (flows : FlowTable)
    (hsub : ∀ e ∈ flows, e ∈ r.table) :
    ∀ t ∈ r.tasks, t.client = n.client →
      (t.socket ∈ flows.sockets ↔ n.socket t.socket ∈ (n.table flows).sockets) := by
  intro t ht hc
  have hs : owners[t.socket]? = some n.client := hc ▸ owner_of_task hown ht
  constructor
  · intro hmem
    obtain ⟨⟨client, f⟩, hf, heq⟩ := List.mem_map.mp hmem
    have hclient : owners[t.socket]? = some client := by
      rw [← heq]
      exact owner_of_flow hown (hsub _ hf)
    obtain rfl : n.client = client := Option.some.inj (hs.symm.trans hclient)
    exact List.mem_map.mpr ⟨(n.address, n.flow f), mem_table.mpr ⟨f, hf, rfl⟩, by
      rw [← heq]
      rfl⟩
  · intro hmem
    obtain ⟨e, he, heq⟩ := List.mem_map.mp hmem
    obtain ⟨f, hf, rfl⟩ := mem_table.mp he
    exact List.mem_map.mpr ⟨(n.client, f), hf,
      hrank.inj (owner_of_flow hown (hsub _ hf)) hs heq⟩

end Relay

end Naming

end PortForward

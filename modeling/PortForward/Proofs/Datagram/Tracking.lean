import PortForward.Proofs.Datagram.Ownership
import PortForward.Proofs.Datagram.Passage
import PortForward.Proofs.Datagram.Quiet

/-!
# The table agrees with the tasks

A flow is entered together with its task, and leaves the table in one of three ways: a sweep
removes it and cancels the task, the task removes it and ends, or the loop ends and cancels
all. In between the table and the tasks that are not cancelled tie the same clients to the
same sockets; tasks that were cancelled may linger until they have passed on what they hold.
Once the proxy has nothing left to do they are gone too.
-/

namespace PortForward.DatagramRelay

/-- The table and the tasks belong together. -/
structure Tracks (closed : Bool) (r : DatagramRelay) : Prop where
  clients_nodup : (r.table.ties.map Prod.fst).Nodup
  sockets_nodup : (r.table.ties.map Prod.snd).Nodup
  tasks_nodup : (r.taskTies.map Prod.snd).Nodup
  flow_lt : ∀ x ∈ r.table.ties, x.2 < r.opened
  task_lt : ∀ x ∈ r.taskTies, x.2 < r.opened
  flow_of_live : ∀ x ∈ r.liveTies, x ∈ r.table.ties
  live_of_flow : closed = false → ∀ x ∈ r.table.ties, x ∈ r.liveTies
  empty_of_idle : r.loop = .idle → r.table.ties = [] ∧ r.taskTies = []
  empty_of_ended : r.loop = .ended → r.table.ties = []

namespace Tracks

variable {closed : Bool} {r r' : DatagramRelay} {event : Event} {turn : Turn DatagramRelay}

theorem fresh {backend : SocketAddress} {level : Level} {timeout : Nat} :
    Tracks false (.fresh backend level timeout) := by
  constructor <;> simp [DatagramRelay.fresh, idle, FlowTable.ties, taskTies, liveTies]

theorem close (h : Tracks closed r) : Tracks true r :=
  { h with live_of_flow := by intro hfalse; cases hfalse }

/-- Only the ties count, and how many sockets were opened. -/
theorem of_eq (h : Tracks closed r) (hflows : r'.table.ties = r.table.ties)
    (htasks : r'.taskTies = r.taskTies) (hlive : r'.liveTies = r.liveTies)
    (hopened : r.opened ≤ r'.opened) (hidle : r'.loop = .idle → r.loop = .idle)
    (hended : r'.loop = .ended → r.loop = .ended) : Tracks closed r' := by
  constructor
  · rw [hflows]; exact h.clients_nodup
  · rw [hflows]; exact h.sockets_nodup
  · rw [htasks]; exact h.tasks_nodup
  · rw [hflows]; exact fun x hx => Nat.lt_of_lt_of_le (h.flow_lt x hx) hopened
  · rw [htasks]; exact fun x hx => Nat.lt_of_lt_of_le (h.task_lt x hx) hopened
  · rw [hflows, hlive]; exact h.flow_of_live
  · rw [hflows, hlive]; exact h.live_of_flow
  · rw [hflows, htasks]; exact fun hl => h.empty_of_idle (hidle hl)
  · rw [hflows]; exact fun hl => h.empty_of_ended (hended hl)

theorem eq_of_socket (h : Tracks closed r) {x y : SocketAddress × Nat} (hx : x ∈ r.taskTies)
    (hy : y ∈ r.taskTies) (heq : x.2 = y.2) : x = y :=
  List.inj_on_of_nodup_map h.tasks_nodup hx hy heq

theorem socket_of_client (h : Tracks closed r) {client : SocketAddress} {s s' : Nat}
    (hs : (client, s) ∈ r.table.ties) (hs' : (client, s') ∈ r.table.ties) : s = s' :=
  congrArg Prod.snd (List.inj_on_of_nodup_map h.clients_nodup hs hs' rfl)

theorem task_eq_of_socket (h : Tracks closed r) {t t' : ReplyTask} (ht : t ∈ r.tasks)
    (ht' : t' ∈ r.tasks) (heq : t.socket = t'.socket) : t = t' := by
  have hnodup := h.tasks_nodup
  rw [taskTies, List.map_map] at hnodup
  exact List.inj_on_of_nodup_map hnodup ht ht' heq

theorem sweepNow (h : Tracks closed r) (hloop : r.loop = .waiting) :
    Tracks closed r.sweepNow.next := by
  have hties : r.sweepNow.next.table.ties =
      r.table.ties.filter (·.2 ∉ (r.table.expired r.timeout r.now).sockets) :=
    r.table.kept_ties h.sockets_nodup
  have hlive : r.sweepNow.next.liveTies =
      r.liveTies.filter (·.2 ∉ (r.table.expired r.timeout r.now).sockets) :=
    cancelTasks_liveTies _ _
  have htasks : r.sweepNow.next.taskTies = r.taskTies := cancelTasks_taskTies _ _
  constructor
  · rw [hties]; exact h.clients_nodup.sublist (List.filter_sublist.map _)
  · rw [hties]; exact h.sockets_nodup.sublist (List.filter_sublist.map _)
  · rw [htasks]; exact h.tasks_nodup
  · rw [hties]; exact fun x hx => h.flow_lt x (List.mem_of_mem_filter hx)
  · rw [htasks]; exact h.task_lt
  · rw [hties, hlive]
    intro x hx
    obtain ⟨hx, hspared⟩ := List.mem_filter.mp hx
    exact List.mem_filter.mpr ⟨h.flow_of_live x hx, hspared⟩
  · rw [hties, hlive]
    intro hopen x hx
    obtain ⟨hx, hspared⟩ := List.mem_filter.mp hx
    exact List.mem_filter.mpr ⟨h.live_of_flow hopen x hx, hspared⟩
  · intro hl
    cases hloop.symm.trans hl
  · intro hl
    cases hloop.symm.trans hl

theorem addFlow (h : Tracks closed r) {client : SocketAddress} (payload : Bytes)
    (hnew : r.table.find? client = none) : Tracks closed (r.addFlow client payload) := by
  have hties : (r.addFlow client payload).table.ties = r.table.ties ++ [(client, r.opened)] :=
    FlowTable.add_ties _ _ _
  have htasks : (r.addFlow client payload).taskTies = r.taskTies ++ [(client, r.opened)] := by
    simp [DatagramRelay.addFlow, taskTies, ReplyTask.tie]
  have hlive : (r.addFlow client payload).liveTies = r.liveTies ++ [(client, r.opened)] := by
    simp [DatagramRelay.addFlow, liveTies, ReplyTask.tie]
  have hflowNew : r.opened ∉ r.table.ties.map Prod.snd := by
    intro hmem
    obtain ⟨x, hx, hs⟩ := List.mem_map.mp hmem
    exact absurd (h.flow_lt x hx) (by omega)
  have htaskNew : r.opened ∉ r.taskTies.map Prod.snd := by
    intro hmem
    obtain ⟨x, hx, hs⟩ := List.mem_map.mp hmem
    exact absurd (h.task_lt x hx) (by omega)
  have hopened : (r.addFlow client payload).opened = r.opened + 1 := rfl
  constructor
  · rw [hties]; exact nodup_map_snoc h.clients_nodup (r.table.find?_eq_none.mp hnew)
  · rw [hties]; exact nodup_map_snoc h.sockets_nodup hflowNew
  · rw [htasks]; exact nodup_map_snoc h.tasks_nodup htaskNew
  · rw [hties, hopened]
    intro x hx
    rcases List.mem_append.mp hx with hx | hx
    · exact Nat.lt_succ_of_lt (h.flow_lt x hx)
    · cases List.mem_singleton.mp hx
      exact Nat.lt_succ_self _
  · rw [htasks, hopened]
    intro x hx
    rcases List.mem_append.mp hx with hx | hx
    · exact Nat.lt_succ_of_lt (h.task_lt x hx)
    · cases List.mem_singleton.mp hx
      exact Nat.lt_succ_self _
  · rw [hties, hlive]
    intro x hx
    rcases List.mem_append.mp hx with hx | hx
    · exact List.mem_append_left _ (h.flow_of_live x hx)
    · exact List.mem_append_right _ hx
  · rw [hties, hlive]
    intro hopen x hx
    rcases List.mem_append.mp hx with hx | hx
    · exact List.mem_append_left _ (h.live_of_flow hopen x hx)
    · exact List.mem_append_right _ hx
  · intro hl
    cases hl
  · intro hl
    cases hl

/-- The end of the loop cancels every task that was not cancelled before. -/
theorem drain (h : Tracks closed r) :
    Tracks closed ({ r with loop := .ended, table := [] }.cancelTasks r.table.sockets) := by
  have hlive : ({ r with loop := .ended, table := [] }.cancelTasks r.table.sockets).liveTies =
      r.liveTies.filter (·.2 ∉ r.table.sockets) := cancelTasks_liveTies _ _
  have hnone : r.liveTies.filter (·.2 ∉ r.table.sockets) = [] := by
    apply List.filter_eq_nil_iff.mpr
    intro x hx
    have hmem : x.2 ∈ r.table.sockets := by
      rw [r.table.sockets_eq]
      exact List.mem_map_of_mem (h.flow_of_live x hx)
    simpa using hmem
  have htasks : ({ r with loop := .ended, table := [] }.cancelTasks r.table.sockets).taskTies =
      r.taskTies := cancelTasks_taskTies _ _
  constructor
  · exact List.nodup_nil
  · exact List.nodup_nil
  · rw [htasks]; exact h.tasks_nodup
  · intro x hx
    cases hx
  · rw [htasks]; exact h.task_lt
  · rw [hlive, hnone]
    intro x hx
    cases hx
  · intro _ x hx
    cases hx
  · intro hl
    cases hl
  · exact fun _ => rfl

/-- A task that was cancelled, or that sees the proxy closed, may end on its own. -/
theorem endTask (h : Tracks closed r) {t : ReplyTask} (ht : t ∈ r.tasks)
    (hend : t.cancelled ∨ closed) : Tracks closed (r.endTask t.socket) := by
  constructor
  · exact h.clients_nodup
  · exact h.sockets_nodup
  · rw [endTask_taskTies]; exact h.tasks_nodup.sublist (List.filter_sublist.map _)
  · exact h.flow_lt
  · rw [endTask_taskTies]; exact fun x hx => h.task_lt x (List.mem_of_mem_filter hx)
  · rw [endTask_liveTies]; exact fun x hx => h.flow_of_live x (List.mem_of_mem_filter hx)
  · rw [endTask_liveTies]
    intro hopen x hx
    have hlive := h.live_of_flow hopen x hx
    refine List.mem_filter.mpr ⟨hlive, ?_⟩
    obtain ⟨t', ht', hrunning, rfl⟩ := r.mem_liveTies.mp hlive
    have hne : t'.tie.2 ≠ t.socket := by
      intro heq
      cases h.task_eq_of_socket ht' ht heq
      simp [hrunning, hopen] at hend
    simpa using hne
  · rw [endTask_taskTies]
    intro hl
    obtain ⟨hflows, htasks⟩ := h.empty_of_idle hl
    exact ⟨hflows, by rw [htasks]; rfl⟩
  · exact h.empty_of_ended

/-- A task whose socket has failed ends and takes its own entry with it, and no other. -/
theorem forget (h : Tracks closed r) {t : ReplyTask} (ht : t ∈ r.tasks) :
    Tracks closed
      ({ r with table := r.table.forget t.client t.socket }.endTask t.socket) := by
  have hties : ({ r with table := r.table.forget t.client t.socket }.endTask
      t.socket).table.ties = r.table.ties.filter (· ≠ t.tie) := FlowTable.forget_ties _ _ _
  have htasks : ({ r with table := r.table.forget t.client t.socket }.endTask
      t.socket).taskTies = r.taskTies.filter (·.2 ≠ t.socket) := endTask_taskTies _ _
  have hlive : ({ r with table := r.table.forget t.client t.socket }.endTask
      t.socket).liveTies = r.liveTies.filter (·.2 ≠ t.socket) := endTask_liveTies _ _
  have htie : t.tie ∈ r.taskTies := r.mem_taskTies.mpr ⟨t, ht, rfl⟩
  constructor
  · rw [hties]; exact h.clients_nodup.sublist (List.filter_sublist.map _)
  · rw [hties]; exact h.sockets_nodup.sublist (List.filter_sublist.map _)
  · rw [htasks]; exact h.tasks_nodup.sublist (List.filter_sublist.map _)
  · rw [hties]; exact fun x hx => h.flow_lt x (List.mem_of_mem_filter hx)
  · rw [htasks]; exact fun x hx => h.task_lt x (List.mem_of_mem_filter hx)
  · rw [hties, hlive]
    intro x hx
    obtain ⟨hx, hne⟩ := List.mem_filter.mp hx
    refine List.mem_filter.mpr ⟨h.flow_of_live x hx, ?_⟩
    have hne : x.2 ≠ t.socket := by simpa using hne
    have : x ≠ t.tie := fun heq => hne (congrArg Prod.snd heq)
    simpa using this
  · rw [hties, hlive]
    intro hopen x hx
    obtain ⟨hx, hne⟩ := List.mem_filter.mp hx
    have hmem := h.live_of_flow hopen x hx
    refine List.mem_filter.mpr ⟨hmem, ?_⟩
    have hne : x ≠ t.tie := by simpa using hne
    have : x.2 ≠ t.socket := fun heq => hne (h.eq_of_socket (r.taskTies_of_live hmem) htie heq)
    simpa using this
  · rw [hties, htasks]
    intro hl
    rw [(h.empty_of_idle hl).2] at htie
    cases htie
  · rw [hties]
    intro hl
    rw [h.empty_of_ended hl]
    rfl

theorem transition (h : Tracks closed r) (ht : Transition closed r event turn) :
    Tracks closed turn.next := by
  cases ht with
  | advance => exact h.of_eq rfl rfl rfl (Nat.le_refl _) id id
  | sweep hloop _ => exact h.sweepNow hloop
  | opened _ hnew _ _ => exact h.addFlow _ hnew
  | drained _ => exact h.drain
  | forgot htask _ =>
    obtain ⟨hmem, rfl⟩ := mem_of_task? htask
    exact h.forget hmem
  | replyStopped htask _ hend =>
    obtain ⟨hmem, rfl⟩ := mem_of_task? htask
    exact h.endTask hmem hend
  | unnamed => exact h.of_eq rfl rfl rfl (Nat.le_succ _) (by simp [giveUp]) (by simp [giveUp])
  | found =>
    exact h.of_eq (FlowTable.touch_ties _ _ _) rfl rfl (Nat.le_refl _) (by simp) (by simp)
  | refreshed =>
    exact h.of_eq (FlowTable.touch_ties _ _ _) (setPhase_taskTies _ _ _) (setPhase_liveTies _ _ _)
      (Nat.le_refl _) id id
  | replyReceived | replyBroken | replied | replyFailed =>
    exact h.of_eq rfl (setPhase_taskTies _ _ _) (setPhase_liveTies _ _ _) (Nat.le_refl _) id id
  | replyRefused => exact h
  | _ => exact h.of_eq rfl rfl rfl (Nat.le_refl _) (by simp [giveUp]) (by simp [giveUp])

theorem passage {closed' : Bool} {event : Proxy.Event} {effects : List Effect}
    (h : Tracks closed r) (hp : Passage r closed event effects closed' r') : Tracks closed' r' := by
  cases hp with
  | refused => exact h
  | started =>
    exact h.of_eq rfl rfl rfl (Nat.le_refl _) (by simp [start]) (by simp [start])
  | closed => exact h.close
  | moved ht _ => exact h.transition ht
  | finished ht _ => exact (h.transition ht).close

end Tracks

theorem tracks_of_history {frontend : Address} {backend : SocketAddress} {level : Level}
    {timeout : Nat} {past : List (Moment DatagramRelay)} {p : Proxy} {r : DatagramRelay}
    (h : History .datagram (.ofDatagrams frontend backend level timeout) past p r) :
    Tracks p.isClosed r ∧ p.InPhase r :=
  h.datagram_induction (motive := fun _ closed r => Tracks closed r) .fresh fun h => h.passage

/-- The entries of the table, the reply tasks and the open backend sockets are in one-to-one
correspondence. -/
structure OneToOne (r : DatagramRelay) : Prop where
  clients_nodup : (r.table.map Prod.fst).Nodup
  sockets_nodup : r.table.sockets.Nodup
  /-- exactly one task uses the socket of an entry; it is live, and its client is the entry's -/
  task_of_entry : ∀ client flow, (client, flow) ∈ r.table →
    r.tasks.filter (·.socket = flow.socket) = [⟨flow.socket, client, false, .receiving⟩]
  entry_of_task : ∀ t ∈ r.tasks, ∃ flow, (t.client, flow) ∈ r.table ∧ flow.socket = t.socket
  open_iff_entry : ∀ socket, r.isOpen socket ↔ socket ∈ r.table.sockets

theorem filter_eq_singleton_of_nodup {α β : Type} [DecidableEq β] {f : α → β} {l : List α} {a : α}
    (h : (l.map f).Nodup) (ha : a ∈ l) : l.filter (fun x => f x = f a) = [a] := by
  induction l with
  | nil => cases ha
  | cons b l ih =>
    obtain ⟨hb, hl⟩ := List.nodup_cons.mp h
    rcases List.mem_cons.mp ha with rfl | ha
    · rw [List.filter_cons_of_pos (by simp), List.filter_eq_nil_iff.mpr]
      intro c hc
      have : f c ≠ f a := fun heq => hb (List.mem_map.mpr ⟨c, hc, heq⟩)
      simpa using this
    · have hne : f b ≠ f a := fun heq => hb (List.mem_map.mpr ⟨a, ha, heq.symm⟩)
      rw [List.filter_cons_of_neg (by simpa using hne), ih hl ha]

section Quiet

variable {closed : Bool} {r : DatagramRelay}

theorem Tracks.task?_of_mem (h : Tracks closed r) {t : ReplyTask} (ht : t ∈ r.tasks) :
    r.task? t.socket = some t := by
  cases hfind : r.task? t.socket with
  | none =>
    have := List.find?_eq_none.mp hfind t ht
    simp at this
  | some t' =>
    obtain ⟨ht', hsocket⟩ := mem_of_task? hfind
    rw [h.task_eq_of_socket ht' ht hsocket]

theorem Tracks.live_of_quiet (h : Tracks closed r) (hquiet : r.IsQuiet closed) {t : ReplyTask}
    (ht : t ∈ r.tasks) : t.phase = .receiving ∧ t.cancelled = false ∧ closed = false :=
  hquiet.task_eq (h.task?_of_mem ht)

theorem Tracks.tasks_eq_nil_of_table (h : Tracks closed r) (hquiet : r.IsQuiet closed)
    (hempty : r.table.ties = []) : r.tasks = [] := by
  cases htasks : r.tasks with
  | nil => rfl
  | cons t tasks =>
    have ht : t ∈ r.tasks := by simp [htasks]
    obtain ⟨-, hlive, -⟩ := h.live_of_quiet hquiet ht
    have htie := h.flow_of_live t.tie (r.mem_liveTies.mpr ⟨t, ht, hlive, rfl⟩)
    rw [hempty] at htie
    cases htie

theorem isOpen_of_quiet (hquiet : r.IsQuiet closed) (socket : Nat) :
    r.isOpen socket ↔ socket ∈ r.table.sockets ∨ socket ∈ r.tasks.map (·.socket) := by
  have hloop : r.loop.socket? = none := by
    rcases hquiet.loop_eq with hl | hl | ⟨hl, -⟩ <;> rw [hl] <;> rfl
  simp [isOpen, hloop]

theorem Tracks.oneToOne (h : Tracks closed r) (hquiet : r.IsQuiet closed) : r.OneToOne := by
  have hentry : ∀ t ∈ r.tasks, t.tie ∈ r.table.ties := by
    intro t ht
    obtain ⟨-, hlive, -⟩ := h.live_of_quiet hquiet ht
    exact h.flow_of_live t.tie (r.mem_liveTies.mpr ⟨t, ht, hlive, rfl⟩)
  have htask : ∀ x ∈ r.table.ties, ∃ t ∈ r.tasks, t.cancelled = false ∧ t.tie = x := by
    intro x hx
    have hopen : closed = false := by
      rcases hquiet.loop_eq with hl | hl | ⟨-, hopen, -⟩
      · rw [(h.empty_of_idle hl).1] at hx
        cases hx
      · rw [h.empty_of_ended hl] at hx
        cases hx
      · exact hopen
    exact r.mem_liveTies.mp (h.live_of_flow hopen x hx)
  refine ⟨?_, ?_, ?_, ?_, ?_⟩
  · have hclients := h.clients_nodup
    rwa [FlowTable.ties, List.map_map] at hclients
  · rw [r.table.sockets_eq]
    exact h.sockets_nodup
  · intro client flow hmem
    obtain ⟨t, ht, hlive, htie⟩ := htask _ (r.table.mem_ties.mpr ⟨flow, hmem, rfl⟩)
    obtain ⟨hclient, hsocket⟩ := Prod.mk.inj htie
    have hnodup : (r.tasks.map (·.socket)).Nodup := by
      simpa [taskTies, Function.comp_def, ReplyTask.tie] using h.tasks_nodup
    rw [← hsocket, filter_eq_singleton_of_nodup hnodup ht, ← hclient, ← hlive,
      ← (h.live_of_quiet hquiet ht).1]
  · intro t ht
    exact r.table.mem_ties.mp (hentry t ht)
  · intro socket
    rw [isOpen_of_quiet hquiet]
    constructor
    · rintro (hs | hs)
      · exact hs
      · obtain ⟨t, ht, rfl⟩ := List.mem_map.mp hs
        rw [r.table.sockets_eq]
        exact List.mem_map_of_mem (hentry t ht)
    · exact .inl

end Quiet

/-- Whenever a datagram proxy has nothing left to do, whatever happened to it, its table, its
tasks and its sockets correspond; and once no run is going on they are all gone. -/
theorem oneToOne_of_runAll {frontend : Address} {backend : SocketAddress} {level : Level}
    {timeout : Nat} {events : List Proxy.Event} {effects : List Effect} {p : Proxy}
    {r : DatagramRelay}
    (hrun : (Proxy.ofDatagrams frontend backend level timeout).runAll events = some (p, effects))
    (hr : p.service = .datagram r) (hquiet : r.IsQuiet p.isClosed) :
    r.OneToOne ∧
      (.running ∉ p.runs → r.table = [] ∧ r.tasks = [] ∧ ∀ socket, r.isOpen socket = false) := by
  obtain ⟨past, s, hist, -, -⟩ := exists_history Service.isKind_datagram rfl hrun
  cases hist.service_eq.symm.trans hr
  obtain ⟨htracks, hphase⟩ := tracks_of_history hist
  refine ⟨htracks.oneToOne hquiet, ?_⟩
  intro hnone
  have hties : r.table.ties = [] := by
    rcases hquiet.loop_eq with hl | hl | ⟨hl, -⟩
    · exact (htracks.empty_of_idle hl).1
    · exact htracks.empty_of_ended hl
    · exact absurd (hphase.running_iff.mpr (by simp [hl])) hnone
  have htable : r.table = [] := List.map_eq_nil_iff.mp hties
  have htasks := htracks.tasks_eq_nil_of_table hquiet hties
  refine ⟨htable, htasks, ?_⟩
  intro socket
  rw [Bool.eq_false_iff]
  intro hopen
  rcases (isOpen_of_quiet hquiet socket).mp hopen with hs | hs
  · simp [htable, FlowTable.sockets] at hs
  · simp [htasks] at hs

/-- Two clients have sent a datagram each, and the flow of the first one has expired. -/
theorem oneToOne_after_expiry :
    let first : SocketAddress := .v4 .loopback 5001
    let second : SocketAddress := .v4 .loopback 5002
    let opening : Opening := ⟨.ok (), .ok (.v4 .loopback 6000)⟩
    let timeout : Nat := Duration.second
    let events : List Event :=
      [.sweep, .receive (.ok (first, [1])), .lookUp opening, .send (.ok ()), .advance timeout,
        .receive (.ok (second, [2])), .lookUp opening, .send (.ok ()), .advance timeout, .sweep,
        .replyStop 0]
    let r : DatagramRelay :=
      { DatagramRelay.fresh (.v4 .loopback 5353) .info timeout with
        now := 2 * timeout
        nextSweep := 3 * timeout
        loop := .waiting
        table := [(second, ⟨1, timeout⟩)]
        tasks := [⟨1, second, false, .receiving⟩]
        opened := 2 }
    let p : Proxy := ⟨.datagram (.v4 .loopback 53), ⟨none, false⟩, [.running], .datagram r⟩
    let made := Proxy.ofDatagrams (.datagram (.v4 .loopback 53)) (.v4 .loopback 5353) .info timeout
    (∃ effects,
      made.runAll (.run :: ofRelay events) = some (p, effects)) ∧
      r.IsQuiet p.isClosed ∧ r.OneToOne ∧
      (.running ∉ p.runs → r.table = [] ∧ r.tasks = [] ∧ ∀ socket, r.isOpen socket = false) := by
  intro first second opening timeout events r p made
  have hquiet : r.IsQuiet p.isClosed := isQuiet_of (by decide) (by decide)
  have hfinal : (made.runAll (.run :: ofRelay events)).map Prod.fst =
      some p := by decide +kernel
  obtain ⟨⟨q, effects⟩, hrun, rfl⟩ := Option.map_eq_some_iff.mp hfinal
  exact ⟨⟨effects, hrun⟩, hquiet, oneToOne_of_runAll hrun rfl hquiet⟩

end PortForward.DatagramRelay

import PortForward.Proofs.Datagram.Tracking

/-!
# Openings

A socket is opened for one client, once, and whoever holds it later holds it for this
client: the table, the reply task, and the loop while it sends. Numbers are given out in
order, so the openings of a run are the whole history of who owns what.
-/

namespace PortForward

open DatagramRelay

def LoopPhase.client? : LoopPhase → Option SocketAddress
  | looking client _ | sending client .. => some client
  | _ => none

/-- The flows that a step enters into the table. -/
def Moment.openings (m : Moment DatagramRelay) : List (SocketAddress × Nat) :=
  m.after.table.ties.filter (· ∉ m.before.table.ties)

/-- The client for which a step takes a number for a socket, if it does, whether or not the
socket comes into use. -/
def Moment.owners (m : Moment DatagramRelay) : List SocketAddress :=
  if m.after.opened = m.before.opened then [] else m.before.loop.client?.toList

namespace DatagramRelay

def loopTies (r : DatagramRelay) : List (SocketAddress × Nat) :=
  match r.loop with
  | .sending client _ socket _ => [(client, socket)]
  | _ => []

def heldTies (r : DatagramRelay) : List (SocketAddress × Nat) :=
  r.table.ties ++ r.taskTies ++ r.loopTies

variable {closed closed' : Bool} {r r' : DatagramRelay} {turn : Turn DatagramRelay}

theorem mem_heldTies {x : SocketAddress × Nat} :
    x ∈ r.heldTies ↔ x ∈ r.table.ties ∨ x ∈ r.taskTies ∨ x ∈ r.loopTies := by
  simp [heldTies]

theorem loopTies_congr (h : r'.loop = r.loop) : r'.loopTies = r.loopTies := by
  simp only [loopTies, h]

theorem mem_loopTies {client : SocketAddress} {payload : Bytes} {socket : Nat} {retried : Bool}
    (h : r.loop = .sending client payload socket retried) : (client, socket) ∈ r.loopTies := by
  simp [loopTies, h]

/-- The ties of the table and of the tasks only shrink, and the loop takes its own from the
table. -/
structure Passes (r r' : DatagramRelay) : Prop where
  flows : r'.table.ties ⊆ r.table.ties
  tasks : r'.taskTies ⊆ r.taskTies
  loop : ∀ x ∈ r'.loopTies, x ∈ r.table.ties ∨ x ∈ r.loopTies
  opened : r'.opened = r.opened ∨ (r'.opened = r.opened + 1 ∧ r.loop.client?.isSome)

theorem Passes.of_loop_eq (hflows : r'.table.ties ⊆ r.table.ties)
    (htasks : r'.taskTies ⊆ r.taskTies) (hloop : r'.loop = r.loop)
    (hopened : r'.opened = r.opened) : Passes r r' := by
  refine ⟨hflows, htasks, ?_, .inl hopened⟩
  rw [loopTies_congr hloop]
  exact fun x hx => .inr hx

theorem Passes.of_loop_idle (hflows : r'.table.ties ⊆ r.table.ties)
    (htasks : r'.taskTies ⊆ r.taskTies) (hloop : r'.loopTies = [])
    (hopened : r'.opened = r.opened ∨ (r'.opened = r.opened + 1 ∧ r.loop.client?.isSome)) :
    Passes r r' := by
  refine ⟨hflows, htasks, ?_, hopened⟩
  rw [hloop]
  exact fun x hx => absurd hx List.not_mem_nil

theorem Passes.le (h : Passes r r') : r.opened ≤ r'.opened := by
  rcases h.opened with heq | ⟨heq, -⟩ <;> omega

theorem Passes.held (h : Passes r r') : r'.heldTies ⊆ r.heldTies := by
  intro x hx
  rcases mem_heldTies.mp hx with hx | hx | hx
  · exact mem_heldTies.mpr (.inl (h.flows hx))
  · exact mem_heldTies.mpr (.inr (.inl (h.tasks hx)))
  · rcases h.loop x hx with hx | hx
    · exact mem_heldTies.mpr (.inl hx)
    · exact mem_heldTies.mpr (.inr (.inr hx))

theorem Passes.openings (h : Passes r r') (event : Proxy.Event) (effects : List Effect) :
    Moment.openings ⟨closed, r, event, effects, r'⟩ = [] := by
  apply List.filter_eq_nil_iff.mpr
  intro x hx
  simpa using h.flows hx

theorem kept_ties_subset (t : FlowTable) (timeout now : Nat) :
    (t.kept timeout now).ties ⊆ t.ties :=
  (List.filter_sublist.map _).subset

/-- A step passes the ties on, or opens one flow on the next socket. -/
theorem passes_or_opens {event : Event} (h : Transition closed r event turn) :
    Passes r turn.next ∨
      ∃ client payload, r.loop = .looking client payload ∧ r.table.find? client = none ∧
        turn.next = r.addFlow client payload := by
  cases h with
  | @opened client payload _ _ hloop hnew _ _ => exact .inr ⟨client, payload, hloop, hnew, rfl⟩
  | advance => exact .inl (.of_loop_eq (fun _ hx => hx) (fun _ hx => hx) rfl rfl)
  | sweep =>
    refine .inl (.of_loop_eq (kept_ties_subset _ _ _) ?_ rfl rfl)
    exact fun x hx => by rwa [sweepNow, Turn.on_next, cancelTasks_taskTies] at hx
  | @found client payload flow opening hloop hflow =>
    refine .inl ⟨?_, fun _ hx => hx, ?_, .inl rfl⟩
    · exact fun x hx => by rwa [Turn.on_next, FlowTable.touch_ties] at hx
    · intro x hx
      simp only [loopTies, Turn.on_next, List.mem_singleton] at hx
      subst hx
      exact .inl (FlowTable.tie_of_find? hflow)
  | unopened | sendFailed | received | receiveFailed | stopped | sent =>
    exact .inl (.of_loop_idle (fun _ hx => hx) (fun _ hx => hx) rfl (.inl rfl))
  | unnamed hloop =>
    refine .inl (.of_loop_idle (fun _ hx => hx) (fun _ hx => hx) rfl (.inr ⟨rfl, ?_⟩))
    rw [hloop]
    rfl
  | refusedOnce hloop =>
    refine .inl ⟨fun _ hx => hx, fun _ hx => hx, ?_, .inl rfl⟩
    intro x hx
    simp only [loopTies, Turn.on_next, List.mem_singleton] at hx
    subst hx
    exact .inr (mem_loopTies hloop)
  | drained =>
    refine .inl (.of_loop_idle (List.nil_subset _) ?_ rfl (.inl rfl))
    exact fun x hx => by rwa [cancelTasks_taskTies] at hx
  | replyReceived | replyBroken | replied | replyFailed =>
    refine .inl (.of_loop_eq (fun _ hx => hx) ?_ rfl rfl)
    exact fun x hx => by rwa [Turn.on_next, setPhase_taskTies] at hx
  | replyRefused => exact .inl (.of_loop_eq (fun _ hx => hx) (fun _ hx => hx) rfl rfl)
  | refreshed =>
    refine .inl (.of_loop_eq ?_ ?_ rfl rfl)
    · exact fun x hx => by rwa [Turn.on_next, setPhase_table, FlowTable.touch_ties] at hx
    · exact fun x hx => by rwa [Turn.on_next, setPhase_taskTies] at hx
  | forgot =>
    refine .inl (.of_loop_eq ?_ ?_ rfl rfl)
    · intro x hx
      rw [Turn.on_next, endTask_table, FlowTable.forget_ties] at hx
      exact List.mem_of_mem_filter hx
    · intro x hx
      rw [Turn.on_next, endTask_taskTies] at hx
      exact List.mem_of_mem_filter hx
  | replyStopped =>
    refine .inl (.of_loop_eq (fun _ hx => hx) ?_ rfl rfl)
    intro x hx
    rw [Turn.on_next, endTask_taskTies] at hx
    exact List.mem_of_mem_filter hx

theorem passage_passes_or_opens {event : Proxy.Event} {effects : List Effect}
    (h : Passage r closed event effects closed' r') :
    Passes r r' ∨
      ∃ client payload, r.loop = .looking client payload ∧ r.table.find? client = none ∧
        r' = r.addFlow client payload := by
  have hsame : ∀ r : DatagramRelay, Passes r r := fun r =>
    .of_loop_eq (fun _ hx => hx) (fun _ hx => hx) rfl rfl
  cases h with
  | refused | closed => exact .inl (hsame _)
  | started => exact .inl (.of_loop_idle (fun _ hx => hx) (fun _ hx => hx) rfl (.inl rfl))
  | moved ht _ => exact passes_or_opens ht
  | finished ht _ => exact passes_or_opens ht

theorem openings_addFlow (h : Tracks closed r) (client : SocketAddress) (payload : Bytes)
    (event : Proxy.Event) (effects : List Effect) :
    Moment.openings ⟨closed, r, event, effects, r.addFlow client payload⟩ =
      [(client, r.opened)] := by
  have hties : (r.addFlow client payload).table.ties = r.table.ties ++ [(client, r.opened)] :=
    FlowTable.add_ties _ _ _
  have hnew : (client, r.opened) ∉ r.table.ties :=
    fun hmem => absurd (h.flow_lt _ hmem) (Nat.lt_irrefl _)
  have hold : r.table.ties.filter (· ∉ r.table.ties) = [] := by
    apply List.filter_eq_nil_iff.mpr
    intro x hx
    simpa using hx
  rw [Moment.openings, hties, List.filter_append, hold]
  simpa using hnew

theorem heldTies_addFlow (client : SocketAddress) (payload : Bytes) {x : SocketAddress × Nat}
    (hx : x ∈ (r.addFlow client payload).heldTies) : x ∈ r.heldTies ∨ x = (client, r.opened) := by
  have htasks : (r.addFlow client payload).taskTies = r.taskTies ++ [(client, r.opened)] := by
    simp [addFlow, taskTies, ReplyTask.tie]
  rw [mem_heldTies, htasks] at hx
  rw [mem_heldTies]
  simp only [addFlow, FlowTable.add_ties, loopTies, List.mem_append, List.mem_singleton] at hx
  tauto

/-- All that is held was opened for its holder, and no number was given out twice. While the
loop sends for a client, the client's entry holds the same socket, or is gone. -/
structure Owned (opened : List (SocketAddress × Nat)) (r : DatagramRelay) : Prop where
  held : r.heldTies ⊆ opened
  sending : ∀ {c s s'}, (c, s) ∈ r.loopTies → (c, s') ∈ r.table.ties → s' = s
  lt_opened : ∀ x ∈ opened, x.2 < r.opened
  nodup : (opened.map Prod.snd).Nodup

theorem Owned.passage {opened : List (SocketAddress × Nat)} {event : Proxy.Event}
    {effects : List Effect} (h : Owned opened r) (ht : Tracks closed r)
    (hp : Passage r closed event effects closed' r') :
    Owned (opened ++ Moment.openings ⟨closed, r, event, effects, r'⟩) r' := by
  rcases passage_passes_or_opens hp with hpass | ⟨client, payload, -, hnew, rfl⟩
  · rw [hpass.openings, List.append_nil]
    refine ⟨fun x hx => h.held (hpass.held hx), ?_, ?_, h.nodup⟩
    · intro c s s' hloop hflow
      rcases hpass.loop _ hloop with hold | hold
      · exact ht.socket_of_client (hpass.flows hflow) hold
      · exact h.sending hold (hpass.flows hflow)
    · exact fun x hx => Nat.lt_of_lt_of_le (h.lt_opened x hx) hpass.le
  · rw [openings_addFlow ht]
    refine ⟨?_, ?_, ?_, ?_⟩
    · intro x hx
      rcases heldTies_addFlow client payload hx with hx | rfl
      · exact List.mem_append_left _ (h.held hx)
      · exact List.mem_append_right _ (List.mem_singleton_self _)
    · intro c s s' hloop hflow
      obtain ⟨rfl, rfl⟩ := Prod.mk.inj (List.mem_singleton.mp hloop)
      rw [addFlow, FlowTable.add_ties] at hflow
      rcases List.mem_append.mp hflow with hflow | hflow
      · exact absurd (List.mem_map_of_mem hflow) (r.table.find?_eq_none.mp hnew)
      · exact (Prod.mk.inj (List.mem_singleton.mp hflow)).2
    · intro x hx
      rcases List.mem_append.mp hx with hx | hx
      · exact Nat.lt_succ_of_lt (h.lt_opened x hx)
      · cases List.mem_singleton.mp hx
        exact Nat.lt_succ_self _
    · refine nodup_map_snoc h.nodup ?_
      intro hmem
      obtain ⟨x, hx, hsocket⟩ := List.mem_map.mp hmem
      exact absurd (h.lt_opened x hx) (by omega)

/-- Whoever holds a socket is the client that took its number; these are counted here also if
the socket came to nothing. -/
structure OwnedBy (owners : List SocketAddress) (r : DatagramRelay) : Prop where
  length : owners.length = r.opened
  held : ∀ x ∈ r.heldTies, owners[x.2]? = some x.1

theorem OwnedBy.passage {owners : List SocketAddress} {event : Proxy.Event}
    {effects : List Effect} (h : OwnedBy owners r)
    (hp : Passage r closed event effects closed' r') :
    OwnedBy (owners ++ Moment.owners ⟨closed, r, event, effects, r'⟩) r' := by
  have hold : ∀ {x : SocketAddress × Nat} {new : List SocketAddress}, x ∈ r.heldTies →
      (owners ++ new)[x.2]? = some x.1 := by
    intro x new hx
    have hlt : x.2 < owners.length := (List.getElem?_eq_some_iff.mp (h.held x hx)).1
    rw [List.getElem?_append_left hlt]
    exact h.held x hx
  rcases passage_passes_or_opens hp with hpass | ⟨client, payload, hloop, -, rfl⟩
  · refine ⟨?_, fun x hx => hold (hpass.held hx)⟩
    rcases hpass.opened with heq | ⟨heq, hsome⟩
    · simp [Moment.owners, heq, h.length]
    · obtain ⟨client, hclient⟩ := Option.isSome_iff_exists.mp hsome
      simp [Moment.owners, heq, hclient, h.length]
  · have howners : Moment.owners ⟨closed, r, event, effects, r.addFlow client payload⟩ =
        [client] := by
      simp [Moment.owners, addFlow, hloop, LoopPhase.client?]
    rw [howners]
    refine ⟨by simp [addFlow, h.length], ?_⟩
    intro x hx
    rcases heldTies_addFlow client payload hx with hx | rfl
    · exact hold hx
    · simp [← h.length]

theorem Owned.unique {opened : List (SocketAddress × Nat)} (h : Owned opened r)
    {client client' : SocketAddress} {socket : Nat} (hc : (client, socket) ∈ opened)
    (hc' : (client', socket) ∈ opened) : client = client' :=
  congrArg Prod.fst (List.inj_on_of_nodup_map h.nodup hc hc' rfl)

/-- An entry and a task that share a socket belong to the same client. -/
theorem Owned.client_eq {opened : List (SocketAddress × Nat)} (h : Owned opened r)
    {client : SocketAddress} {flow : Flow} (hentry : (client, flow) ∈ r.table) {t : ReplyTask}
    (ht : t ∈ r.tasks) (hsocket : flow.socket = t.socket) : client = t.client := by
  have hflow : (client, t.socket) ∈ r.heldTies :=
    mem_heldTies.mpr (.inl (r.table.mem_ties.mpr ⟨flow, hentry, hsocket⟩))
  have htask : (t.client, t.socket) ∈ r.heldTies :=
    mem_heldTies.mpr (.inr (.inl (r.mem_taskTies.mpr ⟨t, ht, rfl⟩)))
  exact h.unique (h.held hflow) (h.held htask)

end DatagramRelay

theorem ownedBy_of_history {frontend : Address} {backend : SocketAddress} {level : Level}
    {timeout : Nat} {past : List (Moment DatagramRelay)} {p : Proxy} {r : DatagramRelay}
    (h : History .datagram (.ofDatagrams frontend backend level timeout) past p r) :
    OwnedBy (past.flatMap Moment.owners) r := by
  refine (h.datagram_induction (motive := fun past _ r => OwnedBy (past.flatMap Moment.owners) r)
    ⟨rfl, nofun⟩ ?_).1
  intro past closed r event effects closed' r' howned hpass
  simpa using howned.passage hpass

/-- What holds of a fresh relay and is kept by every passage holds in all runs; a passage starts
from a relay whose table agrees with the tasks, and whose sockets have one owner each. -/
theorem History.owned_induction {frontend : Address} {backend : SocketAddress} {level : Level}
    {timeout : Nat} {motive : List (Moment DatagramRelay) → Bool → DatagramRelay → Prop}
    (fresh : motive [] false (.fresh backend level timeout))
    (passage : ∀ {past closed r event effects closed' r'}, Tracks closed r →
      Owned (past.flatMap Moment.openings) r → motive past closed r →
      Passage r closed event effects closed' r' →
      motive (past ++ [⟨closed, r, event, effects, r'⟩]) closed' r')
    {past : List (Moment DatagramRelay)} {p : Proxy} {r : DatagramRelay}
    (h : History .datagram (.ofDatagrams frontend backend level timeout) past p r) :
    motive past p.isClosed r ∧ Owned (past.flatMap Moment.openings) r := by
  have hall := h.datagram_induction
    (motive := fun past closed r =>
      Tracks closed r ∧ Owned (past.flatMap Moment.openings) r ∧ motive past closed r)
    ⟨.fresh, ⟨List.nil_subset _, nofun, nofun, List.nodup_nil⟩, fresh⟩ ?_
  · exact ⟨hall.1.2.2, hall.1.2.1⟩
  · rintro past closed r event effects closed' r' ⟨htracks, howned, hmotive⟩ hpass
    refine ⟨htracks.passage hpass, ?_, passage htracks howned hmotive hpass⟩
    simpa using howned.passage htracks hpass

theorem owned_of_history {frontend : Address} {backend : SocketAddress} {level : Level}
    {timeout : Nat} {past : List (Moment DatagramRelay)} {p : Proxy} {r : DatagramRelay}
    (h : History .datagram (.ofDatagrams frontend backend level timeout) past p r) :
    Owned (past.flatMap Moment.openings) r :=
  (h.owned_induction (motive := fun _ _ _ => True) trivial fun _ _ _ _ => trivial).2

/-- Each moment of a run is a passage, from a relay whose table agrees with its tasks. -/
theorem History.passage_of_moment {frontend : Address} {backend : SocketAddress} {level : Level}
    {timeout : Nat} {early late : List (Moment DatagramRelay)} {m : Moment DatagramRelay}
    {p : Proxy} {r : DatagramRelay}
    (h : History .datagram (.ofDatagrams frontend backend level timeout) (early ++ m :: late) p r) :
    ∃ q closed', History .datagram (.ofDatagrams frontend backend level timeout) early q m.before ∧
      Tracks m.closed m.before ∧ Passage m.before m.closed m.event m.effects closed' m.after := by
  obtain ⟨q, q', hist, hclosed, hstep, hs⟩ := h.of_moment
  obtain ⟨htracks, hphase⟩ := tracks_of_history hist
  obtain ⟨hpass, -⟩ := Proxy.passage_of_step hphase hist.service_eq hstep hs
  rw [hclosed] at htracks hpass
  exact ⟨q, q'.isClosed, hist, htracks, hpass⟩

end PortForward

import Mathlib.Data.List.Nodup
import PortForward.Relay.Datagram

/-!
# Who owns a backend socket

An entry of the table and a reply task each tie a client to a socket. Here are these ties
as plain pairs, without times and phases, and what the operations on the table and on the
tasks do to them.
-/

namespace PortForward

theorem nodup_map_snoc {α β : Type} {f : α → β} {l : List α} {a : α} (h : (l.map f).Nodup)
    (ha : f a ∉ l.map f) : ((l ++ [a]).map f).Nodup := by
  rw [List.map_append, List.map_singleton, ← List.concat_eq_append]
  exact h.concat ha

namespace FlowTable

variable (t : FlowTable)

def ties : List (SocketAddress × Nat) := t.map fun (c, f) => (c, f.socket)

theorem sockets_eq : t.sockets = t.ties.map Prod.snd := by
  simp [sockets, ties]

theorem mem_ties {c : SocketAddress} {s : Nat} :
    (c, s) ∈ t.ties ↔ ∃ f, (c, f) ∈ t ∧ f.socket = s := by
  constructor
  · intro h
    obtain ⟨⟨c', f⟩, hmem, heq⟩ := List.mem_map.mp h
    cases heq
    exact ⟨f, hmem, rfl⟩
  · rintro ⟨f, hmem, rfl⟩
    exact List.mem_map.mpr ⟨(c, f), hmem, rfl⟩

@[simp] theorem touch_ties (c : SocketAddress) (now : Nat) : (t.touch c now).ties = t.ties := by
  simp only [ties, touch, List.map_map]
  apply List.map_congr_left
  rintro ⟨c', f⟩ -
  simp only [Function.comp_apply]
  split <;> rfl

theorem mem_touch {t : FlowTable} {client c : SocketAddress} {flow : Flow} {now : Nat}
    (h : (client, flow) ∈ t.touch c now) :
    (client = c ∧ flow.lastActivity = now ∧ (client, flow.socket) ∈ t.ties) ∨
      (client ≠ c ∧ (client, flow) ∈ t) := by
  obtain ⟨⟨client', flow'⟩, hmem, heq⟩ := List.mem_map.mp h
  obtain ⟨rfl, rfl⟩ := Prod.mk.inj heq
  by_cases hclient : client' = c
  · rw [if_pos hclient]
    exact .inl ⟨hclient, rfl, t.mem_ties.mpr ⟨flow', hmem, rfl⟩⟩
  · rw [if_neg hclient]
    exact .inr ⟨hclient, hmem⟩

theorem mem_or_of_touch {t : FlowTable} {client c : SocketAddress} {flow : Flow} {now : Nat}
    (h : (client, flow) ∈ t.touch c now) : (client, flow) ∈ t ∨ flow.lastActivity = now := by
  rcases mem_touch h with ⟨-, hnow, -⟩ | ⟨-, hold⟩
  · exact .inr hnow
  · exact .inl hold

@[simp] theorem add_ties (c : SocketAddress) (f : Flow) :
    (t.add c f).ties = t.ties ++ [(c, f.socket)] := by
  simp [ties, add]

@[simp] theorem forget_ties (c : SocketAddress) (s : Nat) :
    (t.forget c s).ties = t.ties.filter (· ≠ (c, s)) := by
  simp only [ties, forget, List.filter_map]
  congr 1
  apply List.filter_congr
  rintro ⟨c', f⟩ -
  simp [Prod.ext_iff]

theorem mem_of_find? {t : FlowTable} {c : SocketAddress} {f : Flow} (h : t.find? c = some f) :
    (c, f) ∈ t := by
  obtain ⟨before, after, rfl, -⟩ := List.lookup_eq_some_iff.mp h
  simp

theorem tie_of_find? {t : FlowTable} {c : SocketAddress} {f : Flow} (h : t.find? c = some f) :
    (c, f.socket) ∈ t.ties :=
  t.mem_ties.mpr ⟨f, mem_of_find? h, rfl⟩

theorem find?_eq_none {c : SocketAddress} : t.find? c = none ↔ c ∉ t.ties.map Prod.fst := by
  simp only [find?, List.lookup_eq_none_iff, ties, List.map_map, List.mem_map, not_exists, not_and]
  constructor
  · intro h e he heq
    exact bne_iff_ne.mp (h e he) heq.symm
  · intro h e he
    exact bne_iff_ne.mpr fun heq => h e he heq.symm

theorem ne_of_find?_eq_none {t : FlowTable} {client c : SocketAddress} {flow : Flow}
    (h : t.find? c = none) (hentry : (client, flow) ∈ t) : client ≠ c := by
  rintro rfl
  refine t.find?_eq_none.mp h (List.mem_map.mpr ⟨(client, flow.socket), ?_, rfl⟩)
  exact t.mem_ties.mpr ⟨flow, hentry, rfl⟩

theorem flow_unique {t : FlowTable} {client : SocketAddress} {flow flow' : Flow}
    (hnodup : (t.ties.map Prod.fst).Nodup) (h : (client, flow) ∈ t) (h' : (client, flow') ∈ t) :
    flow = flow' := by
  rw [ties, List.map_map] at hnodup
  exact congrArg Prod.snd (List.inj_on_of_nodup_map hnodup h h' rfl)

theorem find?_of_mem {t : FlowTable} {client : SocketAddress} {flow : Flow}
    (hnodup : (t.ties.map Prod.fst).Nodup) (h : (client, flow) ∈ t) :
    t.find? client = some flow := by
  cases hfind : t.find? client with
  | none =>
    rw [find?_eq_none] at hfind
    exact absurd (List.mem_map_of_mem (t.mem_ties.mpr ⟨flow, h, rfl⟩)) hfind
  | some flow' => rw [flow_unique hnodup (mem_of_find? hfind) h]

/-- If no two flows share a socket, a sweep leaves exactly the ties whose sockets it spares. -/
theorem kept_ties {timeout now : Nat} (h : (t.ties.map Prod.snd).Nodup) :
    (t.kept timeout now).ties = t.ties.filter (·.2 ∉ (t.expired timeout now).sockets) := by
  have hinj : ∀ x ∈ t, ∀ y ∈ t, x.2.socket = y.2.socket → x = y := by
    rw [ties, List.map_map] at h
    exact fun x hx y hy => List.inj_on_of_nodup_map h hx hy
  simp only [ties, kept, List.filter_map]
  congr 1
  apply List.filter_congr
  rintro ⟨c, f⟩ hmem
  have hiff : f.socket ∈ (t.expired timeout now).sockets ↔ f.isExpired timeout now := by
    simp only [sockets, expired, List.mem_map, List.mem_filter]
    constructor
    · rintro ⟨e, ⟨he, hexp⟩, hsock⟩
      cases hinj e he (c, f) hmem hsock
      exact hexp
    · exact fun hexp => ⟨(c, f), ⟨hmem, hexp⟩, rfl⟩
  simp [hiff]

end FlowTable

def ReplyTask.tie (t : ReplyTask) : SocketAddress × Nat := (t.client, t.socket)

namespace DatagramRelay

variable (r : DatagramRelay) (socket : Nat) (phase : ReplyPhase) (sockets : List Nat)

def taskTies : List (SocketAddress × Nat) := r.tasks.map ReplyTask.tie

def liveTies : List (SocketAddress × Nat) :=
  (r.tasks.filter fun t => t.cancelled = false).map ReplyTask.tie

theorem mem_taskTies {x : SocketAddress × Nat} :
    x ∈ r.taskTies ↔ ∃ t ∈ r.tasks, t.tie = x := List.mem_map

theorem mem_liveTies {x : SocketAddress × Nat} :
    x ∈ r.liveTies ↔ ∃ t ∈ r.tasks, t.cancelled = false ∧ t.tie = x := by
  simp [liveTies, and_assoc]

variable {r socket} in
theorem mem_of_task? {t : ReplyTask} (h : r.task? socket = some t) :
    t ∈ r.tasks ∧ t.socket = socket :=
  ⟨List.mem_of_find?_eq_some h, by simpa using List.find?_some h⟩

theorem taskTies_of_live {x : SocketAddress × Nat} (h : x ∈ r.liveTies) : x ∈ r.taskTies := by
  obtain ⟨t, ht, -, hx⟩ := r.mem_liveTies.mp h
  exact r.mem_taskTies.mpr ⟨t, ht, hx⟩

@[simp] theorem setPhase_taskTies : (r.setPhase socket phase).taskTies = r.taskTies := by
  simp only [taskTies, setPhase, List.map_map]
  apply List.map_congr_left
  intro t _
  simp only [Function.comp_apply]
  split <;> rfl

@[simp] theorem setPhase_liveTies : (r.setPhase socket phase).liveTies = r.liveTies := by
  simp only [liveTies, setPhase, List.filter_map, List.map_map]
  congr 1
  · funext t
    simp only [Function.comp_apply]
    split <;> rfl
  · apply List.filter_congr
    intro t _
    simp only [Function.comp_apply]
    split <;> rfl

@[simp] theorem endTask_taskTies :
    (r.endTask socket).taskTies = r.taskTies.filter (·.2 ≠ socket) := by
  simp only [taskTies, endTask, List.filter_map]
  rfl

@[simp] theorem endTask_liveTies :
    (r.endTask socket).liveTies = r.liveTies.filter (·.2 ≠ socket) := by
  simp only [liveTies, endTask, List.filter_map, List.filter_filter]
  congr 1
  apply List.filter_congr
  intro t _
  simp only [Function.comp_apply, ReplyTask.tie]
  exact Bool.and_comm _ _

@[simp] theorem cancelTasks_taskTies : (r.cancelTasks sockets).taskTies = r.taskTies := by
  simp only [taskTies, cancelTasks, List.map_map]
  apply List.map_congr_left
  intro t _
  simp only [Function.comp_apply]
  split <;> rfl

@[simp] theorem cancelTasks_liveTies :
    (r.cancelTasks sockets).liveTies = r.liveTies.filter (·.2 ∉ sockets) := by
  have htie : ∀ t : ReplyTask,
      (if t.socket ∈ sockets then { t with cancelled := true } else t).tie = t.tie := by
    intro t
    split <;> rfl
  simp only [liveTies, cancelTasks, List.filter_map, List.map_map, List.filter_filter]
  congr 1
  · funext t
    exact htie t
  · apply List.filter_congr
    intro t _
    by_cases h : t.socket ∈ sockets <;> simp [h, ReplyTask.tie]

end DatagramRelay

end PortForward

import Mathlib.Algebra.GroupWithZero.Nat
import PortForward.Proofs.Datagram.Openings
import PortForward.Proofs.Datagram.Quiet

/-!
# A relay left to itself settles

Every step that the relay takes on its own leaves less for it to do: a datagram in hand is
retried once at most, a task with a reply goes back to receiving, and a sweep that is due
moves into the future. So the relay is quiet after finitely many such steps, whatever the
kernel answers and whoever goes first. This says nothing about time: what the kernel takes
for an answer is not counted.
-/

namespace PortForward

def LoopPhase.work : LoopPhase → Nat
  | idle | ended => 0
  | draining _ => 1
  | waiting => 2
  | sending _ _ _ true => 3
  | sending _ _ _ false => 4
  | looking .. => 6

def ReplyPhase.work : ReplyPhase → Nat
  | receiving | forgetting => 1
  | replying _ => 2
  | refreshing _ => 3

namespace DatagramRelay

def taskWork (r : DatagramRelay) : Nat := (r.tasks.map (·.phase.work)).sum

/-- A bound for the steps that the relay can take on its own. -/
def work (r : DatagramRelay) : Nat :=
  r.loop.work + (if r.nextSweep ≤ r.now then 1 else 0) + r.taskWork

section Tasks

variable {r : DatagramRelay} {socket : Nat} {t : ReplyTask}

theorem taskWork_cancelTasks (sockets : List Nat) :
    (r.cancelTasks sockets).taskWork = r.taskWork := by
  simp only [taskWork, cancelTasks, List.map_map]
  congr 1
  apply List.map_congr_left
  intro t _
  simp only [Function.comp_apply]
  split <;> rfl

theorem taskWork_addFlow (client : SocketAddress) (payload : Bytes) :
    (r.addFlow client payload).taskWork = r.taskWork + 1 := by
  simp [taskWork, addFlow, ReplyPhase.work]

theorem Tracks.tasks_eq {closed : Bool} (h : Tracks closed r) (htask : r.task? socket = some t) :
    ∃ before after, r.tasks = before ++ t :: after ∧ t.socket = socket ∧
      (∀ x ∈ before, x.socket ≠ socket) ∧ ∀ x ∈ after, x.socket ≠ socket := by
  obtain ⟨hmem, hsocket⟩ := mem_of_task? htask
  obtain ⟨before, after, htasks⟩ := List.append_of_mem hmem
  have hnodup : (r.tasks.map (·.socket)).Nodup := by
    simpa [taskTies, Function.comp_def, ReplyTask.tie] using h.tasks_nodup
  rw [htasks, List.map_append, List.map_cons, List.nodup_append, List.nodup_cons] at hnodup
  obtain ⟨-, ⟨hafter, -⟩, hbefore⟩ := hnodup
  refine ⟨before, after, htasks, hsocket, ?_, ?_⟩
  · intro x hx
    rw [← hsocket]
    exact hbefore _ (List.mem_map_of_mem hx) _ List.mem_cons_self
  · intro x hx heq
    exact hafter (List.mem_map.mpr ⟨x, hx, heq.trans hsocket.symm⟩)

theorem taskWork_setPhase {closed : Bool} (h : Tracks closed r) (htask : r.task? socket = some t)
    (phase : ReplyPhase) :
    (r.setPhase socket phase).taskWork + t.phase.work = r.taskWork + phase.work := by
  obtain ⟨before, after, htasks, hsocket, hbefore, hafter⟩ := h.tasks_eq htask
  have hsame : ∀ l : List ReplyTask, (∀ x ∈ l, x.socket ≠ socket) →
      (l.map fun t => if t.socket = socket then { t with phase } else t) = l := by
    intro l hl
    have hmap : (l.map fun t => if t.socket = socket then { t with phase } else t) = l.map id :=
      List.map_congr_left fun x hx => if_neg (hl x hx)
    rw [hmap, List.map_id]
  simp only [taskWork, setPhase, htasks, List.map_append, List.map_cons, hsame _ hbefore,
    hsame _ hafter, List.sum_append, List.sum_cons]
  simp only [hsocket, if_true]
  omega

theorem taskWork_endTask {closed : Bool} (h : Tracks closed r) (htask : r.task? socket = some t) :
    (r.endTask socket).taskWork + t.phase.work = r.taskWork := by
  obtain ⟨before, after, htasks, hsocket, hbefore, hafter⟩ := h.tasks_eq htask
  have hsame : ∀ l : List ReplyTask, (∀ x ∈ l, x.socket ≠ socket) →
      l.filter (·.socket ≠ socket) = l := by
    intro l hl
    exact List.filter_eq_self.mpr fun x hx => by simpa using hl x hx
  simp only [taskWork, endTask, htasks, List.filter_append, List.filter_cons, hsame _ hbefore,
    hsame _ hafter]
  simp [hsocket]
  omega

end Tasks

variable {closed : Bool} {r : DatagramRelay} {event : Event} {turn : Turn DatagramRelay}

theorem period_pos (r : DatagramRelay) : 0 < r.period :=
  Nat.lt_of_lt_of_le (by decide : 0 < Duration.second) (Nat.le_max_left _ _)

theorem now_lt_sweepAfter (r : DatagramRelay) : r.now < r.sweepAfter := by
  have hlt := Nat.lt_mul_div_succ (r.now - r.started) r.period_pos
  rw [Nat.mul_comm] at hlt
  unfold sweepAfter
  omega

/-- A step of the loop leaves the loop less to do, if it leaves the clock and the tasks alone. -/
theorem work_lt_of_loop {next : DatagramRelay} (hloop : next.loop.work < r.loop.work)
    (hnow : next.now = r.now) (hsweep : next.nextSweep = r.nextSweep)
    (htasks : next.taskWork = r.taskWork) : next.work < r.work := by
  unfold work
  rw [hnow, hsweep, htasks]
  omega

theorem work_lt_of_tasks {next : DatagramRelay} (hloop : next.loop = r.loop)
    (hnow : next.now = r.now) (hsweep : next.nextSweep = r.nextSweep)
    (htasks : next.taskWork < r.taskWork) : next.work < r.work := by
  unfold work
  rw [hloop, hnow, hsweep]
  omega

theorem work_lt_of_own (h : Transition closed r event turn) (htracks : Tracks closed r)
    (hown : event.isOwn) : turn.next.work < r.work := by
  cases h with
  | advance | received | receiveFailed | replyReceived | replyRefused | replyBroken => cases hown
  | sweep hloop hdue =>
    have hlater : r.sweepNow.next.now < r.sweepNow.next.nextSweep := now_lt_sweepAfter _
    have htasks : r.sweepNow.next.taskWork = r.taskWork := taskWork_cancelTasks _
    have hsame : r.sweepNow.next.loop = r.loop := rfl
    unfold work
    rw [htasks, hsame, if_pos hdue, if_neg (by omega)]
    omega
  | @opened client payload _ _ hloop =>
    have htasks : (r.addFlow client payload).taskWork = r.taskWork + 1 :=
      taskWork_addFlow client payload
    have hnow : (r.addFlow client payload).now = r.now := rfl
    have hsweep : (r.addFlow client payload).nextSweep = r.nextSweep := rfl
    have hnext : (r.addFlow client payload).loop.work = 4 := rfl
    have hwork : r.loop.work = 6 := by rw [hloop]; rfl
    rw [Turn.on_next]
    unfold work
    rw [htasks, hnow, hsweep, hnext, hwork]
    omega
  | found _ hloop | unopened hloop | unnamed hloop | refusedOnce hloop =>
    refine work_lt_of_loop ?_ rfl rfl rfl
    rw [hloop]
    simp [giveUp, LoopPhase.work]
  | @sent _ _ _ retried hloop | @sendFailed _ _ _ retried _ hloop =>
    refine work_lt_of_loop ?_ rfl rfl rfl
    rw [hloop]
    cases retried <;> simp [giveUp, LoopPhase.work]
  | stopped hloop _ =>
    refine work_lt_of_loop ?_ rfl rfl rfl
    rw [hloop]
    simp [LoopPhase.work]
  | drained hloop =>
    refine work_lt_of_loop ?_ rfl rfl (taskWork_cancelTasks _)
    rw [hloop]
    exact Nat.zero_lt_one
  | @refreshed socket t payload htask hphase =>
    have hwork := taskWork_setPhase (r := { r with table := r.table.touch t.client r.now })
      (htracks.of_eq (FlowTable.touch_ties _ _ _) rfl rfl (Nat.le_refl _) id id) htask
      (.replying payload)
    rw [hphase] at hwork
    refine work_lt_of_tasks rfl rfl rfl ?_
    have hsame : { r with table := r.table.touch t.client r.now }.taskWork = r.taskWork := rfl
    simp only [ReplyPhase.work, hsame, Turn.on_next] at hwork ⊢
    omega
  | replied htask hphase | replyFailed htask hphase =>
    have hwork := taskWork_setPhase htracks htask .receiving
    rw [hphase] at hwork
    refine work_lt_of_tasks rfl rfl rfl ?_
    simp only [ReplyPhase.work, Turn.on_next] at hwork ⊢
    omega
  | @forgot socket t htask hphase =>
    have hwork := taskWork_endTask htracks htask
    rw [hphase] at hwork
    refine work_lt_of_tasks rfl rfl rfl ?_
    have hsame : ({ r with table := r.table.forget t.client socket }.endTask socket).taskWork =
        (r.endTask socket).taskWork := rfl
    simp only [ReplyPhase.work, Turn.on_next] at hwork ⊢
    omega
  | replyStopped htask hphase =>
    have hwork := taskWork_endTask htracks htask
    rw [hphase] at hwork
    refine work_lt_of_tasks rfl rfl rfl ?_
    simp only [ReplyPhase.work, Turn.on_next] at hwork ⊢
    omega

end DatagramRelay

open DatagramRelay

section History

variable {frontend : Address} {backend : SocketAddress} {level : Level} {timeout : Nat}
variable {past : List (Moment DatagramRelay)} {p q : Proxy} {r : DatagramRelay}

theorem work_lt_of_history {p' : Proxy} {r' : DatagramRelay} {event : DatagramRelay.Event}
    {effects : List Effect}
    (h : History .datagram (.ofDatagrams frontend backend level timeout) past p r)
    (hstep : p.step (.service (.datagram event)) = some (p', effects))
    (hr' : p'.service = .datagram r') (hown : event.isOwn) : r'.work < r.work := by
  obtain ⟨htracks, hphase⟩ := tracks_of_history h
  obtain ⟨hpass, -⟩ := Proxy.passage_of_step hphase h.service_eq hstep hr'
  generalize p'.isClosed = closed' at hpass
  cases hpass with
  | moved ht _ => exact work_lt_of_own ht htracks hown
  | finished ht _ => exact work_lt_of_own ht htracks hown

/-- No more steps of its own than its work can follow one another. -/
theorem length_le_work
    (h : History .datagram (.ofDatagrams frontend backend level timeout) past p r)
    {own : List DatagramRelay.Event} (hown : ∀ event ∈ own, event.isOwn) {effects : List Effect}
    (hrun : p.runAll (ofRelay own) = some (q, effects)) : own.length ≤ r.work := by
  induction own generalizing past p r effects with
  | nil => exact Nat.zero_le _
  | cons event own ih =>
    simp only [ofRelay, List.map_cons, Proxy.runAll] at hrun
    obtain ⟨⟨p', first⟩, hstep, hlast⟩ := Option.bind_eq_some_iff.mp hrun
    obtain ⟨⟨q', rest⟩, hrest, heq⟩ := Option.map_eq_some_iff.mp hlast
    cases heq
    obtain ⟨r', hr'⟩ := Proxy.step_keeps_kind Service.isKind_datagram h.service_eq hstep
    have hle := ih (h.snoc hstep hr') (fun e he => hown e (List.mem_cons_of_mem _ he)) hrest
    have hlt := work_lt_of_history h hstep hr' (hown event List.mem_cons_self)
    rw [List.length_cons]
    omega

theorem exists_step_of_relay {closed : Bool} {event : DatagramRelay.Event}
    {turn : Turn DatagramRelay} (hr : p.service = .datagram r) (hclosed : p.isClosed = closed)
    (h : r.step closed event = some turn) :
    ∃ q effects, p.step (.service (.datagram event)) = some (q, effects) := by
  have hservice : p.service.step p.isClosed (.datagram event) =
      some ⟨.datagram turn.next, turn.effects, turn.loopEnd⟩ := by
    rw [hr, hclosed]
    simp only [Service.step, h, Option.map_some]
  obtain ⟨q, effects, hstep, -⟩ := Proxy.exists_step hservice
  exact ⟨q, effects, hstep⟩

/-- From every state of every run the relay can come to rest on its own. -/
theorem exists_quiet
    (h : History .datagram (.ofDatagrams frontend backend level timeout) past p r) :
    ∃ own q r' effects, (∀ event ∈ own, event.isOwn) ∧
      p.runAll (ofRelay own) = some (q, effects) ∧ q.service = .datagram r' ∧
      r'.IsQuiet q.isClosed := by
  induction hwork : r.work using Nat.strongRecOn generalizing past p r with
  | ind n ih =>
    by_cases hquiet : r.IsQuiet p.isClosed
    · exact ⟨[], p, r, [], nofun, rfl, h.service_eq, hquiet⟩
    · simp only [IsQuiet, not_forall] at hquiet
      obtain ⟨event, hown, hne⟩ := hquiet
      obtain ⟨turn, hturn⟩ := Option.ne_none_iff_exists'.mp hne
      obtain ⟨p', first, hstep⟩ := exists_step_of_relay h.service_eq rfl hturn
      obtain ⟨r', hr'⟩ := Proxy.step_keeps_kind Service.isKind_datagram h.service_eq hstep
      have hlt : r'.work < n := hwork ▸ work_lt_of_history h hstep hr' hown
      obtain ⟨own, q, r'', effects, hevents, hrun, hq, hend⟩ := ih _ hlt (h.snoc hstep hr') rfl
      refine ⟨event :: own, q, r'', first ++ effects, ?_, Proxy.runAll_cons hstep hrun, hq, hend⟩
      intro e he
      rcases List.mem_cons.mp he with rfl | he
      · exact hown
      · exact hevents e he

end History

end PortForward

import PortForward.Proofs.Datagram.Openings

/-!
# From the backend to the clients

The task of a socket deals with one reply at a time, as the loop does with one datagram. So
each socket has books of its own: the replies received on it are those that its task has
answered for and the one that it has in hand. A task that ends has none in hand, also if
it was cancelled while it held one.
-/

namespace PortForward

/-- What became of a reply: it was sent to the client, or the send failed. -/
structure Answer where
  client : SocketAddress
  payload : Bytes
  failure : Option IoError

/-- What others see of a reply. -/
def Answer.effects (a : Answer) : List Effect :=
  match a.failure with
  | none => [.reply a.client a.payload, .log (.replied a.payload.length a.client)]
  | some e => [.log (.replyFailed a.client e)]

def ReplyPhase.inHand : ReplyPhase → List Bytes
  | refreshing payload | replying payload => [payload]
  | receiving | forgetting => []

namespace DatagramRelay

def replyInHand (r : DatagramRelay) (socket : Nat) : List Bytes :=
  match r.task? socket with
  | some t => t.phase.inHand
  | none => []

/-- What the task of a socket waits for; one that is not there could as well wait for a reply. -/
def phaseOf (r : DatagramRelay) (socket : Nat) : ReplyPhase :=
  match r.task? socket with
  | some t => t.phase
  | none => .receiving

end DatagramRelay

namespace Moment

variable (m : Moment DatagramRelay) (socket : Nat)

def replies : List Bytes :=
  match m.event with
  | .service (.datagram (.replyReceive s (.ok payload))) =>
    if s = socket then [payload.take maxPayload] else []
  | _ => []

/-- What a step does for the reply that a socket has in hand. -/
def answers : List Effect :=
  match m.event with
  | .service (.datagram (.replySend s _)) => if s = socket then m.effects else []
  | _ => []

end Moment

namespace DatagramRelay

section Tasks

variable {r r' : DatagramRelay} {s s' : Nat} {t : ReplyTask}

theorem task?_setPhase (r : DatagramRelay) (s s' : Nat) (phase : ReplyPhase) :
    (r.setPhase s phase).task? s' =
      (r.task? s').map fun t => if t.socket = s then { t with phase } else t := by
  simp only [task?, setPhase, List.find?_map]
  congr 2
  funext t
  simp only [Function.comp_apply]
  split <;> rfl

theorem task?_setPhase_self (h : r.task? s = some t) (phase : ReplyPhase) :
    (r.setPhase s phase).task? s = some { t with phase } := by
  rw [task?_setPhase, h, Option.map_some, if_pos (mem_of_task? h).2]

theorem task?_setPhase_of_ne (h : s' ≠ s) (phase : ReplyPhase) :
    (r.setPhase s phase).task? s' = r.task? s' := by
  rw [task?_setPhase]
  cases htask : r.task? s' with
  | none => rfl
  | some t =>
    have hne : t.socket ≠ s := (mem_of_task? htask).2 ▸ h
    rw [Option.map_some, if_neg hne]

theorem task?_cancelTasks (r : DatagramRelay) (sockets : List Nat) (s : Nat) :
    (r.cancelTasks sockets).task? s =
      (r.task? s).map fun t => if t.socket ∈ sockets then { t with cancelled := true } else t := by
  simp only [task?, cancelTasks, List.find?_map]
  congr 2
  funext t
  simp only [Function.comp_apply]
  split <;> rfl

theorem task?_endTask_of_ne (h : s' ≠ s) : (r.endTask s).task? s' = r.task? s' := by
  simp only [task?, endTask, List.find?_filter]
  congr 1
  funext t
  by_cases ht : t.socket = s' <;> simp [ht, h]

theorem task?_endTask_self : (r.endTask s).task? s = none := by
  simp [task?, endTask]

theorem task?_addFlow_of_ne {client : SocketAddress} {payload : Bytes} (h : s ≠ r.opened) :
    (r.addFlow client payload).task? s = r.task? s := by
  simp [task?, addFlow, Ne.symm h]

theorem phaseOf_of_task (h : r.task? s = some t) : r.phaseOf s = t.phase := by
  simp only [phaseOf, h]

theorem phaseOf_congr (h : r'.tasks = r.tasks) : r'.phaseOf s = r.phaseOf s := by
  simp only [phaseOf, task?, h]

theorem phaseOf_setPhase (h : r.task? s = some t) (phase : ReplyPhase) (s' : Nat) :
    (r.setPhase s phase).phaseOf s' = if s' = s then phase else r.phaseOf s' := by
  by_cases hs : s' = s
  · subst hs
    simp [phaseOf, task?_setPhase, h, (mem_of_task? h).2]
  · simp only [phaseOf, task?_setPhase_of_ne hs, if_neg hs]

theorem phaseOf_cancelTasks (sockets : List Nat) :
    (r.cancelTasks sockets).phaseOf s = r.phaseOf s := by
  simp only [phaseOf, task?_cancelTasks]
  cases r.task? s with
  | none => rfl
  | some t =>
    simp only [Option.map_some]
    split <;> rfl

theorem phaseOf_endTask (s' : Nat) :
    (r.endTask s).phaseOf s' = if s' = s then .receiving else r.phaseOf s' := by
  by_cases hs : s' = s
  · subst hs
    simp only [phaseOf, task?_endTask_self, if_true]
  · simp only [phaseOf, task?_endTask_of_ne hs, if_neg hs]

/-- The task of a new flow waits for a reply. -/
theorem phaseOf_addFlow {closed : Bool} (h : Tracks closed r) (client : SocketAddress)
    (payload : Bytes) (s : Nat) : (r.addFlow client payload).phaseOf s = r.phaseOf s := by
  by_cases hs : s = r.opened
  · have hnone : r.task? s = none := by
      apply List.find?_eq_none.mpr
      intro t ht hsocket
      have hlt := h.task_lt t.tie (r.mem_taskTies.mpr ⟨t, ht, rfl⟩)
      simp only [ReplyTask.tie, decide_eq_true_eq] at hlt hsocket
      omega
    have hnew : (r.addFlow client payload).task? s =
        some ⟨r.opened, client, false, .receiving⟩ := by
      subst hs
      have hold : r.tasks.find? (·.socket = r.opened) = none := hnone
      simp [task?, addFlow, List.find?_append, hold]
    simp only [phaseOf, hnone, hnew]
  · simp only [phaseOf, task?_addFlow_of_ne hs]

theorem replyInHand_eq : r.replyInHand s = (r.phaseOf s).inHand := by
  unfold replyInHand phaseOf
  cases r.task? s <;> rfl

theorem replyInHand_of_task (h : r.task? s = some t) : r.replyInHand s = t.phase.inHand := by
  rw [replyInHand_eq, phaseOf_of_task h]

theorem replyInHand_congr (h : r'.tasks = r.tasks) : r'.replyInHand s = r.replyInHand s := by
  rw [replyInHand_eq, replyInHand_eq, phaseOf_congr h]

theorem replyInHand_setPhase_self (h : r.task? s = some t) (phase : ReplyPhase) :
    (r.setPhase s phase).replyInHand s = phase.inHand := by
  rw [replyInHand_eq, phaseOf_setPhase h, if_pos rfl]

theorem replyInHand_setPhase_of_ne (h : r.task? s = some t) (hne : s' ≠ s) (phase : ReplyPhase) :
    (r.setPhase s phase).replyInHand s' = r.replyInHand s' := by
  rw [replyInHand_eq, phaseOf_setPhase h, if_neg hne, replyInHand_eq]

theorem replyInHand_setPhase (h : r.task? s = some t) {phase : ReplyPhase}
    (hphase : phase.inHand = t.phase.inHand) (s' : Nat) :
    (r.setPhase s phase).replyInHand s' = r.replyInHand s' := by
  by_cases hs : s' = s
  · subst hs
    rw [replyInHand_of_task h, replyInHand_setPhase_self h, hphase]
  · exact replyInHand_setPhase_of_ne h hs phase

theorem replyInHand_cancelTasks (sockets : List Nat) :
    (r.cancelTasks sockets).replyInHand s = r.replyInHand s := by
  rw [replyInHand_eq, phaseOf_cancelTasks, replyInHand_eq]

theorem replyInHand_endTask (h : r.task? s = some t) (hnone : t.phase.inHand = []) (s' : Nat) :
    (r.endTask s).replyInHand s' = r.replyInHand s' := by
  rw [replyInHand_eq, phaseOf_endTask]
  by_cases hs : s' = s
  · subst hs
    rw [if_pos rfl, replyInHand_of_task h, hnone]
    rfl
  · rw [if_neg hs, replyInHand_eq]

theorem replyInHand_addFlow {closed : Bool} (h : Tracks closed r) (client : SocketAddress)
    (payload : Bytes) (s : Nat) : (r.addFlow client payload).replyInHand s = r.replyInHand s := by
  rw [replyInHand_eq, phaseOf_addFlow h, replyInHand_eq]

end Tasks

/-- The books of one socket balance over a stretch of a run. -/
structure Answered (answers : List Answer) (replies : List Bytes) (effects : List Effect)
    (before after : List Bytes) : Prop where
  payloads : before ++ replies = answers.map Answer.payload ++ after
  effects : effects = answers.flatMap Answer.effects

theorem Answered.of_same {before after : List Bytes} (h : after = before) :
    Answered [] [] [] before after :=
  ⟨by simp [h], rfl⟩

theorem Answered.trans {as as' : List Answer} {replies replies' : List Bytes}
    {effects effects' : List Effect} {first middle last : List Bytes}
    (h : Answered as replies effects first middle)
    (h' : Answered as' replies' effects' middle last) :
    Answered (as ++ as') (replies ++ replies') (effects ++ effects') first last := by
  constructor
  · rw [← List.append_assoc, h.payloads, List.append_assoc, h'.payloads]
    simp
  · rw [h.effects, h'.effects, List.flatMap_append]

variable {closed closed' : Bool} {r r' : DatagramRelay} {turn : Turn DatagramRelay}

theorem answered_of_receive {socket : Nat} {t : ReplyTask} (payload : Bytes)
    (htask : r.task? socket = some t) (hphase : t.phase = .receiving) (s : Nat) :
    Answered [] (if socket = s then [payload] else []) [] (r.replyInHand s)
      ((r.setPhase socket (.refreshing payload)).replyInHand s) := by
  by_cases hs : s = socket
  · subst hs
    refine ⟨?_, rfl⟩
    rw [replyInHand_of_task htask, replyInHand_setPhase_self htask, hphase]
    simp [ReplyPhase.inHand]
  · rw [replyInHand_setPhase_of_ne htask hs, if_neg (Ne.symm hs)]
    exact .of_same rfl

theorem answered_of_send {socket : Nat} {t : ReplyTask} {payload : Bytes}
    (failure : Option IoError) (htask : r.task? socket = some t)
    (hphase : t.phase = .replying payload) (s : Nat) :
    ∃ as, Answered as [] (if socket = s then Answer.effects ⟨t.client, payload, failure⟩ else [])
        (r.replyInHand s) ((r.setPhase socket .receiving).replyInHand s) ∧
      ∀ a ∈ as, (a.client, s) ∈ r.taskTies := by
  by_cases hs : s = socket
  · subst hs
    obtain ⟨ht, hsocket⟩ := mem_of_task? htask
    refine ⟨[⟨t.client, payload, failure⟩], ⟨?_, by simp⟩, ?_⟩
    · rw [replyInHand_of_task htask, replyInHand_setPhase_self htask, hphase]
      rfl
    · intro a ha
      cases List.mem_singleton.mp ha
      exact r.mem_taskTies.mpr ⟨t, ht, by rw [ReplyTask.tie, hsocket]⟩
  · rw [replyInHand_setPhase_of_ne htask hs, if_neg (Ne.symm hs)]
    exact ⟨[], .of_same rfl, fun _ ha => absurd ha List.not_mem_nil⟩

/-- A step leaves the books of every socket balanced, and answers only for the client of the
socket's task. -/
theorem answered_of_transition {event : Event} (h : Transition closed r event turn)
    (htracks : Tracks closed r) (s : Nat) :
    let m : Moment DatagramRelay :=
      ⟨closed, r, .service (.datagram event), turn.effects, turn.next⟩
    ∃ as, Answered as (m.replies s) (m.answers s) (r.replyInHand s) (turn.next.replyInHand s) ∧
      ∀ a ∈ as, (a.client, s) ∈ r.taskTies := by
  have hnone : ∀ {next : DatagramRelay}, next.replyInHand s = r.replyInHand s →
      ∃ as, Answered as [] [] (r.replyInHand s) (next.replyInHand s) ∧
        ∀ a ∈ as, (a.client, s) ∈ r.taskTies :=
    fun hsame => ⟨[], .of_same hsame, nofun⟩
  cases h with
  | opened => exact hnone (replyInHand_addFlow htracks _ _ _)
  | sweep | drained => exact hnone (replyInHand_cancelTasks _)
  | @replyReceived socket t payload htask hphase =>
    exact ⟨[], answered_of_receive _ htask hphase s, nofun⟩
  | replyBroken htask hphase => exact hnone (replyInHand_setPhase htask (by rw [hphase]; rfl) s)
  | refreshed htask hphase =>
    exact hnone ((replyInHand_setPhase (r := { r with table := _ }) htask (by rw [hphase]; rfl) s))
  | replied htask hphase => exact answered_of_send none htask hphase s
  | @replyFailed _ _ _ e htask hphase => exact answered_of_send (some e) htask hphase s
  | @forgot socket t htask hphase =>
    have htask' : { r with table := r.table.forget t.client socket }.task? socket = some t := htask
    exact hnone (replyInHand_endTask htask' (by rw [hphase]; rfl) s)
  | replyStopped htask hphase => exact hnone (replyInHand_endTask htask (by rw [hphase]; rfl) s)
  | _ => exact hnone (replyInHand_congr rfl)

theorem answered_of_passage {event : Proxy.Event} {effects : List Effect}
    (h : Passage r closed event effects closed' r') (htracks : Tracks closed r) (s : Nat) :
    let m : Moment DatagramRelay := ⟨closed, r, event, effects, r'⟩
    ∃ as, Answered as (m.replies s) (m.answers s) (r.replyInHand s) (r'.replyInHand s) ∧
      ∀ a ∈ as, (a.client, s) ∈ r.taskTies := by
  have hnone : ∀ {next : DatagramRelay}, next.replyInHand s = r.replyInHand s →
      ∃ as, Answered as [] [] (r.replyInHand s) (next.replyInHand s) ∧
        ∀ a ∈ as, (a.client, s) ∈ r.taskTies :=
    fun hsame => ⟨[], .of_same hsame, nofun⟩
  cases h with
  | refused | started | closed => exact hnone (replyInHand_congr rfl)
  | moved ht => exact answered_of_transition ht htracks s
  | finished ht hend =>
    cases ht with
    | drained => exact hnone (replyInHand_cancelTasks _)
    | _ => cases hend

end DatagramRelay

open DatagramRelay

/-- The books of every socket balance over every run, and its replies are for the client that
it was opened for. -/
theorem answered_of_history {frontend : Address} {backend : SocketAddress} {level : Level}
    {timeout : Nat} {past : List (Moment DatagramRelay)} {p : Proxy} {r : DatagramRelay}
    (h : History .datagram (.ofDatagrams frontend backend level timeout) past p r) (s : Nat) :
    ∃ as, Answered as (past.flatMap (Moment.replies · s)) (past.flatMap (Moment.answers · s)) []
        (r.replyInHand s) ∧
      ∀ a ∈ as, (a.client, s) ∈ past.flatMap Moment.openings := by
  refine (h.owned_induction (motive := fun past _ r =>
    ∃ as, Answered as (past.flatMap (Moment.replies · s)) (past.flatMap (Moment.answers · s)) []
        (r.replyInHand s) ∧
      ∀ a ∈ as, (a.client, s) ∈ past.flatMap Moment.openings)
    ⟨[], .of_same rfl, nofun⟩ ?_).1
  rintro past closed r event effects closed' r' htracks howned ⟨as, hbooks, hown⟩ hpass
  obtain ⟨as', hbooks', hown'⟩ := answered_of_passage hpass htracks s
  refine ⟨as ++ as', by simpa using hbooks.trans hbooks', ?_⟩
  intro a ha
  rw [List.flatMap_append]
  apply List.mem_append_left
  rcases List.mem_append.mp ha with ha | ha
  · exact hown a ha
  -- The task of the socket was there before the step, so its client is an owner already.
  · exact howned.held (mem_heldTies.mpr (.inr (.inl (hown' a ha))))

end PortForward

import PortForward.Proofs.Datagram.Projection

/-!
# Steps of one client alone

Each step of a relay is either nothing to a client, and then leaves the client's part of the
relay as it was, or it is a step of that part, with the same answers of the kernel and with
the effects that concern the client. The sweep and the end of the loop are steps of every
client's part at once.
-/

namespace PortForward

open DatagramRelay

theorem DatagramRelay.Transition.congr {closed : Bool} {r : DatagramRelay}
    {event : DatagramRelay.Event} {turn turn' : Turn DatagramRelay}
    (h : Transition closed r event turn) (hnext : turn'.next = turn.next)
    (heffects : turn'.effects = turn.effects) (hend : turn'.loopEnd = turn.loopEnd) :
    Transition closed r event turn' := by
  cases turn
  cases turn'
  cases hnext
  cases heffects
  cases hend
  exact h

namespace Naming

variable {n : Naming} {owners : List SocketAddress} {closed : Bool} {r : DatagramRelay}
variable {event : DatagramRelay.Event} {turn : Turn DatagramRelay}

/-- A step is nothing to the client, or it is a step of the client's part. -/
def Mirrors (n : Naming) (closed : Bool) (r : DatagramRelay) (event : DatagramRelay.Event)
    (turn : Turn DatagramRelay) : Prop :=
  (n.event r event = none ∧ n.relay turn.next = n.relay r) ∨
    ∃ e, n.event r event = some e ∧ Transition closed (n.relay r) e
      ⟨n.relay turn.next, n.effects (n.socket r.opened) turn.effects, turn.loopEnd⟩

theorem socket_succ {client : SocketAddress} (hown : r.OwnedBy owners)
    (hrank : n.Ranks (owners ++ [client])) :
    n.socket (r.opened + 1) = n.socket r.opened + if client = n.client then 1 else 0 := by
  have hlast := hrank (r.opened + 1) (by simp [hown.length])
  have hprev := hrank r.opened (by rw [List.length_append, hown.length]; omega)
  rw [← hown.length] at hlast hprev ⊢
  rw [List.take_of_length_le (by simp), List.count_append] at hlast
  rw [List.take_left] at hprev
  rw [hlast, hprev, List.count_singleton]
  simp only [beq_iff_eq]

theorem mirrors_lookUp {opening : Opening} (hown : r.OwnedBy owners)
    (hrank : n.Ranks (owners ++ Moment.owners
      ⟨closed, r, .service (.datagram (.lookUp opening)), turn.effects, turn.next⟩))
    (h : Transition closed r (.lookUp opening) turn) :
    n.Mirrors closed r (.lookUp opening) turn := by
  have hevent : ∀ {client payload}, r.loop = .looking client payload →
      n.event r (.lookUp opening) =
        n.about client (.lookUp (n.opening (n.socket r.opened) opening)) := by
    intro client payload hloop
    simp [event, hloop, LoopPhase.client?]
  cases h with
  | @found client payload f _ hloop hflow =>
    rw [Mirrors, hevent hloop]
    by_cases hc : client = n.client
    · subst hc
      have hloop' : (n.relay r).loop = .looking n.address payload := by simp [relay, phase, hloop]
      have hflow' : (n.relay r).table.find? n.address = some (n.flow f) := by
        simp [relay, find?_table, hflow]
      refine .inr ⟨_, n.about_self _, (Transition.found _ hloop' hflow').congr ?_ rfl rfl⟩
      simp [relay, phase, flow, table_touch_self]
    · refine .inl ⟨about_of_ne hc _, ?_⟩
      simp [relay, phase, hloop, hc, table_touch_of_ne hc]
  | @unopened client payload _ e hloop hnew hfail =>
    rw [Mirrors, hevent hloop]
    by_cases hc : client = n.client
    · subst hc
      have hloop' : (n.relay r).loop = .looking n.address payload := by simp [relay, phase, hloop]
      have hnew' : (n.relay r).table.find? n.address = none := by simp [relay, find?_table, hnew]
      have hfail' : (n.opening (n.socket r.opened) opening).connected = .error e := hfail
      refine .inr ⟨_, n.about_self _, (Transition.unopened hloop' hnew' hfail').congr rfl ?_ rfl⟩
      simp [giveUp, effects, effect, notice]
    · refine .inl ⟨about_of_ne hc _, ?_⟩
      simp [relay, phase, hloop, hc, giveUp]
  | @unnamed client payload _ e hloop hnew hconn hshow hfail =>
    have howners : Moment.owners ⟨closed, r, .service (.datagram (.lookUp opening)),
        ({ r with opened := r.opened + 1 }.giveUp client e).effects,
        ({ r with opened := r.opened + 1 }.giveUp client e).next⟩ = [client] := by
      simp [Moment.owners, giveUp, hloop, LoopPhase.client?]
    rw [howners] at hrank
    have hnext := socket_succ hown hrank
    rw [Mirrors, hevent hloop]
    by_cases hc : client = n.client
    · subst hc
      have hloop' : (n.relay r).loop = .looking n.address payload := by simp [relay, phase, hloop]
      have hnew' : (n.relay r).table.find? n.address = none := by simp [relay, find?_table, hnew]
      have hconn' : (n.opening (n.socket r.opened) opening).connected = .ok () := hconn
      have hfail' : (n.opening (n.socket r.opened) opening).localAddress = .error e := by
        simp only [Naming.opening, hfail]
        rfl
      refine .inr ⟨_, n.about_self _,
        (Transition.unnamed hloop' hnew' hconn' hshow hfail').congr ?_ ?_ rfl⟩
      · simp [relay, phase, giveUp, hnext]
      · simp [giveUp, effects, effect, notice]
    · refine .inl ⟨about_of_ne hc _, ?_⟩
      simp [relay, phase, hloop, hc, giveUp, hnext]
  | @opened client payload _ notices hloop hnew hconn hnotices =>
    have howners : Moment.owners ⟨closed, r, .service (.datagram (.lookUp opening)),
        (Turn.on (r.addFlow client payload) notices).effects,
        (Turn.on (r.addFlow client payload) notices).next⟩ = [client] := by
      simp [Moment.owners, addFlow, hloop, LoopPhase.client?]
    rw [howners] at hrank
    have hnext := socket_succ hown hrank
    rw [Mirrors, hevent hloop]
    by_cases hc : client = n.client
    · subst hc
      have hloop' : (n.relay r).loop = .looking n.address payload := by simp [relay, phase, hloop]
      have hnew' : (n.relay r).table.find? n.address = none := by simp [relay, find?_table, hnew]
      have hconn' : (n.opening (n.socket r.opened) opening).connected = .ok () := hconn
      have hnotices' : if (n.relay r).level.shows .info then
          ∃ a, (n.opening (n.socket r.opened) opening).localAddress = .ok a ∧
            n.effects (n.socket r.opened) notices =
              [.log (.flowOpened n.address (n.relay r).backend a)]
          else n.effects (n.socket r.opened) notices = [] := by
        have hlevel : (n.relay r).level = r.level := rfl
        rw [hlevel]
        split at hnotices
        · rename_i hshow
          obtain ⟨a, ha, rfl⟩ := hnotices
          rw [if_pos hshow]
          refine ⟨n.port (n.socket r.opened), ?_, ?_⟩
          · simp only [Naming.opening, ha]
            rfl
          · simp [effects, effect, notice, relay]
        · rename_i hshow
          rw [if_neg hshow, hnotices]
          rfl
      refine .inr ⟨_, n.about_self _,
        (Transition.opened hloop' hnew' hconn' hnotices').congr ?_ rfl rfl⟩
      simp [relay, phase, addFlow, hnext, table_add_self, flow, tasks, task]
    · refine .inl ⟨about_of_ne hc _, ?_⟩
      simp [relay, phase, hloop, hc, addFlow, hnext, table_add_of_ne hc, tasks, about_of_ne hc]

theorem mirrors_send {result : Except IoError Unit} (h : Transition closed r (.send result) turn) :
    n.Mirrors closed r (.send result) turn := by
  have hevent : ∀ {client payload socket retried}, r.loop = .sending client payload socket retried →
      n.event r (.send result) = n.about client (.send result) := by
    intro client payload socket retried hloop
    simp [event, hloop, LoopPhase.client?]
  cases h with
  | @sent client payload socket retried hloop =>
    rw [Mirrors, hevent hloop]
    by_cases hc : client = n.client
    · subst hc
      have hloop' : (n.relay r).loop = .sending n.address payload (n.socket socket) retried := by
        simp [relay, phase, hloop]
      refine .inr ⟨_, n.about_self _, (Transition.sent hloop').congr rfl ?_ rfl⟩
      simp [effects, effect, notice, relay]
    · refine .inl ⟨about_of_ne hc _, ?_⟩
      simp [relay, phase, hloop, hc]
  | @refusedOnce client payload socket e hloop hkind =>
    rw [Mirrors, hevent hloop]
    by_cases hc : client = n.client
    · subst hc
      have hloop' : (n.relay r).loop = .sending n.address payload (n.socket socket) false := by
        simp [relay, phase, hloop]
      refine .inr ⟨_, n.about_self _, (Transition.refusedOnce hloop' hkind).congr ?_ rfl rfl⟩
      simp [relay, phase]
    · refine .inl ⟨about_of_ne hc _, ?_⟩
      simp [relay, phase, hloop, hc]
  | @sendFailed client payload socket retried e hloop hretry =>
    rw [Mirrors, hevent hloop]
    by_cases hc : client = n.client
    · subst hc
      have hloop' : (n.relay r).loop = .sending n.address payload (n.socket socket) retried := by
        simp [relay, phase, hloop]
      refine .inr ⟨_, n.about_self _, (Transition.sendFailed hloop' hretry).congr rfl ?_ rfl⟩
      simp [giveUp, effects, effect, notice]
    · refine .inl ⟨about_of_ne hc _, ?_⟩
      simp [relay, phase, hloop, hc, giveUp]

section Tasks

variable {socket : Nat} {t : ReplyTask}

theorem taskEvent_self (htask : r.task? socket = some t) (hc : t.client = n.client)
    (event : Nat → DatagramRelay.Event) :
    n.taskEvent r socket event = some (event (n.socket socket)) := by
  simp [taskEvent, htask, hc]

theorem taskEvent_of_ne (htask : r.task? socket = some t) (hc : t.client ≠ n.client)
    (event : Nat → DatagramRelay.Event) : n.taskEvent r socket event = none := by
  simp [taskEvent, htask, about_of_ne hc]

theorem mirrors_task (hown : r.OwnedBy owners) (hrank : n.Ranks owners)
    (htask : r.task? socket = some t) (event : Nat → DatagramRelay.Event)
    (hevent : n.event r (event socket) = n.taskEvent r socket event)
    (hself : t.client = n.client →
      (∀ t ∈ r.tasks, t.client = n.client → (n.socket t.socket = n.socket socket ↔
        t.socket = socket)) →
      (n.relay r).task? (n.socket socket) = some (n.task t) →
      Transition closed (n.relay r) (event (n.socket socket))
        ⟨n.relay turn.next, n.effects (n.socket r.opened) turn.effects, turn.loopEnd⟩)
    (hother : t.client ≠ n.client →
      (∀ t ∈ r.tasks, t.client = n.client → t.socket ≠ socket) → n.relay turn.next = n.relay r) :
    n.Mirrors closed r (event socket) turn := by
  rw [Mirrors, hevent]
  by_cases hc : t.client = n.client
  · have hs : owners[socket]? = some n.client := hc ▸ owner_of_task? hown htask
    exact .inr ⟨_, taskEvent_self htask hc _,
      hself hc (socket_iff hown hrank hs) (task?_relay hown hrank htask hc)⟩
  · exact .inl ⟨taskEvent_of_ne htask hc _, hother hc (socket_ne hown htask hc)⟩

theorem mirrors_replyReceive {result : Except IoError Bytes} (hown : r.OwnedBy owners)
    (hrank : n.Ranks owners) (h : Transition closed r (.replyReceive socket result) turn) :
    n.Mirrors closed r (.replyReceive socket result) turn := by
  cases h with
  | replyReceived htask hphase =>
    refine mirrors_task hown hrank htask (fun s => .replyReceive s _) rfl ?_ ?_
    · intro _ hiff htask'
      exact (Transition.replyReceived htask' hphase).congr (relay_setPhase hiff) rfl rfl
    · exact fun _ hne => relay_setPhase_of_ne hne
  | @replyRefused _ t e htask hphase hkind =>
    refine mirrors_task hown hrank htask (fun s => .replyReceive s _) rfl ?_ fun _ _ => rfl
    intro hc _ htask'
    refine (Transition.replyRefused htask' hphase hkind).congr rfl ?_ rfl
    simp [effects, effect, notice, hc, task]
  | @replyBroken _ t e htask hphase hkind =>
    refine mirrors_task hown hrank htask (fun s => .replyReceive s _) rfl ?_ ?_
    · intro hc hiff htask'
      refine (Transition.replyBroken htask' hphase hkind).congr (relay_setPhase hiff) ?_ rfl
      simp [effects, effect, notice, hc, task]
    · exact fun _ hne => relay_setPhase_of_ne hne

theorem mirrors_refresh (hown : r.OwnedBy owners) (hrank : n.Ranks owners)
    (h : Transition closed r (.refresh socket) turn) : n.Mirrors closed r (.refresh socket) turn := by
  cases h with
  | @refreshed _ t payload htask hphase =>
    refine mirrors_task hown hrank htask .refresh rfl ?_ ?_
    · intro hc hiff htask'
      refine (Transition.refreshed htask' hphase).congr ?_ rfl rfl
      have htouch : n.relay { r with table := r.table.touch t.client r.now } =
          { n.relay r with table := (n.relay r).table.touch n.address r.now } := by
        rw [hc]
        simp [relay, table_touch_self]
      refine (relay_setPhase (r := { r with table := r.table.touch t.client r.now }) hiff).trans ?_
      rw [htouch]
      rfl
    · intro hc hne
      have htouch : n.relay { r with table := r.table.touch t.client r.now } = n.relay r := by
        simp [relay, table_touch_of_ne hc]
      refine Eq.trans ?_ htouch
      exact relay_setPhase_of_ne (r := { r with table := r.table.touch t.client r.now }) hne

theorem mirrors_replySend {result : Except IoError Unit} (hown : r.OwnedBy owners)
    (hrank : n.Ranks owners) (h : Transition closed r (.replySend socket result) turn) :
    n.Mirrors closed r (.replySend socket result) turn := by
  cases h with
  | replied htask hphase =>
    refine mirrors_task hown hrank htask (fun s => .replySend s _) rfl ?_ ?_
    · intro hc hiff htask'
      refine (Transition.replied htask' hphase).congr (relay_setPhase hiff) ?_ rfl
      simp [effects, effect, notice, hc, task]
    · exact fun _ hne => relay_setPhase_of_ne hne
  | replyFailed htask hphase =>
    refine mirrors_task hown hrank htask (fun s => .replySend s _) rfl ?_ ?_
    · intro hc hiff htask'
      refine (Transition.replyFailed htask' hphase).congr (relay_setPhase hiff) ?_ rfl
      simp [effects, effect, notice, hc, task]
    · exact fun _ hne => relay_setPhase_of_ne hne

theorem mirrors_forget (hown : r.OwnedBy owners) (hrank : n.Ranks owners)
    (h : Transition closed r (.forget socket) turn) : n.Mirrors closed r (.forget socket) turn := by
  cases h with
  | @forgot _ t htask hphase =>
    refine mirrors_task hown hrank htask .forget rfl ?_ ?_
    · intro hc hiff htask'
      refine (Transition.forgot htask' hphase).congr ?_ ?_ rfl
      · have hs : owners[socket]? = some n.client := hc ▸ owner_of_task? hown htask
        have hforget : n.table (r.table.forget t.client socket) =
            (n.relay r).table.forget n.address (n.socket socket) := by
          rw [hc]
          exact table_forget_self fun f hf heq => hrank.inj (owner_of_flow hown hf) hs heq
        have hrelay : n.relay { r with table := r.table.forget t.client socket } =
            { n.relay r with table := (n.relay r).table.forget n.address (n.socket socket) } := by
          simp only [relay, hforget]
        refine (relay_endTask
          (r := { r with table := r.table.forget t.client socket }) hiff).trans ?_
        rw [hrelay]
        rfl
      · simp [effects, effect, notice, hc, task]
    · intro hc hne
      have hrelay : n.relay { r with table := r.table.forget t.client socket } = n.relay r := by
        simp [relay, table_forget_of_ne hc]
      refine Eq.trans ?_ hrelay
      exact relay_endTask_of_ne (r := { r with table := r.table.forget t.client socket }) hne

theorem mirrors_replyStop (hown : r.OwnedBy owners) (hrank : n.Ranks owners)
    (h : Transition closed r (.replyStop socket) turn) :
    n.Mirrors closed r (.replyStop socket) turn := by
  cases h with
  | replyStopped htask hphase hend =>
    refine mirrors_task hown hrank htask .replyStop rfl ?_ ?_
    · intro hc hiff htask'
      refine (Transition.replyStopped htask' hphase hend).congr (relay_endTask hiff) ?_ rfl
      simp [effects, effect, notice, hc, task]
    · exact fun _ hne => relay_endTask_of_ne hne

end Tasks

theorem relay_sweepNow (hown : r.OwnedBy owners) (hrank : n.Ranks owners) :
    n.relay r.sweepNow.next = (n.relay r).sweepNow.next := by
  have hgone := socket_mem_iff hown hrank (r.table.expired r.timeout r.now)
    fun _ he => List.mem_of_mem_filter he
  rw [table_expired] at hgone
  refine (relay_cancelTasks (r := { r with
    table := r.table.kept r.timeout r.now, nextSweep := r.sweepAfter }) hgone).trans ?_
  have hkept : n.table (r.table.kept r.timeout r.now) =
      (n.relay r).table.kept r.timeout r.now := table_kept _ _ _
  simp only [relay] at hkept ⊢
  rw [hkept]
  rfl

theorem effects_sweepNow (r : DatagramRelay) :
    n.effects (n.socket r.opened) r.sweepNow.effects = (n.relay r).sweepNow.effects := by
  have hgone : (n.relay r).table.expired (n.relay r).timeout (n.relay r).now =
      n.table (r.table.expired r.timeout r.now) := (table_expired _ _ _).symm
  simp only [sweepNow, Turn.on_effects, hgone, effects, table, List.filterMap_map,
    List.map_filterMap]
  apply List.filterMap_congr
  rintro ⟨client, f⟩ -
  by_cases hc : client = n.client
  · simp [effect, notice, hc]
  · simp [effect, notice, about_of_ne hc]

/-- Every step of the relay is nothing to the client, or a step of the client's part. -/
theorem mirrors_of_transition (hown : r.OwnedBy owners)
    (hrank : n.Ranks (owners ++ Moment.owners
      ⟨closed, r, .service (.datagram event), turn.effects, turn.next⟩))
    (h : Transition closed r event turn) : n.Mirrors closed r event turn := by
  have hrank' : n.Ranks owners := hrank.left
  cases event with
  | lookUp => exact mirrors_lookUp hown hrank h
  | send => exact mirrors_send h
  | replyReceive => exact mirrors_replyReceive hown hrank' h
  | refresh => exact mirrors_refresh hown hrank' h
  | replySend => exact mirrors_replySend hown hrank' h
  | forget => exact mirrors_forget hown hrank' h
  | replyStop => exact mirrors_replyStop hown hrank' h
  | advance d =>
    cases h with
    | advance => exact .inr ⟨_, rfl, .advance d⟩
  | sweep =>
    cases h with
    | sweep hloop hdue =>
      have hloop' : (n.relay r).loop = .waiting := by simp [relay, phase, hloop]
      exact .inr ⟨_, rfl, (Transition.sweep hloop' hdue).congr (relay_sweepNow hown hrank')
        (effects_sweepNow r) rfl⟩
  | receive result =>
    cases h with
    | @received client payload hloop =>
      have hloop' : (n.relay r).loop = .waiting := by simp [relay, phase, hloop]
      have hevent : n.event r (.receive (.ok (client, payload))) =
          n.about client (.receive (.ok (n.address, payload))) := rfl
      rw [Mirrors, hevent]
      by_cases hc : client = n.client
      · subst hc
        refine .inr ⟨_, n.about_self _, (Transition.received hloop').congr ?_ rfl rfl⟩
        simp [relay, phase]
      · refine .inl ⟨about_of_ne hc _, ?_⟩
        simp [relay, phase, hloop, hc]
    | receiveFailed hloop =>
      have hloop' : (n.relay r).loop = .waiting := by simp [relay, phase, hloop]
      exact .inr ⟨_, rfl, .receiveFailed hloop'⟩
  | stop =>
    cases h with
    | stopped hloop hclosed =>
      have hloop' : (n.relay r).loop = .waiting := by simp [relay, phase, hloop]
      exact .inr ⟨_, rfl, .stopped hloop' hclosed⟩
  | drain =>
    cases h with
    | @drained loopEnd hloop =>
      have hloop' : (n.relay r).loop = .draining loopEnd := by simp [relay, phase, hloop]
      refine .inr ⟨_, rfl, (Transition.drained hloop').congr ?_ rfl rfl⟩
      exact relay_cancelTasks (r := { r with loop := .ended, table := [] })
        (socket_mem_iff hown hrank' r.table fun _ he => he)

end Naming

end PortForward

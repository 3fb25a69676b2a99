import PortForward.Proofs.Datagram.Conservation
import PortForward.Proofs.Datagram.Removal
import PortForward.Proofs.Refusal.Network

/-!
# Refusals at a datagram proxy

The loop and a reply task share a socket, and a refusal that waits there is reported to whichever
of them calls first. The task goes on as if nothing had happened. The loop sends again, and by then
nothing waits at the socket, since only a datagram that is sent there can bring another refusal,
and the loop has sent none in between.
-/

namespace PortForward

open DatagramRelay

/-- What becomes of a datagram on the side of the backend. -/
def Dispatch.transmitted (d : Dispatch) : List (Nat × Bytes) :=
  match d.fate with
  | .sent socket => [(socket, d.payload)]
  | _ => []

namespace DatagramRelay

/-- A client has its entry, with an open socket; as long as the proxy is not closed, the task of
that socket is at work. -/
structure Keeps (closed : Bool) (r : DatagramRelay) (client : SocketAddress) (socket : Nat) :
    Prop where
  entry : (client, socket) ∈ r.table.ties
  opened : r.isOpen socket
  task : closed = false → ∃ t, r.task? socket = some t ∧ t.client = client ∧
    t.cancelled = false ∧ t.phase ≠ .forgetting

/-- Nothing waits at a socket on which the loop sends for the second time. -/
def RetriesClear (r : DatagramRelay) (n : Network) : Prop :=
  ∀ client payload socket, r.loop = .sending client payload socket true → n.refused socket = false

/-- What a run has done for its clients, whenever the backend was down. -/
structure Withstands (backend : SocketAddress) (timeout : Nat)
    (past : List (Moment DatagramRelay)) (scene : Scene) (r : DatagramRelay)
    (dispatches : List Dispatch) : Prop where
  unfailing : ∀ m ∈ past, m.event.callsBackend = true → errorLines m.effects = []
  datagrams : past.flatMap Moment.arrivals = dispatches.map Dispatch.datagram ++ r.inHand
  lookups : past.flatMap Moment.lookups = dispatches.map Dispatch.lookup ++ r.foundInHand
  forwards : past.flatMap Moment.forwards = dispatches.flatMap (Dispatch.effects backend)
  /-- each is sent on a socket of its client, unless none could be opened -/
  sent : ∀ d ∈ dispatches,
    (∃ socket, d.fate = .sent socket ∧ (d.client, socket) ∈ past.flatMap Moment.openings) ∨
      ∃ e, d.fate = .unopened e
  /-- once, and nothing else is -/
  transmitted : scene.network.sent.map (·.datagram) = dispatches.flatMap Dispatch.transmitted
  /-- a flow goes only for other reasons -/
  keeps : ∀ client socket, (client, socket) ∈ past.flatMap Moment.openings →
    r.Keeps scene.proxy.isClosed client socket ∨
      ∃ m ∈ past, ∃ flow, (client, flow) ∈ m.before.table ∧ flow.socket = socket ∧
        (m.event = .service (.datagram .sweep) ∧ timeout < m.before.now - flow.lastActivity ∨
          m.event = .service (.datagram .drain))
  passes : ∀ client payload socket retried, r.loop = .sending client payload socket retried →
    scene.Passes (fun answer => .service (.datagram (.send answer))) socket payload

variable {closed closed' : Bool} {r r' : DatagramRelay} {turn : Turn DatagramRelay}
variable {n n' : Network} {event : Event} {socket : Nat}

section Step

theorem Transition.transmissions_eq (h : Transition closed r event turn) :
    transmissions turn.effects = (r.call? event).toList.flatMap (·.transmitted) := by
  cases h with
  | sweep =>
    apply transmissions_eq_nil
    intro effect heffect
    obtain ⟨⟨client, flow⟩, -, rfl⟩ := List.mem_map.mp heffect
    exact ⟨_, rfl⟩
  | opened _ _ _ hnotices =>
    split at hnotices
    · obtain ⟨a, -, rfl⟩ := hnotices
      rfl
    · subst hnotices
      rfl
  | sent hloop | refusedOnce hloop | sendFailed hloop =>
    simp [call?, hloop, SocketCall.transmitted, transmissions, giveUp]
  | _ => rfl

/-- The second send finds no refusal, and a receive takes none amiss. -/
theorem Transition.errorLines_eq_nil (h : Transition closed r event turn)
    (hafter : n.after? (r.call? event) = some n') (hclear : r.RetriesClear n)
    (hcalls : event.callsBackend = true) : errorLines turn.effects = [] := by
  cases h with
  | @sendFailed client payload socket retried e hloop hretry =>
    simp only [call?, hloop] at hafter
    obtain ⟨hwaits, hkind, -⟩ := Network.of_send_error hafter
    have hretried : retried = true := by simpa [hkind] using hretry
    rw [hretried] at hloop
    cases (hclear client payload socket hloop).symm.trans hwaits
  | replyBroken _ _ hkind => exact absurd (Network.of_receive_error hafter) hkind
  | sent | refusedOnce | replyReceived | replyRefused => rfl
  | _ => cases hcalls

theorem Transition.retriesClear (h : Transition closed r event turn)
    (hafter : n.after? (r.call? event) = some n') (hclear : r.RetriesClear n) :
    turn.next.RetriesClear n' := by
  intro client payload socket hnext
  cases h with
  | received | receiveFailed | found | unopened | unnamed | opened | sent | sendFailed | stopped
  | drained => cases hnext
  | @refusedOnce client payload socket e hloop =>
    cases hnext
    simp only [call?, hloop] at hafter
    exact (Network.of_send_error hafter).2.2
  | _ => exact Network.clear_of_after? hafter (hclear client payload socket hnext) nofun

variable {past : List (Moment DatagramRelay)} {p q : Proxy} {effects : List Effect}

/-- What a run and the network have in common. -/
structure Spared (past : List (Moment DatagramRelay)) (r : DatagramRelay) (n : Network) :
    Prop where
  serves : n.Serves past
  unbroken : ∀ m ∈ past, ∀ socket, ¬ m.Breaks socket
  clear : r.RetriesClear n

theorem spared_fresh (backend : SocketAddress) (level : Level) (timeout : Nat) (up : Bool) :
    Spared [] (.fresh backend level timeout) (.fresh up) where
  serves := .fresh up
  unbroken _ hm := absurd hm List.not_mem_nil
  clear _ _ _ h := nomatch h

theorem Spared.passage {event : Proxy.Event} (h : Spared past r n) (hs : p.service = .datagram r)
    (hpass : Passage r closed event effects closed' r')
    (hafter : n.after? (p.call? event) = some n') :
    Spared (past ++ [⟨closed, r, event, effects, r'⟩]) r' n' := by
  have hcall : ∀ e, p.call? (.service (.datagram e)) = r.call? e := by
    intro e
    simp only [Proxy.call?, hs]
  refine ⟨h.serves.snoc hafter ?_ ?_, ?_, ?_⟩
  · intro hcalls
    cases hpass with
    | refused | started | closed => cases hcalls
    | moved ht =>
      rw [hcall] at hafter
      exact ht.errorLines_eq_nil hafter h.clear hcalls
    | finished ht hend =>
      cases ht with
      | drained => cases hcalls
      | _ => cases hend
  · cases hpass with
    | refused | started | closed => rfl
    | moved ht =>
      rw [hcall]
      exact ht.transmissions_eq
    | finished ht =>
      rw [hcall, transmissions_append, ht.transmissions_eq]
      exact List.append_nil _
  · intro m hm socket hbreaks
    rcases List.mem_append.mp hm with hm | hm
    · exact h.unbroken m hm socket hbreaks
    · cases List.mem_singleton.mp hm
      obtain ⟨e, hevent, hkind⟩ := hbreaks
      cases hevent
      rw [hcall] at hafter
      exact hkind (Network.of_receive_error hafter)
  · cases hpass with
    | refused | closed =>
      cases hafter
      exact h.clear
    | started => nofun
    | moved ht | finished ht =>
      rw [hcall] at hafter
      exact ht.retriesClear hafter h.clear

theorem sends_of_sending (hs : p.service = .datagram r) {client : SocketAddress} {payload : Bytes}
    {retried : Bool} (hloop : r.loop = .sending client payload socket retried) :
    p.Sends (fun answer => .service (.datagram (.send answer))) socket payload := by
  constructor
  case call?_eq =>
    intro answer
    simp only [Proxy.call?, hs, call?, hloop]
  case step => exact ⟨_, _, Proxy.step_of_transition hs (.sent hloop) rfl⟩

theorem passes_of_sending {scene : Scene} (hs : scene.proxy.service = .datagram r)
    (hclear : r.RetriesClear scene.network) {client : SocketAddress} {payload : Bytes}
    {retried : Bool} (hloop : r.loop = .sending client payload socket retried) :
    scene.Passes (fun answer => .service (.datagram (.send answer))) socket payload := by
  refine Scene.passes_of_sends (sends_of_sending hs hloop) ?_
  intro hwaits
  cases retried with
  | true => cases (hclear client payload socket hloop).symm.trans hwaits
  | false =>
    have hkind : (IoError.os 111).kind = .connectionRefused := rfl
    exact ⟨.os 111, _, _, hkind, Proxy.step_of_transition hs (.refusedOnce hloop hkind) rfl,
      sends_of_sending rfl rfl⟩

end Step

section History

variable {frontend : Address} {backend : SocketAddress} {level : Level} {timeout : Nat}
variable {past : List (Moment DatagramRelay)} {p : Proxy} {client : SocketAddress}

theorem keeps_of_history
    (h : History .datagram (.ofDatagrams frontend backend level timeout) past p r)
    (hunbroken : ∀ m ∈ past, ∀ socket, ¬ m.Breaks socket)
    (hentry : (client, socket) ∈ r.table.ties) : r.Keeps p.isClosed client socket := by
  obtain ⟨htracks, -⟩ := tracks_of_history h
  obtain ⟨flow, hflow, rfl⟩ := r.table.mem_ties.mp hentry
  refine ⟨hentry, ?_, ?_⟩
  · have hsocket : flow.socket ∈ r.table.sockets := List.mem_map_of_mem hflow
    simp [isOpen, hsocket]
  · intro hopen
    obtain ⟨t, ht, hclient, hrunning⟩ := htracks.exists_live hflow hopen
    refine ⟨t, ht, hclient, hrunning, ?_⟩
    intro hgiven
    obtain ⟨m, hm, hbreaks⟩ := broken_of_history h ((phaseOf_of_task ht).trans hgiven)
    exact hunbroken m hm _ hbreaks

theorem keeps_or_removed
    (h : History .datagram (.ofDatagrams frontend backend level timeout) past p r)
    (hunbroken : ∀ m ∈ past, ∀ socket, ¬ m.Breaks socket)
    (hopened : (client, socket) ∈ past.flatMap Moment.openings) :
    r.Keeps p.isClosed client socket ∨
      ∃ m ∈ past, ∃ flow, (client, flow) ∈ m.before.table ∧ flow.socket = socket ∧
        (m.event = .service (.datagram .sweep) ∧ timeout < m.before.now - flow.lastActivity ∨
          m.event = .service (.datagram .drain)) := by
  rcases stays_or_removed h hopened with hentry | ⟨early, m, late, flow, rfl, hflow, rfl, hremoval⟩
  · exact .inl (keeps_of_history h hunbroken hentry)
  · have hm : m ∈ early ++ m :: late := List.mem_append_right _ List.mem_cons_self
    refine .inr ⟨m, hm, flow, hflow, rfl, ?_⟩
    cases hremoval with
    | idle hsweep hidle => exact .inl ⟨hsweep, hidle⟩
    | broken _ _ _ hm' hbreaks => exact absurd hbreaks (hunbroken _ (List.mem_append_left _ hm') _)
    | finished hdrain => exact .inr hdrain

theorem transmissions_dispatches (ds : List Dispatch) :
    transmissions (ds.flatMap (Dispatch.effects backend)) = ds.flatMap Dispatch.transmitted := by
  unfold transmissions
  rw [List.flatMap_assoc]
  apply List.flatMap_congr
  intro d _
  unfold Dispatch.effects Dispatch.transmitted
  cases d.fate <;> rfl

theorem withstands_of_history {scene : Scene}
    (h : History .datagram (.ofDatagrams frontend backend level timeout) past scene.proxy r)
    (hspared : Spared past r scene.network) :
    ∃ dispatches, r.Withstands backend timeout past scene dispatches := by
  obtain ⟨ds, hds, hunsent⟩ := dealt_of_history h
  have hlookups : past.flatMap Moment.lookups = ds.map Dispatch.lookup ++ r.foundInHand :=
    hds.lookups
  refine ⟨ds, ?_⟩
  constructor
  case unfailing => exact hspared.serves.unfailing
  case datagrams => exact hds.datagrams
  case lookups => exact hlookups
  case forwards => exact hds.forwards
  case sent =>
    intro d hd
    cases hfate : d.fate with
    | unopened e => exact .inr ⟨e, rfl⟩
    | unsent socket e =>
      obtain ⟨m, hm, hevent, hreport⟩ := hunsent d hd socket e hfate
      have hquiet := hspared.serves.unfailing m hm (by rw [hevent]; rfl)
      have hline := List.flatMap_eq_nil_iff.mp hquiet _ hreport
      cases hline
    | sent socket =>
      have hlookup : (d.client, some socket) ∈ past.flatMap Moment.lookups := by
        rw [hlookups]
        refine List.mem_append_left _ (List.mem_map.mpr ⟨d, hd, ?_⟩)
        rw [Dispatch.lookup, hfate]
        rfl
      exact .inl ⟨socket, rfl, lookup_own_of_history h _ _ hlookup⟩
  case transmitted =>
    have hforwards : (past.flatMap (·.effects)).filter Effect.isForward =
        past.flatMap Moment.forwards := List.filter_flatMap ..
    rw [hspared.serves.sent_eq, ← transmissions_filter, hforwards, hds.forwards,
      transmissions_dispatches]
  case keeps => exact fun _ _ hopened => keeps_or_removed h hspared.unbroken hopened
  case passes =>
    exact fun _ _ _ _ hloop => passes_of_sending h.service_eq hspared.clear hloop

theorem spared_of_runAll {up : Bool} {events : List Scene.Event} {scene : Scene}
    (h : Scene.runAll ⟨.ofDatagrams frontend backend level timeout, .fresh up⟩ events =
      some scene) :
    ∃ past r, History .datagram (.ofDatagrams frontend backend level timeout) past scene.proxy r ∧
      past.map (·.event) = events.filterMap Scene.Event.proxy? ∧
      Spared past r scene.network := by
  have hservice : (Proxy.ofDatagrams frontend backend level timeout).service =
      .datagram (.fresh backend level timeout) := rfl
  refine Scene.exists_history Service.isKind_datagram hservice
    (spared_fresh backend level timeout up) ?_ ?_ h
  · exact fun up hspared =>
      ⟨⟨hspared.serves.unfailing, hspared.serves.sent_eq⟩, hspared.unbroken, hspared.clear⟩
  · intro past p r event q effects r' n n' hist hspared hstep hr' hafter
    obtain ⟨-, hphase⟩ := tracks_of_history hist
    obtain ⟨hpass, -⟩ := Proxy.passage_of_step hphase hist.service_eq hstep hr'
    exact hspared.passage hist.service_eq hpass hafter

end History

end DatagramRelay

end PortForward

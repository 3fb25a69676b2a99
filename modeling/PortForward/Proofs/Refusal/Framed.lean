import PortForward.Proofs.Framed.Refinement
import PortForward.Proofs.Refusal.Network

/-!
# Refusals at a framed proxy

A framed relay sends and receives on a socket of its own, and does one thing at a time: while it
sends it does not receive. A refusal is reported to whichever call comes next. The second send
finds none, since the relay has sent nothing in between and nobody else sends on its socket, so no
call on the side of the backend ever ends a relay.
-/

namespace PortForward

namespace FramedRelay

variable {backend : SocketAddress} {client : Nat} {peer : Address} {closed : Bool} {number : Nat}
variable {r r' : FramedRelay} {event : Event} {next : Option FramedRelay} {effects : List Effect}
variable {steps : List Step} {last : Step} {n n' : Network}

theorem Transition.transmissions_eq (h : Transition closed backend number r event next effects) :
    transmissions effects = (r.call? event).toList.flatMap (·.transmitted) := by
  cases h with
  | sent hphase | refusedOnce hphase | sendFailed hphase | received hphase | receiveRefused hphase
  | receiveFailed hphase => simp [call?, hphase, SocketCall.transmitted, transmissions]
  | _ => rfl

/-- A relay that a call on its backend socket ends says so. -/
theorem Transition.errorLines_of_ended (h : Transition closed backend number r event none effects)
    (hcalls : event.callsBackend = true) : errorLines effects ≠ [] := by
  cases h with
  | sendFailed | receiveFailed => exact List.cons_ne_nil _ _
  | _ => cases hcalls

theorem Transition.errorLines_of_call (h : Transition closed backend number r event next effects)
    (hafter : n.after? (r.call? event) = some n')
    (hclear : ∀ socket payload, r.phase = .sending socket payload true → n.refused socket = false)
    (hcalls : event.callsBackend = true) : errorLines effects = [] := by
  cases h with
  | @sendFailed socket payload retried e hphase hretry =>
    simp only [call?, hphase] at hafter
    obtain ⟨hwaits, hkind, -⟩ := Network.of_send_error hafter
    have hretried : retried = true := by simpa [hkind] using hretry
    rw [hretried] at hphase
    cases (hclear socket payload hphase).symm.trans hwaits
  | receiveFailed hphase hkind =>
    simp only [call?, hphase] at hafter
    exact absurd (Network.of_receive_error hafter) hkind
  | sent | refusedOnce | received | receiveRefused => rfl
  | _ => cases hcalls

/-- A relay sends for the second time only after a send that has taken the refusal away. -/
theorem Transition.clear_of_retry
    (h : Transition closed backend number r event (some r') effects)
    (hafter : n.after? (r.call? event) = some n') {socket : Nat} {payload : Bytes}
    (hphase' : r'.phase = .sending socket payload true) : n'.refused socket = false := by
  cases h with
  | refusedOnce hphase =>
    cases hphase'
    simp only [call?, hphase] at hafter
    exact (Network.of_send_error hafter).2.2
  | wrote =>
    dsimp only at hphase'
    split at hphase' <;> cases hphase'
  | ended hphase | read hphase | exhausted hphase | receiveRefused hphase =>
    cases hphase.symm.trans hphase'
  | _ => cases hphase'

theorem socket?_of_call {socket : Nat} {payload : Bytes} {answer : Except IoError Unit}
    (hcall : r.call? event = some (.send socket payload answer)) :
    r.phase.socket? = some socket := by
  unfold call? at hcall
  split at hcall
  · split at hcall
    · rename_i hphase
      cases hcall
      rw [hphase]
      rfl
    · cases hcall
  · split at hcall <;> cases hcall
  · cases hcall

/-- A relay that ends when it asks its decoder has sent all frames of its stream by then. -/
theorem payloads_of_last (h : Life backend (accepted client peer) steps none)
    (hlast : steps.getLast? = some last) (hdecode : last.event = .decode) :
    payloads (steps.flatMap (·.effects)) =
      (Decoder.empty.feed (steps.flatMap (·.event.bytes))).drain.1 := by
  obtain ⟨before, r, last', rfl, hlife, ht⟩ := exists_last_of_life h
  obtain rfl : last' = last := by simpa using hlast
  have haccount := account_of_life hlife rfl
  obtain ⟨⟨socket, hphase⟩, hdone, -⟩ := haccount.ending ht (by rw [hdecode]; rfl)
  rw [(haccount.conveyed_of_ended ht).decoded, hdone hdecode, List.append_nil,
    (haccount.of_waiting hphase).1, List.flatMap_append, List.flatMap_singleton, payloads_append,
    ht.silent.2.2.1, List.append_nil]

end FramedRelay

namespace FramedService

open FramedRelay (Step Conveyed)

/-- What a run and the network have in common. Nothing waits at a socket on which its relay sends
for the second time. -/
structure Spared (past : List (Moment FramedService)) (s : FramedService) (n : Network) :
    Prop where
  serves : n.Serves past
  clear : ∀ client r socket payload, s.relay? client = some r →
    r.phase = .sending socket payload true → n.refused socket = false

/-- What a run has done for its clients, whenever the backend was down. -/
structure Withstands (past : List (Moment FramedService)) (scene : Scene) (s : FramedService) :
    Prop where
  unfailing : ∀ m ∈ past, m.event.callsBackend = true → errorLines m.effects = []
  /-- a connection ends only for other reasons -/
  stays : ∀ client peer, (past.flatMap Moment.peers)[client]? = some peer →
    s.relay? client = none → ∃ last, (past.flatMap (·.steps client)).getLast? = some last ∧
      last.event.callsBackend = false
  /-- what a connection has sent on its socket are its frames, in order, and all of them once it is
  at rest or has ended with its stream -/
  conveyed : ∀ client peer socket, (past.flatMap Moment.peers)[client]? = some peer →
    (past.flatMap Moment.openers)[socket]? = some client →
    ∃ frames rest, Conveyed client peer (past.flatMap (·.steps client)) (s.relay? client)
        (scene.network.sentOn socket) (writtenTo client (past.flatMap (·.effects))) frames rest ∧
      ∀ last, s.relay? client = none →
        (past.flatMap (·.steps client)).getLast? = some last → last.event = .decode →
        scene.network.sentOn socket = frames
  one_socket : (past.flatMap Moment.openers).Nodup
  nothing_else : ∀ t ∈ scene.network.sent, t.socket < (past.flatMap Moment.openers).length
  passes : ∀ client r socket payload retried, s.relay? client = some r →
    r.phase = .sending socket payload retried →
    scene.Passes (fun answer => .service (.framed (.relay client (.send answer)))) socket payload

variable {backend : SocketAddress} {past : List (Moment FramedService)} {s s' : FramedService}
variable {n n' : Network} {p : Proxy} {event : Proxy.Event} {effects : List Effect}
variable {client : Nat} {peer : Address}

theorem Spared.passage (h : Spared past s n) (hconnected : Connected backend past s)
    (hs : p.service = .framed s) (hpass : Passage p.isClosed s event effects s')
    (hafter : n.after? (p.call? event) = some n') :
    Spared (past ++ [⟨p.isClosed, s, event, effects, s'⟩]) s' n' := by
  have hcall : ∀ e, p.call? (.service (.framed e)) = s.call? e := by
    intro e
    simp only [Proxy.call?, hs]
  cases hpass with
  | refused | started | closed =>
    refine ⟨h.serves.snoc hafter nofun rfl, ?_⟩
    cases hafter
    exact h.clear
  | failed | stopped =>
    rw [hcall] at hafter
    refine ⟨h.serves.snoc hafter nofun rfl, ?_⟩
    cases hafter
    exact h.clear
  | accepted =>
    rw [hcall] at hafter
    refine ⟨h.serves.snoc hafter nofun rfl, ?_⟩
    cases hafter
    intro client r socket payload hr hphase
    rw [relay?_accepted hconnected.numbered] at hr
    split at hr
    · cases hr
      cases hphase
    · exact h.clear client r socket payload hr hphase
  | @moved client event r next effects hr ht =>
    have hcalled : s.call? (.relay client event) = r.call? event := by
      simp only [call?, hr, Option.bind_some]
    have hnext : ∀ r', next = some r' → r'.client = client :=
      fun r' hr' => (ht.keeps hr').1.trans (client_of_relay? hr)
    rw [hcall, hcalled] at hafter
    refine ⟨h.serves.snoc hafter ?_ ht.transmissions_eq, ?_⟩
    · exact ht.errorLines_of_call hafter fun socket payload => h.clear client r socket payload hr
    · intro other r' socket payload hr' hphase
      rw [relay?_countOpened] at hr'
      by_cases hother : other = client
      · subst hother
        rw [relay?_replace_self hr hnext] at hr'
        subst hr'
        exact ht.clear_of_retry hafter hphase
      · -- The relay that moves sends on another socket.
        rw [relay?_replace_of_ne hother hnext] at hr'
        refine Network.clear_of_after? hafter (h.clear other r' socket payload hr' hphase) ?_
        intro payload' hsend
        have hsocket : r'.phase.socket? = some socket := by
          rw [hphase]
          rfl
        have howner := hconnected.opener_of_socket hr (FramedRelay.socket?_of_call hsend)
        have howner' := hconnected.opener_of_socket hr' hsocket
        exact hother (Option.some.inj (howner'.symm.trans howner))

theorem sends_of_sending {r : FramedRelay} {socket : Nat} {payload : Bytes} {retried : Bool}
    (hs : p.service = .framed s) (hr : s.relay? client = some r)
    (hphase : r.phase = .sending socket payload retried) :
    p.Sends (fun answer => .service (.framed (.relay client (.send answer)))) socket payload := by
  constructor
  case call?_eq =>
    intro answer
    simp only [Proxy.call?, hs, call?, hr, Option.bind_some, FramedRelay.call?, hphase]
  case step =>
    exact ⟨_, _, step_connection hs hr (by simp only [FramedRelay.step, hphase]; rfl)⟩

theorem passes_of_sending {scene : Scene} {r : FramedRelay} {socket : Nat} {payload : Bytes}
    {retried : Bool} (hs : scene.proxy.service = .framed s) (hspared : Spared past s scene.network)
    (hr : s.relay? client = some r) (hphase : r.phase = .sending socket payload retried) :
    scene.Passes (fun answer => .service (.framed (.relay client (.send answer)))) socket
      payload := by
  refine Scene.passes_of_sends (sends_of_sending hs hr hphase) ?_
  intro hwaits
  cases retried with
  | true => cases (hspared.clear client r socket payload hr hphase).symm.trans hwaits
  | false =>
    have hkind : (IoError.os 111).kind = .connectionRefused := rfl
    let r' : FramedRelay := { r with phase := .sending socket payload true }
    have hclient : r.client = client := client_of_relay? hr
    have hstep : r.step scene.proxy.isClosed s.backend s.opened (.send (.error (.os 111))) =
        some (some r', []) := by
      simp [FramedRelay.step, hphase, hkind, r']
    have hr' : ((s.replace client (some r')).countOpened (.send (.error (.os 111)))).relay? client =
        some r' := by
      rw [relay?_countOpened, relay?_replace_self hr]
      rintro _ ⟨⟩
      exact hclient
    exact ⟨.os 111, _, _, hkind, step_connection hs hr hstep, sends_of_sending rfl hr' rfl⟩

theorem stays_of_connected (h : Connected backend past s)
    (hquiet : ∀ m ∈ past, m.event.callsBackend = true → errorLines m.effects = [])
    (hpeer : (past.flatMap Moment.peers)[client]? = some peer) (hgone : s.relay? client = none) :
    ∃ last, (past.flatMap (·.steps client)).getLast? = some last ∧
      last.event.callsBackend = false := by
  have hlife := h.life client peer hpeer
  rw [hgone] at hlife
  obtain ⟨before, r, last, hsteps, -, ht⟩ := FramedRelay.exists_last_of_life hlife
  refine ⟨last, by rw [hsteps, List.getLast?_concat], ?_⟩
  by_contra hcalls
  rw [Bool.not_eq_false] at hcalls
  have hlast : last ∈ past.flatMap (·.steps client) := by
    rw [hsteps]
    exact List.mem_append_right _ List.mem_cons_self
  obtain ⟨m, hm, hmem⟩ := List.mem_flatMap.mp hlast
  obtain ⟨event, hevent, hown⟩ := Moment.event_of_steps (List.ne_nil_of_mem hmem)
  rw [hown] at hmem
  cases List.mem_singleton.mp hmem
  exact ht.errorLines_of_ended hcalls (hquiet m hm (by rw [hevent]; exact hcalls))

theorem withstands_of_history {frontend : Address} {scene : Scene}
    (h : History .framed (.bound frontend (.framed (.idle backend))) past scene.proxy s)
    (hspared : Spared past s scene.network) : s.Withstands past scene := by
  have hconnected := connected_of_history h
  constructor
  case unfailing => exact hspared.serves.unfailing
  case stays => exact fun _ _ => stays_of_connected hconnected hspared.serves.unfailing
  case conveyed =>
    intro client peer socket hpeer hopener
    have hlife := hconnected.life client peer hpeer
    obtain ⟨frames, rest, hconveyed⟩ := FramedRelay.conveyed_of_life hlife
    rw [hspared.serves.sentOn_eq, hconnected.sentOn_eq hopener, hconnected.writtenTo_eq]
    refine ⟨frames, rest, hconveyed, ?_⟩
    intro last hgone hlast hdecode
    rw [hgone] at hlife
    exact (FramedRelay.payloads_of_last hlife hlast hdecode).trans hconveyed.decoded
  case one_socket => exact hconnected.nodup_openers
  case nothing_else =>
    intro t ht
    have hmem : t.datagram ∈ transmissions (past.flatMap (·.effects)) := by
      rw [← hspared.serves.sent_eq]
      exact List.mem_map_of_mem ht
    exact hconnected.nothing_else (mem_transmissions.mp hmem)
  case passes => exact fun _ _ _ _ _ => passes_of_sending h.service_eq hspared

theorem spared_of_runAll {frontend : Address} {up : Bool} {events : List Scene.Event}
    {scene : Scene}
    (h : Scene.runAll ⟨.bound frontend (.framed (.idle backend)), .fresh up⟩ events = some scene) :
    ∃ past s, History .framed (.bound frontend (.framed (.idle backend))) past scene.proxy s ∧
      past.map (·.event) = events.filterMap Scene.Event.proxy? ∧
      Spared past s scene.network := by
  refine Scene.exists_history Service.isKind_framed rfl ⟨.fresh up, nofun⟩ ?_ ?_ h
  · exact fun up hspared => ⟨⟨hspared.serves.unfailing, hspared.serves.sent_eq⟩, hspared.clear⟩
  · intro past p s event q effects s' n n' hist hspared hstep hs' hafter
    have hpass := Proxy.framedPassage_of_step hist.service_eq hstep hs'
    exact hspared.passage (connected_of_history hist) hist.service_eq hpass hafter

end FramedService

end PortForward

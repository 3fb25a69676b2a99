import Mathlib.Data.List.Nodup
import PortForward.Proofs.Framed.Settling

/-!
# A framed proxy refines the codec

Whatever is read in whatever chunks, and however the steps of all connections follow one
another, each connection passes on the complete frames of its own stream, on a socket of its
own, and frames for its own client. What holds of the life of one relay is carried over to the
whole run: no other relay sends on its socket or writes to its client.
-/

namespace PortForward

open FramedRelay (Step Life Conveyed)

namespace Moment

variable {m : Moment FramedService} {client other : Nat}

theorem event_of_steps (h : m.steps client ≠ []) :
    ∃ event, m.event = .service (.framed (.relay client event)) ∧
      m.steps client = [⟨m.closed, m.before.opened, event, m.effects⟩] := by
  unfold steps at h ⊢
  split at h
  · rename_i i event hevent
    split at h
    · rename_i hi
      subst hi
      exact ⟨event, hevent, by simp⟩
    · exact absurd rfl h
  · exact absurd rfl h

theorem effects_of_steps (h : m.steps client ≠ []) :
    (m.steps client).flatMap (·.effects) = m.effects := by
  obtain ⟨event, -, hsteps⟩ := event_of_steps h
  rw [hsteps, List.flatMap_singleton]

theorem client_unique (h : m.steps client ≠ []) (h' : m.steps other ≠ []) :
    client = other := by
  obtain ⟨event, hevent, -⟩ := event_of_steps h
  obtain ⟨event', hevent', -⟩ := event_of_steps h'
  cases hevent.symm.trans hevent'
  rfl

end Moment

/-- What a framed proxy may do that has accepted so many clients and opened so many sockets. -/
def Effect.Within (clients sockets : Nat) : Effect → Prop
  | log _ => True
  | transmit socket _ => socket < sockets
  | deliver client side _ => client < clients ∧ side = .client
  | release client => client < clients
  | _ => False

namespace FramedService

/-- What a run of a framed proxy has done for its connections: for those that have a socket and
those that have none, and for nobody else. -/
structure Refines (past : List (Moment FramedService)) (p : Proxy) (s : FramedService) : Prop where
  one_socket : (past.flatMap Moment.openers).Nodup
  accepted : ∀ client ∈ past.flatMap Moment.openers, client < (past.flatMap Moment.peers).length
  conveyed : ∀ client peer socket, (past.flatMap Moment.peers)[client]? = some peer →
    (past.flatMap Moment.openers)[socket]? = some client →
    ∃ frames rest, Conveyed client peer (past.flatMap (·.steps client)) (s.relay? client)
      (sentOn socket (past.flatMap (·.effects))) (writtenTo client (past.flatMap (·.effects)))
      frames rest
  unopened : ∀ client, client ∉ past.flatMap Moment.openers →
    (past.flatMap (·.steps client)).flatMap (·.event.bytes) = [] ∧
    (past.flatMap (·.steps client)).flatMap (·.event.replies) = [] ∧
    writtenTo client (past.flatMap (·.effects)) = []
  nothing_else : ∀ effect ∈ past.flatMap (·.effects),
    effect.Within (past.flatMap Moment.peers).length (past.flatMap Moment.openers).length
  settles : ∀ client r, s.relay? client = some r → ∃ own q s' late,
    (∀ event ∈ own, event.isOwn = true ∧ event.failure? = none) ∧
    p.runAll (ofConnection client own) = some (q, late) ∧ q.service = .framed s' ∧
    ∀ r', s'.relay? client = some r' → r'.AtRest
  receptive : ∀ client r, s.relay? client = some r → r.AtRest → ∀ bytes payload,
    (p.step (.service (.framed (.relay client (.read (.ok bytes)))))).isSome ∧
    (p.step (.service (.framed (.relay client (.receive (.ok payload)))))).isSome

variable {backend : SocketAddress} {past : List (Moment FramedService)} {s : FramedService}
variable {m : Moment FramedService} {client socket : Nat}

section Connected

variable (h : Connected backend past s)
include h

theorem Connected.client_lt_of_steps (hm : m ∈ past) (hsteps : m.steps client ≠ []) :
    client < (past.flatMap Moment.peers).length := by
  rw [← h.accepted_eq]
  by_contra hle
  have hnone := h.unborn client (by omega)
  exact hsteps (List.flatMap_eq_nil_iff.mp hnone m hm)

theorem Connected.client_lt_of_opener
    (hopener : (past.flatMap Moment.openers)[socket]? = some client) :
    client < (past.flatMap Moment.peers).length := by
  rw [← h.accepted_eq]
  by_contra hle
  have hmem := (h.sockets client socket).mpr hopener
  rw [h.unborn client (by omega)] at hmem
  exact List.not_mem_nil hmem

theorem Connected.socket_unique {socket' : Nat}
    (hopener : (past.flatMap Moment.openers)[socket]? = some client)
    (hopener' : (past.flatMap Moment.openers)[socket']? = some client) : socket = socket' := by
  have hpeer := List.getElem?_eq_getElem (h.client_lt_of_opener hopener)
  have hone := FramedRelay.length_sockets_of_life (h.life client _ hpeer)
  have hmem := (h.sockets client socket).mpr hopener
  have hmem' := (h.sockets client socket').mpr hopener'
  generalize (past.flatMap (·.steps client)).flatMap Step.sockets = sockets at hone hmem hmem'
  match sockets, hone with
  | [], _ => exact absurd hmem List.not_mem_nil
  | [_], _ => exact (List.mem_singleton.mp hmem).trans (List.mem_singleton.mp hmem').symm

theorem Connected.nodup_openers : (past.flatMap Moment.openers).Nodup := by
  apply List.nodup_iff_getElem?_ne_getElem?.mpr
  intro i j hlt hj heq
  rw [List.getElem?_eq_getElem hj] at heq
  have hsame := h.socket_unique heq (List.getElem?_eq_getElem hj)
  omega

/-- All that goes out on the socket of a connection is sent by its relay. -/
theorem Connected.sentOn_eq (hopener : (past.flatMap Moment.openers)[socket]? = some client) :
    sentOn socket (past.flatMap (·.effects)) =
      payloads ((past.flatMap (·.steps client)).flatMap (·.effects)) := by
  have hmoment : ∀ m ∈ past, sentOn socket m.effects =
      payloads ((m.steps client).flatMap (·.effects)) := by
    intro m hm
    -- A step of another connection sends on the socket of that one.
    by_cases hsteps : m.steps client = []
    · rw [hsteps]
      apply sentOn_eq_nil
      rintro _ payload heffect rfl
      obtain ⟨i, hi, howner⟩ := h.keepsTo m hm _ heffect
      cases hopener.symm.trans howner
      exact hi hsteps
    · rw [Moment.effects_of_steps hsteps]
      apply sentOn_eq_payloads
      intro s' payload heffect
      obtain ⟨i, hi, howner⟩ := h.keepsTo m hm _ heffect
      rw [Moment.client_unique hi hsteps] at howner
      exact h.socket_unique howner hopener
  rw [sentOn_flatMap, List.flatMap_assoc, payloads_flatMap]
  exact List.flatMap_congr hmoment

theorem Connected.writtenTo_eq (client : Nat) :
    writtenTo client (past.flatMap (·.effects)) =
      writtenTo client ((past.flatMap (·.steps client)).flatMap (·.effects)) := by
  have hmoment : ∀ m ∈ past, writtenTo client m.effects =
      writtenTo client ((m.steps client).flatMap (·.effects)) := by
    intro m hm
    by_cases hsteps : m.steps client = []
    · rw [hsteps]
      apply writtenTo_eq_nil
      rintro _ side bytes heffect rfl
      exact (h.keepsTo m hm _ heffect).1 hsteps
    · rw [Moment.effects_of_steps hsteps]
  rw [writtenTo_flatMap, List.flatMap_assoc, writtenTo_flatMap]
  exact List.flatMap_congr hmoment

theorem Connected.unopened (hnone : client ∉ past.flatMap Moment.openers) :
    (past.flatMap (·.steps client)).flatMap (·.event.bytes) = [] ∧
    (past.flatMap (·.steps client)).flatMap (·.event.replies) = [] ∧
    writtenTo client (past.flatMap (·.effects)) = [] := by
  rw [h.writtenTo_eq]
  by_cases hlt : client < (past.flatMap Moment.peers).length
  · have hlife := h.life client _ (List.getElem?_eq_getElem hlt)
    have hsockets : (past.flatMap (·.steps client)).flatMap Step.sockets = [] := by
      apply List.eq_nil_iff_forall_not_mem.mpr
      intro socket hmem
      exact hnone (List.mem_of_getElem? ((h.sockets client socket).mp hmem))
    obtain ⟨hbytes, hreplies⟩ := FramedRelay.no_input_of_life hlife hsockets
    obtain ⟨frames, rest, hconveyed⟩ := FramedRelay.conveyed_of_life hlife
    have hprefix := hconveyed.written_prefix
    rw [hreplies] at hprefix
    exact ⟨hbytes, hreplies, List.prefix_nil.mp hprefix⟩
  · rw [h.unborn client (by rw [h.accepted_eq]; omega)]
    exact ⟨rfl, rfl, rfl⟩

theorem Connected.nothing_else {effect : Effect} (heffect : effect ∈ past.flatMap (·.effects)) :
    effect.Within (past.flatMap Moment.peers).length (past.flatMap Moment.openers).length := by
  obtain ⟨m, hm, heffect⟩ := List.mem_flatMap.mp heffect
  have hown := h.keepsTo m hm effect heffect
  cases effect with
  | log n => trivial
  | transmit socket payload =>
    obtain ⟨client, -, hopener⟩ := hown
    exact (List.getElem?_eq_some_iff.mp hopener).1
  | deliver client side bytes => exact ⟨h.client_lt_of_steps hm hown.1, hown.2⟩
  | release client => exact h.client_lt_of_steps hm hown
  | _ => exact hown

end Connected

end FramedService

open FramedService

/-- Whatever a framed proxy goes through, each of its connections has sent just the complete
frames of what its client wrote, once it is at rest or has ended with no failure, and has
written back just the frames of the replies on its own socket. -/
theorem refines_codec_of_runAll {frontend : Address} {backend : SocketAddress} {p : Proxy}
    {events : List Proxy.Event} {effects : List Effect}
    (h : (Proxy.bound frontend (.framed (.idle backend))).runAll events = some (p, effects)) :
    ∃ past s, History .framed (.bound frontend (.framed (.idle backend))) past p s ∧
      past.map (·.event) = events ∧ past.flatMap (·.effects) = effects ∧ Refines past p s := by
  obtain ⟨past, s, hist, hevents, heffects⟩ := exists_history Service.isKind_framed rfl h
  have hconnected := connected_of_history hist
  refine ⟨past, s, hist, hevents, heffects, ?_⟩
  constructor
  case one_socket => exact hconnected.nodup_openers
  case accepted =>
    intro client hmem
    obtain ⟨socket, hsocket⟩ := List.mem_iff_getElem?.mp hmem
    exact hconnected.client_lt_of_opener hsocket
  case conveyed =>
    intro client peer socket hpeer hopener
    rw [hconnected.sentOn_eq hopener, hconnected.writtenTo_eq]
    exact FramedRelay.conveyed_of_life (hconnected.life client peer hpeer)
  case unopened => exact fun client hnone => hconnected.unopened hnone
  case nothing_else => exact fun effect heffect => hconnected.nothing_else heffect
  case settles => exact fun client r hr => exists_settled hist hr
  case receptive =>
    intro client r hr hrest bytes payload
    exact step_of_atRest hist.service_eq hr hrest bytes payload

/-- A frame comes in three pieces, the first of which ends inside its header, with a reply in
between; another connection sends an empty frame and ends at an oversized header. -/
theorem refines_codec_interleaved :
    let frontend : Address := .vsock ⟨.any, 53⟩
    let backend : SocketAddress := .v4 .loopback 5353
    let first : Address := .vsock ⟨.id 3, 1024⟩
    let second : Address := .vsock ⟨.id 4, 1024⟩
    let events : List Proxy.Event :=
      [.run, .service (.framed (.accept (.ok first)))] ++
      ofConnection 0 [.announce, .opened (.ok ()), .read (.ok [3]), .decode] ++
      [.service (.framed (.accept (.ok second)))] ++
      ofConnection 1 [.announce, .opened (.ok ()), .read (.ok [0, 0, 255, 255]), .decode] ++
      ofConnection 0 [.receive (.ok [7, 8]), .write (.ok 3)] ++
      ofConnection 1 [.send (.ok ()), .decode] ++
      ofConnection 0 [.write (.ok 1), .read (.ok [0, 97]), .decode, .read (.ok [98, 99, 1]),
        .decode, .send (.error (.os 111)), .send (.ok ()), .decode, .read (.ok []), .decode]
    let effects : List Effect :=
      [.log (.datagramRunning frontend (.datagram backend)), .log (.framedAccepted first),
        .log (.framedAccepted second), .deliver 0 .client [2, 0, 7], .transmit 1 [],
        .log (.framedForwarded 0 backend),
        .log (.framedFailed second FrameError.oversizedHeader.toIoError), .release 1,
        .deliver 0 .client [8], .transmit 0 [97, 98, 99], .log (.framedForwarded 3 backend),
        .log (.framedFailed first FrameError.truncated.toIoError), .release 0]
    let made := Proxy.bound frontend (.framed (.idle backend))
    ∃ p, made.runAll events = some (p, effects) ∧
      ∃ past s, History .framed made past p s ∧ past.map (·.event) = events ∧
        past.flatMap (·.effects) = effects ∧ Refines past p s := by
  intro frontend backend first second events effects made
  have hfinal : (made.runAll events).map Prod.snd = some effects := by decide +kernel
  obtain ⟨⟨p, shown⟩, hrun, rfl⟩ := Option.map_eq_some_iff.mp hfinal
  exact ⟨p, hrun, refines_codec_of_runAll hrun⟩

end PortForward

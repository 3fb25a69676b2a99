import Mathlib.Data.List.TakeDrop
import PortForward.Proofs.Datagram.Conservation
import PortForward.Proofs.Framed.Refinement

/-!
# What does not fit into a buffer

Datagrams and replies are received into buffers of `maxPayload` bytes, and what is behind those
is lost without a word: the rest is passed on as if it were the whole. So a payload is passed on
whole just if it has no more than `maxPayload` bytes, as every datagram over IPv4 does; over IPv6
a datagram may have twenty more. Frames are never cut, since a longer one is refused.
-/

namespace PortForward

/-- What is received of a payload. -/
def carried (payload : Bytes) : Bytes := payload.take maxPayload

theorem carried_eq_self_iff (payload : Bytes) : carried payload = payload ↔
    payload.length ≤ maxPayload := List.take_eq_self_iff payload

namespace Moment

/-- The datagram that a step receives, as its client has sent it. -/
def sentDatagrams (m : Moment DatagramRelay) : List (SocketAddress × Bytes) :=
  match m.event with
  | .service (.datagram (.receive (.ok datagram))) => [datagram]
  | _ => []

/-- The reply that a step receives on a socket, as the backend has sent it. -/
def sentReplies (m : Moment DatagramRelay) (socket : Nat) : List Bytes :=
  match m.event with
  | .service (.datagram (.replyReceive s (.ok payload))) => if s = socket then [payload] else []
  | _ => []

theorem arrivals_eq (m : Moment DatagramRelay) :
    m.arrivals = m.sentDatagrams.map fun (client, payload) => (client, carried payload) := by
  unfold arrivals sentDatagrams
  split
  · rename_i heq
    rw [heq]
    rfl
  · rename_i hnot
    split
    · exact absurd ‹_› (hnot _ _)
    · rfl

theorem replies_eq (m : Moment DatagramRelay) (socket : Nat) :
    m.replies socket = (m.sentReplies socket).map carried := by
  unfold replies sentReplies
  cases m.event with
  | service event =>
    cases event with
    | datagram event =>
      cases event with
      | replyReceive s result =>
        cases result with
        | ok payload =>
          by_cases hs : s = socket
          · simp [hs, carried]
          · simp [hs]
        | error => rfl
      | _ => rfl
    | _ => rfl
  | _ => rfl

end Moment

namespace FramedRelay

/-- The reply that is received with an event, as the backend has sent it. -/
def Event.sentReplies : Event → List Bytes
  | .receive (.ok payload) => [payload]
  | _ => []

theorem Event.replies_eq (event : Event) : event.replies = event.sentReplies.map carried := by
  cases event with
  | receive result => cases result <;> rfl
  | _ => rfl

end FramedRelay

/-- What a datagram proxy has sent and reported is what became of the datagrams and the replies,
as far as they were received. -/
structure DatagramRelay.Carries (backend : SocketAddress) (past : List (Moment DatagramRelay))
    (dispatches : List Dispatch) (answers : Nat → List Answer) : Prop where
  datagrams : dispatches.map Dispatch.datagram <+:
    (past.flatMap Moment.sentDatagrams).map fun (client, payload) => (client, carried payload)
  forwards : past.flatMap Moment.forwards = dispatches.flatMap (Dispatch.effects backend)
  replies : ∀ s, (answers s).map Answer.payload <+:
    (past.flatMap (Moment.sentReplies · s)).map carried
  answered : ∀ s, past.flatMap (Moment.answers · s) = (answers s).flatMap Answer.effects
  nothing_else : ∀ m ∈ past, ∀ effect ∈ m.effects,
    effect ∈ m.forwards ∨ (∃ s, effect ∈ m.answers s) ∨ effect.isAside

/-- A framed proxy has sent whole frames, and has framed the replies as far as they were
received. -/
structure FramedService.Carries (past : List (Moment FramedService)) : Prop where
  frames : ∀ (client : Nat) peer socket, (past.flatMap Moment.peers)[client]? = some peer →
    (past.flatMap Moment.openers)[socket]? = some client →
    ∃ frames rest,
      Frame.Splits ((past.flatMap (·.steps client)).flatMap (·.event.bytes)) frames rest ∧
      sentOn socket (past.flatMap (·.effects)) <+: frames
  replies : ∀ client, writtenTo client (past.flatMap (·.effects)) <+: Frame.encodeAll
    (((past.flatMap (·.steps client)).flatMap (·.event.sentReplies)).map carried)
  nothing_else : ∀ effect ∈ past.flatMap (·.effects),
    effect.Within (past.flatMap Moment.peers).length (past.flatMap Moment.openers).length

theorem DatagramRelay.Conserves.carries {backend : SocketAddress}
    {past : List (Moment DatagramRelay)} {r : DatagramRelay} {dispatches : List Dispatch}
    {answers : Nat → List Answer} (h : Conserves backend past r dispatches answers) :
    Carries backend past dispatches answers := by
  have harrivals : past.flatMap Moment.arrivals =
      (past.flatMap Moment.sentDatagrams).map fun (client, payload) =>
        (client, carried payload) := by
    rw [List.map_flatMap]
    exact List.flatMap_congr fun m _ => m.arrivals_eq
  have hreplies : ∀ s, past.flatMap (Moment.replies · s) =
      (past.flatMap (Moment.sentReplies · s)).map carried := by
    intro s
    rw [List.map_flatMap]
    exact List.flatMap_congr fun m _ => m.replies_eq s
  constructor
  case datagrams =>
    rw [← harrivals, h.datagrams]
    exact List.prefix_append _ _
  case forwards => exact h.forwards
  case replies =>
    intro s
    rw [← hreplies, h.replies]
    exact List.prefix_append _ _
  case answered => exact h.answered
  case nothing_else => exact h.nothing_else

theorem FramedService.Connected.carries {backend : SocketAddress}
    {past : List (Moment FramedService)} {s : FramedService} (h : Connected backend past s) :
    Carries past := by
  have hreplies : ∀ client, (past.flatMap (·.steps client)).flatMap (·.event.replies) =
      ((past.flatMap (·.steps client)).flatMap (·.event.sentReplies)).map carried := by
    intro client
    rw [List.map_flatMap]
    exact List.flatMap_congr fun step _ => step.event.replies_eq
  constructor
  case frames =>
    intro client peer socket hpeer hopener
    obtain ⟨frames, rest, hconveyed⟩ :=
      FramedRelay.conveyed_of_life (h.life client peer hpeer)
    refine ⟨frames, rest, hconveyed.splits, ?_⟩
    rw [h.sentOn_eq hopener]
    exact hconveyed.sent_prefix
  case replies =>
    intro client
    rw [← hreplies]
    by_cases hopened : client ∈ past.flatMap Moment.openers
    · obtain ⟨socket, hopener⟩ := List.mem_iff_getElem?.mp hopened
      have hpeer := List.getElem?_eq_getElem (h.client_lt_of_opener hopener)
      obtain ⟨frames, rest, hconveyed⟩ :=
        FramedRelay.conveyed_of_life (h.life client _ hpeer)
      rw [h.writtenTo_eq]
      exact hconveyed.written_prefix
    · rw [(h.unopened hopened).2.2]
      exact List.nil_prefix
  case nothing_else => exact fun effect heffect => h.nothing_else heffect

/-- In all runs a proxy passes on the first `maxPayload` bytes of each payload, which are all of it
unless it is longer; a frame is passed on whole. -/
theorem carries_of_runAll {frontend : Address} {backend : SocketAddress}
    {events : List Proxy.Event} {effects : List Effect} {p : Proxy} :
    (∀ payload, carried payload = payload ↔ payload.length ≤ maxPayload) ∧
    (∀ {level : Level} {timeout : Nat},
      (Proxy.ofDatagrams frontend backend level timeout).runAll events = some (p, effects) →
      ∃ past r dispatches answers,
        History .datagram (.ofDatagrams frontend backend level timeout) past p r ∧
        past.map (·.event) = events ∧ past.flatMap (·.effects) = effects ∧
        DatagramRelay.Carries backend past dispatches answers) ∧
    ((Proxy.bound frontend (.framed (.idle backend))).runAll events = some (p, effects) →
      ∃ past s, History .framed (.bound frontend (.framed (.idle backend))) past p s ∧
        past.map (·.event) = events ∧ past.flatMap (·.effects) = effects ∧
        FramedService.Carries past) := by
  refine ⟨carried_eq_self_iff, ?_, ?_⟩
  · intro level timeout hrun
    obtain ⟨past, r, hist, hevents, heffects⟩ := exists_history Service.isKind_datagram rfl hrun
    obtain ⟨dispatches, answers, hbooks⟩ := conserves_of_history hist
    exact ⟨past, r, dispatches, answers, hist, hevents, heffects, hbooks.carries⟩
  · intro hrun
    obtain ⟨past, s, hist, hevents, heffects⟩ := exists_history Service.isKind_framed rfl hrun
    exact ⟨past, s, hist, hevents, heffects, (FramedService.connected_of_history hist).carries⟩

/-- A datagram and its reply through a datagram proxy, and a frame and its reply through a framed
one. -/
theorem carries_both_ways :
    let backend : SocketAddress := .v4 .loopback 5353
    let client : SocketAddress := .v4 .loopback 5001
    let peer : Address := .vsock ⟨.id 3, 1024⟩
    let opening : Opening := ⟨.ok (), .ok (.v4 .loopback 6000)⟩
    let datagrams : List Proxy.Event := .run :: ofRelay [.sweep, .receive (.ok (client, [1, 2])),
      .lookUp opening, .send (.ok ()), .replyReceive 0 (.ok [3]), .refresh 0, .replySend 0 (.ok ())]
    let frames : List Proxy.Event :=
      [.run, .service (.framed (.accept (.ok peer)))] ++
      ofConnection 0 [.announce, .opened (.ok ()), .read (.ok [2, 0, 1, 2]), .decode,
        .send (.ok ()), .receive (.ok [3]), .write (.ok 3)]
    let made := Proxy.ofDatagrams (.datagram (.v4 .loopback 53)) backend .warn DatagramRelay.defaultTimeout
    let framed := Proxy.bound (.vsock ⟨.any, 53⟩) (.framed (.idle backend))
    (∃ p effects, made.runAll datagrams = some (p, effects) ∧
      .transmit 0 [1, 2] ∈ effects ∧ .reply client [3] ∈ effects ∧
      ∃ past r dispatches answers, History .datagram made past p r ∧
        past.map (·.event) = datagrams ∧ past.flatMap (·.effects) = effects ∧
        DatagramRelay.Carries backend past dispatches answers) ∧
    ∃ p effects, framed.runAll frames = some (p, effects) ∧
      .transmit 0 [1, 2] ∈ effects ∧ .deliver 0 .client [1, 0, 3] ∈ effects ∧
      ∃ past s, History .framed framed past p s ∧ past.map (·.event) = frames ∧
        past.flatMap (·.effects) = effects ∧ FramedService.Carries past := by
  intro backend client peer opening datagrams frames made framed
  have hdatagrams : (made.runAll datagrams).map Prod.snd = some
      [.log (.datagramRunning (.datagram (.v4 .loopback 53)) (.datagram backend)),
        .transmit 0 [1, 2], .log (.forwarded 2 client backend), .reply client [3],
        .log (.replied 1 client)] := by decide +kernel
  have hframes : (framed.runAll frames).map Prod.snd = some
      [.log (.datagramRunning (.vsock ⟨.any, 53⟩) (.datagram backend)),
        .log (.framedAccepted peer), .transmit 0 [1, 2], .log (.framedForwarded 2 backend),
        .deliver 0 .client [1, 0, 3]] := by decide +kernel
  obtain ⟨⟨p, shown⟩, hrun, rfl⟩ := Option.map_eq_some_iff.mp hdatagrams
  obtain ⟨⟨q, shown'⟩, hrun', rfl⟩ := Option.map_eq_some_iff.mp hframes
  exact ⟨⟨p, _, hrun, by simp, by simp, carries_of_runAll.2.1 hrun⟩,
    q, _, hrun', by simp, by simp, carries_of_runAll.2.2 hrun'⟩

/-- A datagram of 65508 bytes, which IPv6 can carry, is passed on without its last byte, and no line
reports an error. -/
theorem cut_of_oversized :
    let backend : SocketAddress := .v6 .loopback 5353 0 0
    let client : SocketAddress := .v6 .loopback 5001 0 0
    let opening : Opening := ⟨.ok (), .ok (.v6 .loopback 6000 0 0)⟩
    let payload : Bytes := List.replicate 65508 7
    let made := Proxy.ofDatagrams (.datagram (.v6 .loopback 53 0 0)) backend .warn DatagramRelay.defaultTimeout
    ∃ p effects, made.runAll (.run :: ofRelay
        [.sweep, .receive (.ok (client, payload)), .lookUp opening, .send (.ok ())]) =
          some (p, effects) ∧
      payload.length = 65508 ∧ sentOn 0 effects = [List.replicate 65507 7] ∧
      errorLines effects = [] ∧ ∀ sent ∈ sentOn 0 effects, sent ≠ payload := by
  intro backend client opening payload made
  have hlength : payload.length = 65508 := List.length_replicate
  have htake : payload.take maxPayload = List.replicate 65507 7 := by
    rw [List.take_replicate]
    rfl
  clear_value payload
  let shown : List Effect :=
    [.log (.datagramRunning (.datagram (.v6 .loopback 53 0 0)) (.datagram backend)),
      .transmit 0 (payload.take maxPayload),
      .log (.forwarded (payload.take maxPayload).length client backend)]
  have hfinal : (made.runAll (.run :: ofRelay [.sweep, .receive (.ok (client, payload)),
      .lookUp opening, .send (.ok ())])).map Prod.snd = some shown := rfl
  have hsent : sentOn 0 shown = [List.replicate 65507 7] := congrArg (fun sent => [sent]) htake
  obtain ⟨⟨p, effects⟩, hrun, rfl⟩ := Option.map_eq_some_iff.mp hfinal
  refine ⟨p, shown, hrun, hlength, hsent, rfl, ?_⟩
  intro sent hmem heq
  rw [hsent, List.mem_singleton] at hmem
  have hshort := congrArg List.length (heq.symm.trans hmem)
  rw [hlength, List.length_replicate] at hshort
  cases hshort

end PortForward

import PortForward.Proofs.Frame.Ending
import PortForward.Proofs.Framed.Refinement

/-!
# How the clients of a framed proxy disconnect

The relay of a client says one line when it ends. If neither a failed call nor a close ends it,
the line depends on the place where the client's stream ends and on nothing else, and all
complete frames before that place have been sent. It reports an error for a stream that ends
inside a header or a payload and for a header that announces too much, and reports none for a
stream that ends just after a header, although the datagram announced there is lost.
-/

namespace PortForward

/-- The line about a client whose stream ends in this place. -/
def StreamEnd.farewell (peer : Address) (place : StreamEnd) : Notice :=
  place.error?.elim .framedEnded fun e => .framedFailed peer e.toIoError

def StreamEnd.complaints (peer : Address) (place : StreamEnd) : List Notice :=
  (place.error?.map fun e => .framedFailed peer e.toIoError).toList

namespace FramedRelay

/-- What the steps of a relay have read is a beginning of what its client wrote before it ended
its stream, and all of it if they have read the end. -/
structure ReadFrom (written : Bytes) (steps : List Step) : Prop where
  within : steps.flatMap (·.event.bytes) <+: written
  all : ∀ step ∈ steps, step.event = .read (.ok []) → steps.flatMap (·.event.bytes) = written

/-- There is nothing more to read: the stream has ended, or cannot be read any further. -/
def ReadThrough (steps : List Step) : Prop :=
  (∃ step ∈ steps, step.event = .read (.ok [])) ∨
    ∃ frames, Frame.Ends (steps.flatMap (·.event.bytes)) frames .oversized

/-- What a connection has shown in the end, when its client wrote these complete frames, and ended
its stream in this place. -/
structure Disconnected (client : Nat) (peer : Address) (steps : List Step) (sent : List Bytes)
    (written : Bytes) (frames : List Bytes) (place : StreamEnd) : Prop where
  ends : Frame.Ends written frames place
  sent_eq : sent = frames
  last : ∃ before last, steps = before ++ [last] ∧
    last.effects = [.log (place.farewell peer), .release client]
  complaints : errorLines (steps.flatMap (·.effects)) = place.complaints peer
  /-- also just after a header, whose datagram is lost then -/
  clean_iff : .log .framedEnded ∈ steps.flatMap (·.effects) ↔ written = Frame.encodeAll frames ∨
    ∃ n, 0 < n ∧ n ≤ maxPayload ∧ written = Frame.encodeAll frames ++ Frame.header n

variable {closed : Bool} {backend : SocketAddress} {number client : Nat} {peer : Address}
variable {r r' : FramedRelay} {event : Event} {next : Option FramedRelay} {effects : List Effect}
variable {steps before : List Step} {last : Step} {frames : List Bytes}
variable {written rest : Bytes} {place : StreamEnd}

theorem ReadThrough.append (h : ReadThrough steps) (more : List Step) :
    ReadThrough (steps ++ more) := by
  rcases h with ⟨step, hmem, hread⟩ | ⟨frames, hends⟩
  · exact .inl ⟨step, List.mem_append_left _ hmem, hread⟩
  · refine .inr ⟨frames, ?_⟩
    rw [List.flatMap_append]
    exact hends.append _

/-! ## Until the last step -/

theorem ended_iff_of_life (h : Life backend (accepted client peer) steps next)
    (hnext : next = some r) : r.ended = true ↔ ∃ step ∈ steps, step.event = .read (.ok []) := by
  induction h generalizing r with
  | accepted =>
    cases hnext
    exact iff_of_false Bool.false_ne_true nofun
  | step hlife ht ih =>
    subst hnext
    rw [ht.ended_iff, ih rfl]
    simp only [List.mem_append, List.mem_singleton, or_and_right, exists_or, exists_eq_left]

/-- A relay that knows of the end of its stream asks the decoder until that has no more. -/
theorem Transition.readable_of_ended
    (h : Transition closed backend number r event (some r') effects)
    (hr : r.ended = true → r.readable = true) : r'.ended = true → r'.readable = true := by
  cases h with
  | ended | read => exact fun _ => rfl
  | exhausted _ _ hended => exact fun hended' => absurd hended' (by simp [hended])
  | _ => exact hr

theorem readable_of_life (h : Life backend (accepted client peer) steps next)
    (hnext : next = some r) : r.ended = true → r.readable = true := by
  induction h generalizing r with
  | accepted =>
    cases hnext
    exact fun hended => absurd hended Bool.false_ne_true
  | step hlife ht ih =>
    subst hnext
    exact ht.readable_of_ended (ih rfl)

/-- A relay that waits for its client has not come to the end of the stream. -/
theorem AtRest.not_readThrough (hrest : r.AtRest)
    (h : Life backend (accepted client peer) steps (some r)) : ¬ ReadThrough steps := by
  rintro (hread | ⟨frames, hends⟩)
  · have hreadable := readable_of_life h rfl ((ended_iff_of_life h rfl).mpr hread)
    exact Bool.false_ne_true (hrest.2.symm.trans hreadable)
  · obtain ⟨frames', rest, hconveyed⟩ := conveyed_of_life h
    obtain ⟨-, hpartial, -⟩ := hconveyed.at_rest r rfl hrest
    obtain ⟨place, hplace, hstops, -⟩ := hpartial.stopsAt
    exact hplace (hends.unique (hconveyed.splits.ends hstops)).2.symm

theorem Transition.framedEnded_not_mem
    (h : Transition closed backend number r event (some r') effects) :
    .log .framedEnded ∉ effects := by
  cases h <;> simp

theorem framedEnded_not_mem_of_life (h : Life backend (accepted client peer) steps next)
    (hnext : next = some r) : .log .framedEnded ∉ steps.flatMap (·.effects) := by
  induction h generalizing r with
  | accepted => exact List.not_mem_nil
  | step hlife ht ih =>
    subst hnext
    rw [List.flatMap_append, List.flatMap_singleton, List.mem_append]
    exact not_or.mpr ⟨ih rfl, ht.framedEnded_not_mem⟩

/-! ## The last step -/

theorem Ending.event_eq (h : Ending client peer before rest last) (hstop : last.event ≠ .stop) :
    last.event = .decode := by
  cases h with
  | stopped => exact absurd rfl hstop
  | _ => rfl

/-- The last line follows from the place where the stream ends. -/
theorem Ending.farewell (h : Ending client peer before rest last) (hstop : last.event ≠ .stop)
    (hsplits : Frame.Splits ((before ++ [last]).flatMap (·.event.bytes)) frames rest)
    (hread : ReadFrom written (before ++ [last])) :
    ∃ place, Frame.Ends written frames place ∧
      last.effects = [.log (place.farewell peer), .release client] := by
  have hall : ∀ {last : Step}, (∃ step ∈ before, step.event = .read (.ok [])) →
      ReadFrom written (before ++ [last]) →
      (before ++ [last]).flatMap (·.event.bytes) = written := by
    rintro last ⟨step, hmem, hend⟩ hread
    exact hread.all step (List.mem_append_left _ hmem) hend
  cases h with
  | oversized hover =>
    obtain ⟨more, rfl⟩ := hread.within
    exact ⟨.oversized, (hsplits.ends hover.stopsAt).append more, rfl⟩
  | truncated hpartial hnot_zero hnot_two hended =>
    obtain ⟨place, -, hstops, herror⟩ := hpartial.stopsAt
    rw [if_neg (not_or.mpr ⟨hnot_zero, hnot_two⟩)] at herror
    refine ⟨place, hall hended hread ▸ hsplits.ends hstops, ?_⟩
    rw [StreamEnd.farewell, herror]
    rfl
  | finished hpartial hlength hended =>
    obtain ⟨place, -, hstops, herror⟩ := hpartial.stopsAt
    rw [if_pos hlength] at herror
    refine ⟨place, hall hended hread ▸ hsplits.ends hstops, ?_⟩
    rw [StreamEnd.farewell, herror]
    rfl
  | stopped => exact absurd rfl hstop

theorem errorLines_farewell (peer : Address) (client : Nat) (place : StreamEnd) :
    errorLines [.log (place.farewell peer), .release client] = place.complaints peer := by
  cases place <;> rfl

theorem framedEnded_mem_farewell_iff :
    .log .framedEnded ∈ [.log (place.farewell peer), Effect.release client] ↔
      place.error? = none := by
  cases place <;> simp [StreamEnd.farewell, StreamEnd.error?]

/-- The end of a connection that was ended neither by a failed call nor by a close. -/
theorem disconnected_of_life (h : Life backend (accepted client peer) steps none)
    (hlast : ∀ last, steps.getLast? = some last →
      last.event.failure? = none ∧ last.event ≠ .stop)
    (hread : ReadFrom written steps) :
    ∃ frames place, Disconnected client peer steps (payloads (steps.flatMap (·.effects))) written
      frames place := by
  obtain ⟨before, r, last, rfl, hlife, ht⟩ := exists_last_of_life h
  obtain ⟨hok, hstop⟩ := hlast last List.getLast?_concat
  have haccount := account_of_life hlife rfl
  obtain ⟨⟨socket, hphase⟩, hgiven, hending⟩ := haccount.ending ht hok
  have hconveyed := haccount.conveyed_of_ended ht
  obtain ⟨place, hends, heffects⟩ := hending.farewell hstop hconveyed.splits hread
  have hdecode := hending.event_eq hstop
  have hsent : payloads ((before ++ [last]).flatMap (·.effects)) =
      payloads (before.flatMap (·.effects)) ++ r.phase.inHand ++ r.decoder.drain.1 := by
    rw [hgiven hdecode, List.append_nil, (haccount.of_waiting hphase).1, List.flatMap_append,
      payloads_append, List.flatMap_singleton, ht.silent.2.2.1, List.append_nil]
  refine ⟨_, place, hends, hsent, ⟨before, last, rfl, heffects⟩, ?_, ?_⟩
  · rw [List.flatMap_append, errorLines_append, haccount.errors, List.flatMap_singleton, heffects,
      errorLines_farewell]
    rfl
  · rw [List.flatMap_append, List.mem_append, List.flatMap_singleton, heffects,
      framedEnded_mem_farewell_iff, ← hends.error?_eq_none_iff]
    exact or_iff_right (framedEnded_not_mem_of_life hlife rfl)

end FramedRelay

open FramedRelay

variable {frontend : Address} {backend : SocketAddress} {past : List (Moment FramedService)}
variable {p : Proxy} {s : FramedService} {client : Nat} {r : FramedRelay}

/-- How the clients of a run have disconnected, and that a relay with nothing more to read ends. -/
structure FramedService.Disconnects (past : List (Moment FramedService)) (p : Proxy)
    (s : FramedService) : Prop where
  shown : ∀ client peer socket written, (past.flatMap Moment.peers)[client]? = some peer →
    (past.flatMap Moment.openers)[socket]? = some client → s.relay? client = none →
    (∀ last, (past.flatMap (·.steps client)).getLast? = some last →
      last.event.failure? = none ∧ last.event ≠ .stop) →
    ReadFrom written (past.flatMap (·.steps client)) →
    ∃ frames place, Disconnected client peer (past.flatMap (·.steps client))
      (sentOn socket (past.flatMap (·.effects))) written frames place
  ends : ∀ client r, s.relay? client = some r → ReadThrough (past.flatMap (·.steps client)) →
    ¬ r.AtRest ∧ ∃ own q s' late, (∀ event ∈ own, event.isOwn = true ∧ event.failure? = none) ∧
      p.runAll (ofConnection client own) = some (q, late) ∧ q.service = .framed s' ∧
      s'.relay? client = none

theorem exists_end_of_readThrough
    (h : History .framed (.bound frontend (.framed (.idle backend))) past p s)
    (hr : s.relay? client = some r) (hread : ReadThrough (past.flatMap (·.steps client))) :
    ∃ own q s' late, (∀ event ∈ own, event.isOwn = true ∧ event.failure? = none) ∧
      p.runAll (ofConnection client own) = some (q, late) ∧ q.service = .framed s' ∧
      s'.relay? client = none := by
  obtain ⟨own, q, s', late, hown, hrun, hs', hrest⟩ := exists_settled h hr
  refine ⟨own, q, s', late, hown, hrun, hs', ?_⟩
  by_contra hlive
  obtain ⟨r', hr'⟩ := Option.ne_none_iff_exists'.mp hlive
  -- The run goes on to a state in which the relay is at rest with nothing more to read.
  obtain ⟨later, s'', hlater, -, -⟩ := exists_history Service.isKind_framed h.service_eq hrun
  have hist := h.append (fun _ _ => Service.framed.inj) hlater
  cases hs'.symm.trans hist.service_eq
  obtain ⟨peer, -, hlife⟩ := (FramedService.connected_of_history hist).roster.exists_peer hr'
  apply (hrest r' hr').not_readThrough hlife
  rw [List.flatMap_append]
  exact hread.append _

/-- In all runs a client that is through disconnects as the place says in which its stream ends,
which is one for every string of bytes and does not depend on how they are cut. -/
theorem disconnects_of_runAll {frontend : Address} {backend : SocketAddress} {p : Proxy}
    {events : List Proxy.Event} {effects : List Effect}
    (h : (Proxy.bound frontend (.framed (.idle backend))).runAll events = some (p, effects)) :
    (∀ bytes frames frames' place place', Frame.Ends bytes frames place →
      Frame.Ends bytes frames' place' → frames = frames' ∧ place = place') ∧
    (∀ chunks, ∃ place, Frame.Ends chunks.flatten (Decoding.ofChunks chunks).frames place ∧
      (Decoding.ofChunks chunks).decoder.nextAtEnd.1 = place.answer) ∧
    ∃ past s, History .framed (.bound frontend (.framed (.idle backend))) past p s ∧
      past.map (·.event) = events ∧ past.flatMap (·.effects) = effects ∧
      FramedService.Disconnects past p s := by
  obtain ⟨past, s, hist, hevents, heffects⟩ := exists_history Service.isKind_framed rfl h
  have hconnected := FramedService.connected_of_history hist
  refine ⟨fun _ _ _ _ _ hends hends' => hends.unique hends', Decoding.exists_end,
    past, s, hist, hevents, heffects, ?_⟩
  constructor
  case shown =>
    intro client peer socket written hpeer hopener hgone hlast hread
    have hlife := hconnected.life client peer hpeer
    rw [hgone] at hlife
    rw [hconnected.sentOn_eq hopener]
    exact disconnected_of_life hlife hlast hread
  case ends =>
    intro client r hr hread
    obtain ⟨peer, -, hlife⟩ := hconnected.roster.exists_peer hr
    exact ⟨fun hrest => hrest.not_readThrough hlife hread, exists_end_of_readThrough hist hr hread⟩

/-- Two clients send a frame, in two pieces and in one, and then end their streams, one inside the
payload of its next frame and the other before that. -/
theorem disconnects_inside_payload :
    let frontend : Address := .vsock ⟨.any, 53⟩
    let backend : SocketAddress := .v4 .loopback 5353
    let first : Address := .vsock ⟨.id 3, 1024⟩
    let second : Address := .vsock ⟨.id 4, 1024⟩
    let events : List Proxy.Event :=
      [.run, .service (.framed (.accept (.ok first))), .service (.framed (.accept (.ok second)))] ++
      ofConnection 0 [.announce, .opened (.ok ()), .read (.ok [1]), .decode] ++
      ofConnection 1 [.announce, .opened (.ok ()), .read (.ok [1, 0, 98]), .decode] ++
      ofConnection 0 [.read (.ok [0, 97, 2, 0, 99]), .decode, .send (.ok ()), .decode,
        .read (.ok []), .decode] ++
      ofConnection 1 [.send (.ok ()), .decode, .read (.ok []), .decode]
    let made := Proxy.bound frontend (.framed (.idle backend))
    Frame.Ends [1, 0, 97, 2, 0, 99] [[97]] .insidePayload ∧
      Frame.Ends [1, 0, 98] [[98]] .betweenFrames ∧
      ∃ p effects, made.runAll events = some (p, effects) ∧
        sentOn 0 effects = [[97]] ∧ sentOn 1 effects = [[98]] ∧
        errorLines effects = [.framedFailed first FrameError.truncated.toIoError] ∧
        ∃ past s, History .framed made past p s ∧ past.map (·.event) = events ∧
          past.flatMap (·.effects) = effects ∧ FramedService.Disconnects past p s := by
  intro frontend backend first second events made
  have hfinal : (made.runAll events).map Prod.snd = some
      [.log (.datagramRunning frontend (.datagram backend)), .log (.framedAccepted first),
        .log (.framedAccepted second), .transmit 0 [97], .log (.framedForwarded 1 backend),
        .log (.framedFailed first FrameError.truncated.toIoError), .release 0, .transmit 1 [98],
        .log (.framedForwarded 1 backend), .log .framedEnded, .release 1] := by
    decide +kernel
  obtain ⟨⟨p, effects⟩, hrun, rfl⟩ := Option.map_eq_some_iff.mp hfinal
  obtain ⟨-, -, hrest⟩ := disconnects_of_runAll hrun
  refine ⟨⟨[2, 0, 99], rfl, by decide, .insidePayload (by decide) (by decide)⟩,
    ⟨[], rfl, by decide, .betweenFrames⟩, p, _, hrun, rfl, rfl, rfl, hrest⟩

/-- A stream that ends just after the header of a frame of five bytes is no sequence of complete
frames, but its end is taken for a clean one. -/
theorem unreported_after_header :
    let frontend : Address := .vsock ⟨.any, 53⟩
    let backend : SocketAddress := .v4 .loopback 5353
    let peer : Address := .vsock ⟨.id 3, 1024⟩
    let events : List Proxy.Event :=
      [.run, .service (.framed (.accept (.ok peer)))] ++
      ofConnection 0 [.announce, .opened (.ok ()), .read (.ok [5, 0]), .decode, .read (.ok []),
        .decode]
    let made := Proxy.bound frontend (.framed (.idle backend))
    (∀ frames, ¬ Frame.Ends [5, 0] frames .betweenFrames) ∧
      ((Decoder.empty.feed [5, 0]).next.2.nextAtEnd.1 = .ok none) ∧
      ∃ p effects, made.runAll events = some (p, effects) ∧ errorLines effects = [] ∧
        .log .framedEnded ∈ effects := by
  intro frontend backend peer events made
  have hends : Frame.Ends [5, 0] [] .afterHeader :=
    ⟨[5, 0], rfl, nofun, .afterHeader (by decide) (by decide)⟩
  have hfinal : (made.runAll events).map Prod.snd = some
      [.log (.datagramRunning frontend (.datagram backend)), .log (.framedAccepted peer),
        .log .framedEnded, .release 0] := by decide +kernel
  obtain ⟨⟨p, effects⟩, hrun, rfl⟩ := Option.map_eq_some_iff.mp hfinal
  refine ⟨?_, rfl, p, _, hrun, rfl, by simp⟩
  intro frames hwhole
  cases (hends.unique hwhole).2

end PortForward

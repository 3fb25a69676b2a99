import PortForward.Proofs.Stream.Settling

/-!
# A stream proxy is faithful

Whatever is written in whatever pieces, whoever ends first and whatever fails, each side of a
connection is given a beginning of what the other side has written, and nothing else. Once a
relay has nothing left to do it is all of that, with the end of the stream after it if the other
side has ended. One direction may end long before the other: a relay ends only with both, with a
call that failed, or with its proxy.
-/

namespace PortForward

open StreamRelay (Step Life Account Ending)

section Directions

variable {client : Nat} {side : Side} {all : List Happening} {effects : List Effect}
variable {spent : Prop} {h : Half}

/-- In every state a direction has passed on a beginning of what was written, and has ended only
after all of it. -/
theorem Half.Account.conveyed
    (ha : h.Account client side effects (bytesRead client side all) spent)
    (hspent : spent → ∃ event ∈ proxyEvents all, event.isEndOf client side)
    (horder : InOrder client side all) :
    ∃ bytes, Conveys client side.other effects bytes h.isEnded ∧ h.moved = bytes.length ∧
      bytes <+: bytesWritten client side all ∧
      (h.isEnded = true → hasFinished client side all ∧ bytes = bytesWritten client side all) := by
  obtain ⟨⟨bytes, hconveys, htaken, hmoved⟩, hiff⟩ := ha
  refine ⟨bytes, hconveys, hmoved, ?_, ?_⟩
  · apply List.IsPrefix.trans ?_ horder.read_prefix
    rw [htaken]
    exact List.prefix_append _ _
  · intro hended
    cases h with
    | ended n =>
      obtain ⟨hfinished, hread⟩ := horder.read_all (hspent (hiff.mpr rfl))
      refine ⟨hfinished, ?_⟩
      rw [← hread, htaken]
      exact (List.append_nil _).symm
    | _ => cases hended

theorem Half.Account.conveys_of_atRest
    (ha : h.Account client side effects (bytesRead client side all) spent)
    (hspent : spent → ∃ event ∈ proxyEvents all, event.isEndOf client side)
    (horder : InOrder client side all)
    (hrest : h.AtRest (unread client side all) (hasFinished client side all)) :
    Conveys client side.other effects (bytesWritten client side all)
      (hasFinished client side all) := by
  cases h with
  | copying held n =>
    obtain ⟨hheld, hunread, hfinished⟩ := hrest
    obtain ⟨⟨bytes, hconveys, htaken, -⟩, -⟩ := ha
    have hwritten := horder.written_eq
    rw [hunread, List.append_nil, htaken, Half.held, hheld, List.append_nil] at hwritten
    rw [hfinished, ← hwritten]
    exact hconveys
  | ending => exact hrest.elim
  | ended n =>
    obtain ⟨bytes, hconveys, -, -, hall⟩ := ha.conveyed hspent horder
    obtain ⟨hfinished, hbytes⟩ := hall rfl
    rw [hfinished, ← hbytes]
    exact hconveys

end Directions

/-- The last step of a relay, given all that has happened and what has come of it. -/
inductive Outcome (client : Nat) (peer : Address) (all : List Happening) (effects : List Effect) :
    Step → Prop
  | failed {closed event e} : event.failure? = some e →
      Outcome client peer all effects
        ⟨closed, event, [.log (.connectionFailed peer e), .release client]⟩
  | dropped :
      Outcome client peer all effects
        ⟨true, .drop, [.log (.clientDropped peer), .release client]⟩
  /-- all that was written has been passed on in both directions, and both ends after it -/
  | completed {closed source} :
      (∀ side, hasFinished client side all = true ∧
        Conveys client side.other effects (bytesWritten client side all) true) →
      Outcome client peer all effects
        ⟨closed, .copy source (.shutdown (.ok ())),
          [.endStream client source.other,
            .log (.connectionEnded (bytesWritten client .client all).length
              (bytesWritten client .backend all).length),
            .release client]⟩

open StreamService

/-- What has come of all that was written, for every client and in both directions. -/
structure Faithful (all : List Happening) (past : List (Moment StreamService))
    (effects : List Effect) (p : Proxy) (s : StreamService) : Prop where
  conveyed : ∀ client side, ∃ bytes ended, Conveys client side.other effects bytes ended ∧
    bytes <+: bytesWritten client side all ∧
    (ended = true → hasFinished client side all = true ∧ bytes = bytesWritten client side all)
  /-- a relay that lives has had no failure, and has not ended both streams -/
  living : ∀ client r, s.relay? client = some r →
    (∀ step ∈ past.flatMap (stepsOf client), step.event.failure? = none) ∧
    ∃ side, .endStream client side ∉ effects
  settled : ∀ client r, s.relay? client = some r → Settled client all p →
    ∀ side, Conveys client side.other effects (bytesWritten client side all)
      (hasFinished client side all)
  ended : ∀ client peer, (past.flatMap arrivals)[client]? = some peer → s.relay? client = none →
    ∃ before last, past.flatMap (stepsOf client) = before ++ [last] ∧
      (∀ step ∈ before, step.event.failure? = none) ∧ Outcome client peer all effects last
  /-- if nothing fails, a relay that goes on by itself passes on all that was written -/
  settles : ∀ client r, s.relay? client = some r →
    ∃ (own : List StreamRelay.Event) (q : Proxy) (s' : StreamService) (late : List Effect),
      (∀ event ∈ own, event.failure? = none) ∧
      Plausible (all ++ own.map (.ofRelay client)) ∧
      p.runAll (proxyEvents (own.map (.ofRelay client))) = some (q, late) ∧
      q.service = .stream s' ∧
      ∀ r', s'.relay? client = some r' → ∀ side, Conveys client side.other (effects ++ late)
        (bytesWritten client side all) (hasFinished client side all)

section Run

variable {frontend : Address} {backend : StreamBackend} {all : List Happening}
variable {past : List (Moment StreamService)} {p : Proxy} {s : StreamService}
variable {client : Nat} {r : StreamRelay} {halves : Side → Half}

theorem StreamRelay.Account.conveyed (hall : Plausible all)
    (h : History .stream (.bound frontend (.stream (.idle backend))) past p s)
    (hpast : past.map (·.event) = proxyEvents all)
    (haccount : Account client (past.flatMap (stepsOf client)) halves) (side : Side) :
    ∃ bytes, Conveys client side.other (past.flatMap (·.effects)) bytes (halves side).isEnded ∧
      (halves side).moved = bytes.length ∧ bytes <+: bytesWritten client side all ∧
      ((halves side).isEnded = true →
        hasFinished client side all = true ∧ bytes = bytesWritten client side all) := by
  have hside := haccount side
  rw [bytesFrom_steps hpast] at hside
  obtain ⟨bytes, hconveys, hrest⟩ :=
    hside.conveyed (isEndOf_steps hpast).mp hall.inOrder
  exact ⟨bytes, hconveys.congr ((connected_of_history h).towards_eq side.other), hrest⟩

theorem conveys_of_atRest (hall : Plausible all)
    (h : History .stream (.bound frontend (.stream (.idle backend))) past p s)
    (hpast : past.map (·.event) = proxyEvents all) (hr : s.relay? client = some r)
    (hrest : r.AtRest client all) (side : Side) :
    Conveys client side.other (past.flatMap (·.effects)) (bytesWritten client side all)
      (hasFinished client side all) := by
  have hconnected := connected_of_history h
  obtain ⟨peer, -, hlife⟩ := hconnected.roster.exists_peer hr
  have hside := (StreamRelay.living_of_life hlife rfl).account side
  rw [bytesFrom_steps hpast] at hside
  have hconveys := hside.conveys_of_atRest (isEndOf_steps hpast).mp hall.inOrder
    (hrest.2 side)
  exact hconveys.congr (hconnected.towards_eq side.other)

/-- The steps of every client have an account, if only an empty one. -/
theorem StreamService.Connected.exists_account (h : Connected past s) (client : Nat) :
    ∃ halves, Account client (past.flatMap (stepsOf client)) halves := by
  by_cases hlt : client < (past.flatMap arrivals).length
  · have hlife := h.roster.life client _ (List.getElem?_eq_getElem hlt)
    cases hr : s.relay? client with
    | some r =>
      rw [hr] at hlife
      exact ⟨_, (StreamRelay.living_of_life hlife rfl).account⟩
    | none =>
      rw [hr] at hlife
      obtain ⟨halves, -, -, -, haccount, -⟩ := StreamRelay.ending_of_life hlife
      exact ⟨halves, haccount⟩
  · refine ⟨fun _ => .fresh, ?_⟩
    rw [h.roster.unborn client (by omega)]
    exact StreamRelay.account_born

/-- A live relay has read and passed on nothing that failed, and has not ended both streams. -/
theorem living_of_history
    (h : History .stream (.bound frontend (.stream (.idle backend))) past p s)
    (hr : s.relay? client = some r) :
    (∀ step ∈ past.flatMap (stepsOf client), step.event.failure? = none) ∧
      ∃ side, .endStream client side ∉ past.flatMap (·.effects) := by
  have hconnected := connected_of_history h
  obtain ⟨peer, -, hlife⟩ := hconnected.roster.exists_peer hr
  have hliving := StreamRelay.living_of_life hlife rfl
  refine ⟨hliving.unfailed, ?_⟩
  obtain ⟨side, hside⟩ := not_forall.mp hliving.unfinished
  obtain ⟨bytes, hconveys, -⟩ := (hliving.account side).conveys
  refine ⟨side.other, ?_⟩
  have hopen : ((r.phase.half side).isEnded) = false := by simpa using hside
  rw [hopen] at hconveys
  exact (hconveys.congr (hconnected.towards_eq side.other)).not_ended

theorem outcome_of_history (hall : Plausible all)
    (h : History .stream (.bound frontend (.stream (.idle backend))) past p s)
    (hpast : past.map (·.event) = proxyEvents all) {peer : Address}
    (hpeer : (past.flatMap arrivals)[client]? = some peer) (hgone : s.relay? client = none) :
    ∃ before last, past.flatMap (stepsOf client) = before ++ [last] ∧
      (∀ step ∈ before, step.event.failure? = none) ∧
      Outcome client peer all (past.flatMap (·.effects)) last := by
  have hlife := (connected_of_history h).roster.life client peer hpeer
  rw [hgone] at hlife
  obtain ⟨halves, before, last, hsteps, haccount, hfine, hending⟩ :=
    StreamRelay.ending_of_life hlife
  refine ⟨before, last, hsteps, hfine, ?_⟩
  cases hending with
  | failed hfailed => exact .failed hfailed
  | dropped => exact .dropped
  | completed hended =>
    have hside : ∀ side, (halves side).moved = (bytesWritten client side all).length ∧
        hasFinished client side all = true ∧
        Conveys client side.other (past.flatMap (·.effects)) (bytesWritten client side all)
          true := by
      intro side
      obtain ⟨bytes, hconveys, hmoved, -, hover⟩ := haccount.conveyed hall h hpast side
      obtain ⟨hfinished, rfl⟩ := hover (hended side)
      rw [hended side] at hconveys
      exact ⟨hmoved, hfinished, hconveys⟩
    rw [(hside .client).1, (hside .backend).1]
    exact .completed fun side => (hside side).2

theorem settles_of_history (hall : Plausible all)
    (h : History .stream (.bound frontend (.stream (.idle backend))) past p s)
    (hpast : past.map (·.event) = proxyEvents all) (hr : s.relay? client = some r) :
    ∃ (own : List StreamRelay.Event) (q : Proxy) (s' : StreamService) (late : List Effect),
      (∀ event ∈ own, event.failure? = none) ∧
      Plausible (all ++ own.map (.ofRelay client)) ∧
      p.runAll (proxyEvents (own.map (.ofRelay client))) = some (q, late) ∧
      q.service = .stream s' ∧
      ∀ r', s'.relay? client = some r' → ∀ side,
        Conveys client side.other (past.flatMap (·.effects) ++ late)
          (bytesWritten client side all) (hasFinished client side all) := by
  obtain ⟨own, q, s', late, hfine, hmore, hrun, hs', hrest⟩ := StreamService.exists_settled hall h hr
  refine ⟨own, q, s', late, hfine, hmore, hrun, hs', ?_⟩
  intro r' hr' side
  -- The steps of the proxy write nothing themselves.
  have hwritten : bytesWritten client side (own.map (.ofRelay client)) = [] := by
    apply List.flatMap_eq_nil_iff.mpr
    intro happening hmem
    obtain ⟨event, -, rfl⟩ := List.mem_map.mp hmem
    rfl
  have hfinishes : hasFinished client side (own.map (.ofRelay client)) = false := by
    apply List.any_eq_false.mpr
    intro happening hmem
    obtain ⟨event, -, rfl⟩ := List.mem_map.mp hmem
    exact Bool.false_ne_true
  have hall' := Proxy.runAll_trans h.runAll_eq hrun
  rw [hpast, ← proxyEvents_append] at hall'
  obtain ⟨past', s'', h', hpast', heffects⟩ := exists_history Service.isKind_stream rfl hall'
  cases hs'.symm.trans h'.service_eq
  have hconveys := conveys_of_atRest hmore h' hpast' hr' (hrest r' hr') side
  rw [heffects, bytesWritten_append, hwritten, List.append_nil, hasFinished_append, hfinishes,
    Bool.or_false] at hconveys
  exact hconveys

end Run

/-- However clients and backend write and end, and whatever fails, a stream proxy passes on to
each side of each connection what the other side has written, in order and no more. -/
theorem faithful_of_runAll {frontend : Address} {backend : StreamBackend} {all : List Happening}
    {p : Proxy} {effects : List Effect} (hall : Plausible all)
    (h : (Proxy.bound frontend (.stream (.idle backend))).runAll (proxyEvents all) =
      some (p, effects)) :
    ∃ past s, History .stream (.bound frontend (.stream (.idle backend))) past p s ∧
      past.map (·.event) = proxyEvents all ∧ past.flatMap (·.effects) = effects ∧
      Faithful all past effects p s := by
  obtain ⟨past, s, hist, hpast, rfl⟩ := exists_history Service.isKind_stream rfl h
  refine ⟨past, s, hist, hpast, rfl, ?_⟩
  constructor
  case conveyed =>
    intro client side
    obtain ⟨halves, haccount⟩ := (connected_of_history hist).exists_account client
    obtain ⟨bytes, hconveys, -, hprefix, hover⟩ := haccount.conveyed hall hist hpast side
    exact ⟨bytes, _, hconveys, hprefix, hover⟩
  case living => exact fun client r hr => living_of_history hist hr
  case settled =>
    intro client r hr hsettled side
    refine conveys_of_atRest hall hist hpast hr ?_ side
    exact atRest_of_settled hist.service_eq hr (fun _ => hall.inOrder) hsettled
  case ended => exact fun client peer hpeer hgone => outcome_of_history hall hist hpast hpeer hgone
  case settles => exact fun client r hr => settles_of_history hall hist hpast hr

/-- The first client has written before it is accepted, and ends its stream long before the
backend does; the connection of the second is reset with a byte in hand. -/
theorem faithful_half_closed :
    let frontend : Address := .stream (.v4 .loopback 80)
    let backend : StreamBackend := .ip (.v4 .loopback 8080)
    let first : Address := .stream (.v4 .loopback 5001)
    let second : Address := .stream (.v4 .loopback 5002)
    let all : List Happening :=
      [.write 0 .client [1, 2, 3], .step .run,
        .step (.service (.stream (.accept (.ok first)))),
        .step (.service (.stream (.accept (.ok second)))), .write 1 .client [9]] ++
      [.announce, .dial].map (Happening.ofRelay 0) ++
      [.announce, .dial, .connected (.ok ()),
        .copy .client (.read (.ok [9]))].map (Happening.ofRelay 1) ++
      [.connected (.ok ()), .copy .client (.read (.ok [1, 2])),
        .copy .client (.write (.ok 1)), .copy .client (.read (.ok [3]))].map (Happening.ofRelay 0) ++
      [.finish 0 .client, .write 0 .backend [7]] ++
      [.copy .client (.read (.ok [])), .copy .client (.write (.ok 2)),
        .copy .client (.shutdown (.ok ())),
        .copy .backend (.read (.ok [7]))].map (Happening.ofRelay 0) ++
      [.write 0 .backend [8], .finish 0 .backend] ++
      [.copy .backend (.read (.error (.os 104)))].map (Happening.ofRelay 1) ++
      [.copy .backend (.read (.ok [8])), .copy .backend (.write (.ok 2)),
        .copy .backend (.read (.ok [])),
        .copy .backend (.shutdown (.ok ()))].map (Happening.ofRelay 0)
    let effects : List Effect :=
      [.log (.streamRunning frontend backend.address), .log (.clientAccepted first), .dial 0,
        .log (.clientAccepted second), .dial 1, .deliver 0 .backend [1],
        .deliver 0 .backend [2, 3], .endStream 0 .backend,
        .log (.connectionFailed second (.os 104)), .release 1, .deliver 0 .client [7, 8],
        .endStream 0 .client, .log (.connectionEnded 3 2), .release 0]
    let made := Proxy.bound frontend (.stream (.idle backend))
    Plausible all ∧ ∃ p, made.runAll (proxyEvents all) = some (p, effects) ∧
      ∃ past s, History .stream made past p s ∧ past.map (·.event) = proxyEvents all ∧
        past.flatMap (·.effects) = effects ∧ Faithful all past effects p s := by
  intro frontend backend first second all effects made
  have hall : Plausible all := by
    unfold Plausible
    decide +kernel
  have hfinal : (made.runAll (proxyEvents all)).map Prod.snd = some effects := by decide +kernel
  obtain ⟨⟨p, shown⟩, hrun, rfl⟩ := Option.map_eq_some_iff.mp hfinal
  exact ⟨hall, p, hrun, faithful_of_runAll hall hrun⟩

end PortForward

import PortForward.Proofs.History
import PortForward.Proofs.Verbosity.Frontend
import PortForward.CommandLine.Program

/-!
# Running at two levels of the log

The line about a new flow shows the address of its backend socket, and is the only one that has to
be asked for. Levels that both show it, or both do not, run alike on all events. Others run alike
but for these lines, up to a socket that is connected and does not tell its address: where the line
is to be shown that socket is given up with the datagram, and where it is not the flow is made.
-/

namespace PortForward

/-- The line about a new flow. -/
def Effect.isFlowLine : Effect → Bool
  | log (.flowOpened ..) => true
  | _ => false

namespace Turn

variable {α β : Type}

def mapNext (f : α → β) (turn : Turn α) : Turn β := ⟨f turn.next, turn.effects, turn.loopEnd⟩

/-- A step without the lines about new flows. -/
def muted (turn : Turn α) : Turn α :=
  ⟨turn.next, turn.effects.filter (¬ ·.isFlowLine), turn.loopEnd⟩

end Turn

namespace DatagramRelay

variable {r : DatagramRelay} {level level' : Level} {closed : Bool} {event : Event}
variable {opening : Opening}

section
variable (r level)

@[simp] theorem logging_loop : (r.logging level).loop = r.loop := rfl

@[simp] theorem logging_now : (r.logging level).now = r.now := rfl

@[simp] theorem logging_nextSweep : (r.logging level).nextSweep = r.nextSweep := rfl

@[simp] theorem logging_table : (r.logging level).table = r.table := rfl

@[simp] theorem logging_level : (r.logging level).level = level := rfl

@[simp] theorem logging_task? (socket : Nat) :
    (r.logging level).task? socket = r.task? socket := rfl

end

/-- The relay opens a backend socket at this event and cannot have its address. -/
def LosesName (r : DatagramRelay) (event : Event) : Prop :=
  ∃ client payload e, r.loop = .looking client payload ∧ r.table.find? client = none ∧
    event = .lookUp ⟨.ok (), .error e⟩

/-- No step but the opening of a socket looks at the level. -/
theorem step_logging (h : ∀ opening, event ≠ .lookUp opening) :
    (r.logging level).step closed event = (r.step closed event).map (.mapNext (logging level)) := by
  cases event with
  | lookUp opening => exact absurd rfl (h opening)
  | advance d => rfl
  | sweep =>
    exact (apply_ite (Option.map (Turn.mapNext (logging level)))
      (r.loop = .waiting ∧ r.nextSweep ≤ r.now) (some r.sweepNow) none).symm
  | stop =>
    exact (apply_ite (Option.map (Turn.mapNext (logging level))) (r.loop = .waiting ∧ closed = true)
      (some (Turn.on { r with loop := .draining .closed } [])) none).symm
  | receive result | drain =>
    simp only [step, logging_loop]
    split <;> rfl
  | send result =>
    simp only [step, logging_loop]
    split
    · rfl
    · split <;> rfl
    · rfl
  | replyReceive socket result =>
    simp only [step, logging_task?]
    cases r.task? socket with
    | none => rfl
    | some t =>
      dsimp only [Option.bind_some]
      split
      · rfl
      · split <;> rfl
      · rfl
  | replySend socket result | refresh socket | forget socket =>
    simp only [step, logging_task?]
    cases r.task? socket with
    | none => rfl
    | some t =>
      dsimp only [Option.bind_some]
      split <;> rfl
  | replyStop socket =>
    simp only [step, logging_task?]
    cases r.task? socket with
    | none => rfl
    | some t =>
      dsimp only [Option.bind_some]
      split
      · split <;> rfl
      · rfl

theorem openFlow_logging {client : SocketAddress} {payload : Bytes}
    (h : level.shows .info = level'.shows .info) :
    (r.logging level').openFlow client payload opening =
      ((r.logging level).openFlow client payload opening).mapNext (logging level') := by
  obtain ⟨connected, address⟩ := opening
  rcases connected with e | ⟨⟩
  · rfl
  · cases hshows : level'.shows .info with
    | false =>
      simp only [openFlow, logging_level, h, hshows]
      rfl
    | true =>
      simp only [openFlow, logging_level, h, hshows]
      cases address <;> rfl

/-- A step at a level is the step at any other that shows the same of it. -/
theorem step_of_shows (h : level.shows .info = level'.shows .info) :
    (r.logging level').step closed event =
      ((r.logging level).step closed event).map (.mapNext (logging level')) := by
  by_cases hlookUp : ∃ opening, event = .lookUp opening
  · obtain ⟨opening, rfl⟩ := hlookUp
    simp only [step, logging_loop, logging_table, logging_now]
    cases r.loop with
    | looking client payload =>
      dsimp only
      cases r.table.find? client with
      | some flow => rfl
      | none =>
        dsimp only
        rw [openFlow_logging h]
        rfl
    | _ => rfl
  · rw [step_logging (not_exists.mp hlookUp), step_logging (not_exists.mp hlookUp), Option.map_map]
    rfl

/-- What a step comes to, apart from the lines about new flows and from the level. -/
def muted (turn : Turn DatagramRelay) : Turn DatagramRelay := (turn.mapNext (logging .off)).muted

theorem openFlow_muted {client : SocketAddress} {payload : Bytes}
    (h : ∀ e, opening ≠ ⟨.ok (), .error e⟩) :
    muted ((r.logging level).openFlow client payload opening) =
      muted ((r.logging level').openFlow client payload opening) := by
  obtain ⟨connected, address⟩ := opening
  rcases connected with e | ⟨⟩
  · rfl
  · cases address with
    | error e => exact absurd rfl (h e)
    | ok a =>
      cases hshows : level.shows .info <;> cases hshows' : level'.shows .info <;>
        simp only [openFlow, logging_level, hshows, hshows'] <;> rfl

/-- A step at which no name is lost differs between levels in the line about a new flow only. -/
theorem step_muted (h : ¬ r.LosesName event) (level level' : Level) (closed : Bool) :
    ((r.logging level).step closed event).map muted =
      ((r.logging level').step closed event).map muted := by
  by_cases hlookUp : ∃ opening, event = .lookUp opening
  · obtain ⟨opening, rfl⟩ := hlookUp
    simp only [step, logging_loop, logging_table, logging_now]
    cases hloop : r.loop with
    | looking client payload =>
      dsimp only
      cases hfind : r.table.find? client with
      | some flow => rfl
      | none =>
        refine congrArg some (openFlow_muted fun e he => h ?_)
        exact ⟨client, payload, e, hloop, hfind, congrArg _ he⟩
    | _ => rfl
  · rw [step_logging (not_exists.mp hlookUp), step_logging (not_exists.mp hlookUp), Option.map_map,
      Option.map_map]
    rfl

/-- The relay that has given up a new socket. -/
def abandoned (r : DatagramRelay) : DatagramRelay :=
  { r with loop := .waiting, opened := r.opened + 1 }

/-- Where a name is lost, a log that would show it gives the datagram up, and any other opens the
flow. -/
theorem step_of_losesName {client : SocketAddress} {payload : Bytes}
    (hloop : r.loop = .looking client payload) (hfind : r.table.find? client = none)
    (level : Level) (closed : Bool) (e : IoError) :
    (r.logging level).step closed (.lookUp ⟨.ok (), .error e⟩) =
      some (if level.shows .info then
          .on (r.logging level).abandoned [.log (.forwardFailed client e)]
        else .on ((r.logging level).addFlow client payload) []) := by
  simp only [step, logging_loop, hloop, logging_table, hfind, openFlow, logging_level]
  rfl

end DatagramRelay

namespace Service

variable {s : Service} {level level' : Level} {closed : Bool} {event : Event}

def LosesName (s : Service) (event : Event) : Prop :=
  ∃ r e, s = .datagram r ∧ event = .datagram e ∧ r.LosesName e

def muted (turn : Turn Service) : Turn Service := (turn.mapNext (logging .off)).muted

theorem step_of_shows (h : level.shows .info = level'.shows .info) :
    (s.logging level').step closed event =
      ((s.logging level).step closed event).map (.mapNext (logging level')) := by
  cases s with
  | datagram r =>
    cases event with
    | datagram e =>
      simp only [logging, step, DatagramRelay.step_of_shows h, Option.map_map]
      rfl
    | stream e | framed e => rfl
  | stream s =>
    cases event with
    | stream e => simp only [logging, step, Option.map_map, Function.comp_def, Turn.mapNext]
    | datagram e | framed e => rfl
  | framed s =>
    cases event with
    | framed e => simp only [logging, step, Option.map_map, Function.comp_def, Turn.mapNext]
    | datagram e | stream e => rfl

theorem step_muted (h : ¬ s.LosesName event) (level level' : Level) (closed : Bool) :
    ((s.logging level).step closed event).map muted =
      ((s.logging level').step closed event).map muted := by
  cases s with
  | stream s | framed s => rfl
  | datagram r =>
    cases event with
    | stream e | framed e => rfl
    | datagram e =>
      have hrelay : ¬ r.LosesName e := fun hr => h ⟨r, e, rfl, rfl, hr⟩
      have hsteps := congrArg (Option.map (Turn.mapNext datagram))
        (DatagramRelay.step_muted hrelay level level' closed)
      simp only [Option.map_map] at hsteps
      simp only [logging, step, Option.map_map]
      exact hsteps

end Service

namespace Proxy

variable {p q : Proxy} {level level' : Level} {event : Event}

def LosesName (p : Proxy) (event : Event) : Prop :=
  ∃ e, event = .service e ∧ p.service.LosesName e

/-- What a proxy makes of a step of its service. -/
def carryOn (p : Proxy) (turn : Turn Service) : Proxy × List Effect :=
  let p := { p with service := turn.next }
  match turn.loopEnd with
  | none => (p, turn.effects)
  | some loopEnd =>
    let (p, effects) := p.finish loopEnd
    (p, turn.effects ++ effects)

/-- What a step or a run of a proxy comes to with another level. -/
def relevel (level : Level) (result : Proxy × List Effect) : Proxy × List Effect :=
  (result.1.logging level, result.2)

/-- What a step or a run of a proxy comes to, apart from the lines about new flows and from the
level. -/
def muted (result : Proxy × List Effect) : Proxy × List Effect :=
  (result.1.logging .off, result.2.filter (¬ ·.isFlowLine))

theorem logging_logging : (p.logging level).logging level' = p.logging level' := by
  obtain ⟨frontend, gate, runs, service⟩ := p
  cases service <;> rfl

theorem step_service_eq (p : Proxy) (event : Service.Event) :
    p.step (.service event) = (p.service.step p.isClosed event).map p.carryOn := rfl

theorem run_logging : (p.logging level).run = relevel level p.run := by
  obtain ⟨frontend, gate, runs, service⟩ := p
  simp only [run, logging]
  rcases gate.start with ⟨e | _, gate'⟩
  · rfl
  · cases service <;> rfl

theorem carryOn_mapNext (turn : Turn Service) :
    p.carryOn (turn.mapNext (Service.logging level)) = relevel level (p.carryOn turn) := by
  obtain ⟨next, effects, loopEnd⟩ := turn
  cases loopEnd with
  | none => rfl
  | some loopEnd => cases next <;> rfl

theorem muted_carryOn (turn : Turn Service) :
    muted (p.carryOn (Service.muted turn)) = muted (p.carryOn turn) := by
  rw [Service.muted]
  obtain ⟨next, effects, loopEnd⟩ := turn
  cases loopEnd with
  | none =>
    refine Prod.ext (logging_logging (p := { p with service := next })) ?_
    simp [muted, carryOn, Turn.muted, Turn.mapNext]
  | some loopEnd =>
    refine Prod.ext (by cases next <;> rfl) ?_
    cases next <;> simp [muted, carryOn, Turn.muted, Turn.mapNext, finish, Service.logging,
      Service.stoppedNotice]

/-- A step at a level is the step at any other that shows the same of it. -/
theorem step_of_shows (h : level.shows .info = level'.shows .info) :
    (p.logging level').step event = ((p.logging level).step event).map (relevel level') := by
  cases event with
  | run =>
    refine congrArg some ?_
    rw [run_logging, run_logging]
    exact Prod.ext logging_logging.symm rfl
  | close => exact congrArg some (Prod.ext (logging_logging (p := p.close)).symm rfl)
  | service event =>
    have hsteps : (p.service.logging level').step p.isClosed event =
        ((p.service.logging level).step p.isClosed event).map (.mapNext (.logging level')) :=
      Service.step_of_shows h
    rw [step_service_eq, step_service_eq, Option.map_map]
    refine (congrArg (Option.map p.carryOn) hsteps).trans ?_
    rw [Option.map_map]
    exact congrArg (Option.map · _) (funext fun turn => carryOn_mapNext turn)

theorem step_muted (h : ¬ p.LosesName event) (level level' : Level) :
    ((p.logging level).step event).map muted = ((p.logging level').step event).map muted := by
  cases event with
  | run =>
    refine congrArg some ?_
    rw [run_logging, run_logging]
    exact Prod.ext (logging_logging.trans logging_logging.symm) rfl
  | close =>
    refine congrArg some (Prod.ext ?_ rfl)
    exact (logging_logging (p := p.close)).trans (logging_logging (p := p.close)).symm
  | service event =>
    have hservice : ¬ p.service.LosesName event := fun hs => h ⟨event, rfl, hs⟩
    have hsteps := Service.step_muted hservice level level' p.isClosed
    have hcarry : ∀ turns : Option (Turn Service),
        (turns.map p.carryOn).map muted =
          (turns.map Service.muted).map fun turn => muted (p.carryOn turn) := by
      intro turns
      simp only [Option.map_map, Function.comp_def, muted_carryOn]
    refine (hcarry _).trans (Eq.trans ?_ (hcarry _).symm)
    exact congrArg (Option.map fun turn => muted (p.carryOn turn)) hsteps

variable {events : List Event} {effects : List Effect}

theorem runAll_of_shows (h : level.shows .info = level'.shows .info) :
    (p.logging level').runAll events =
      ((p.logging level).runAll events).map (relevel level') := by
  induction events generalizing p with
  | nil => exact congrArg some (Prod.ext logging_logging.symm rfl)
  | cons event events ih =>
    simp only [runAll, step_of_shows h]
    cases hstep : (p.logging level).step event with
    | none => rfl
    | some next =>
      obtain ⟨q, first⟩ := next
      -- the step keeps the level, so that the induction applies to what it leads to
      have hlevel : q.logging level = q := by
        have hkept : (p.logging level).step event =
            ((p.logging level).step event).map (relevel level) := step_of_shows rfl
        rw [hstep] at hkept
        exact (Prod.ext_iff.mp (Option.some.inj hkept)).1.symm
      have hrest := ih (p := q)
      rw [hlevel] at hrest
      simp only [Option.map_some, Option.bind_some, relevel, hrest, Option.map_map,
        Function.comp_def]

theorem logging_of_runAll (h : (p.logging level).runAll events = some (q, effects)) :
    q.logging level = q := by
  have hkept : (p.logging level).runAll events =
      ((p.logging level).runAll events).map (relevel level) := runAll_of_shows rfl
  rw [h] at hkept
  exact (Prod.ext_iff.mp (Option.some.inj hkept)).1.symm

/-- Proxies that are the same but for the level are the same at any level. -/
theorem eq_logging {q' : Proxy} (hlevel : q'.logging level = q')
    (h : q'.logging .off = q.logging .off) : q.logging level = q' := by
  rw [← hlevel, ← logging_logging, ← h, logging_logging]

theorem runAll_singleton (p : Proxy) (event : Event) : p.runAll [event] = p.step event := by
  simp only [runAll]
  cases p.step event with
  | none => rfl
  | some next => simp

/-- No name is lost on the way through these events. -/
def NamesAll (p : Proxy) (events : List Event) : Prop :=
  ∀ before event after q effects, events = before ++ event :: after →
    p.runAll before = some (q, effects) → ¬ q.LosesName event

theorem NamesAll.tail {first : List Effect} (h : p.NamesAll (event :: events))
    (hstep : p.step event = some (q, first)) : q.NamesAll events := by
  rintro before event' after r effects rfl hbefore
  exact h (event :: before) event' after r (first ++ effects) rfl (runAll_cons hstep hbefore)

theorem losesName_logging : (p.logging level).LosesName event ↔ p.LosesName event := by
  obtain ⟨frontend, gate, runs, service⟩ := p
  cases service with
  | stream s | framed s => exact Iff.rfl
  | datagram r =>
    simp only [LosesName, Service.LosesName, logging, Service.logging, Service.datagram.injEq]
    constructor
    · rintro ⟨e, rfl, _, e', rfl, rfl, h⟩
      exact ⟨_, rfl, r, e', rfl, rfl, h⟩
    · rintro ⟨e, rfl, _, e', rfl, rfl, h⟩
      exact ⟨_, rfl, _, e', rfl, rfl, h⟩

/-- Effects with others before them are without their lines what both are without theirs. -/
theorem muted_after (early : Proxy × List Effect) (results : Option (Proxy × List Effect)) :
    (results.map fun rest => (rest.1, early.2 ++ rest.2)).map muted =
      (results.map muted).map fun rest => (rest.1, (muted early).2 ++ rest.2) := by
  simp only [Option.map_map, Function.comp_def, muted, List.filter_append]

/-- As long as no name is lost, a run differs between levels in the lines about new flows only. -/
theorem runAll_muted (h : (p.logging level).NamesAll events) (level' : Level) :
    ((p.logging level).runAll events).map muted = ((p.logging level').runAll events).map muted := by
  induction events generalizing p with
  | nil => exact congrArg some (Prod.ext (logging_logging.trans logging_logging.symm) rfl)
  | cons event events ih =>
    have hnamed : ¬ p.LosesName event := fun hlost =>
      h [] event events _ [] rfl rfl (losesName_logging.mpr hlost)
    have hsteps := step_muted hnamed level level'
    rcases hstep : (p.logging level).step event with _ | ⟨q, first⟩
    · rw [hstep, Option.map_none, eq_comm, Option.map_eq_none_iff] at hsteps
      simp only [runAll, hstep, hsteps, Option.bind_none]
    · rw [hstep, Option.map_some, eq_comm, Option.map_eq_some_iff] at hsteps
      obtain ⟨⟨q', first'⟩, hstep', hmuted⟩ := hsteps
      obtain ⟨hnext, hfirst⟩ := Prod.ext_iff.mp hmuted
      have hlevel : q.logging level = q :=
        logging_of_runAll ((runAll_singleton _ event).trans hstep)
      have hlevel' : q.logging level' = q' :=
        eq_logging (logging_of_runAll ((runAll_singleton _ event).trans hstep')) hnext
      have hrest := ih (p := q) (hlevel.symm ▸ h.tail hstep)
      rw [hlevel, hlevel'] at hrest
      simp only [runAll, hstep, hstep', Option.bind_some]
      refine (muted_after (q, first) _).trans (Eq.trans ?_ (muted_after (q', first') _).symm)
      rw [hrest, hfirst]

/-- Where a name is lost, a log that would show it gives the datagram up, and any other opens the
flow. -/
theorem step_of_losesName {r : DatagramRelay} {client : SocketAddress} {payload : Bytes}
    {e : IoError} (hservice : p.service = .datagram r) (hloop : r.loop = .looking client payload)
    (hfind : r.table.find? client = none) (level : Level) :
    (p.logging level).step (.service (.datagram (.lookUp ⟨.ok (), .error e⟩))) =
      some (if level.shows .info then
          ({ p with service := .datagram (r.logging level).abandoned },
            [.log (.forwardFailed client e)])
        else ({ p with service := .datagram ((r.logging level).addFlow client payload) }, [])) := by
  obtain ⟨frontend, gate, runs, service⟩ := p
  obtain rfl : service = .datagram r := hservice
  have hrelay := DatagramRelay.step_of_losesName hloop hfind level gate.cancelled e
  simp only [step, isClosed, logging, Service.logging, Service.step, hrelay]
  cases level.shows .info <;> rfl

/-- Two levels of which one shows the line part where a name is lost. -/
theorem muted_step_ne {quiet verbose : Level} (hquiet : quiet.shows .info = false)
    (hverbose : verbose.shows .info = true) (h : p.LosesName event) :
    ((p.logging quiet).step event).map muted ≠ ((p.logging verbose).step event).map muted := by
  obtain ⟨_, rfl, r, _, hservice, rfl, client, payload, e, hloop, hfind, rfl⟩ := h
  rw [step_of_losesName hservice hloop hfind, step_of_losesName hservice hloop hfind, hquiet,
    hverbose]
  simp [muted, logging, Service.logging, DatagramRelay.logging, DatagramRelay.addFlow,
    DatagramRelay.abandoned]

theorem namesAll_of_muted {quiet verbose : Level} (hquiet : quiet.shows .info = false)
    (hverbose : verbose.shows .info = true)
    (h : ∀ before, before <+: events → ((p.logging quiet).runAll before).map muted =
      ((p.logging verbose).runAll before).map muted) : (p.logging quiet).NamesAll events := by
  rintro before event after q effects rfl hbefore hlost
  have hrun := h before (List.prefix_append ..)
  rw [hbefore, Option.map_some, eq_comm, Option.map_eq_some_iff] at hrun
  obtain ⟨⟨q', effects'⟩, hbefore', hmuted⟩ := hrun
  obtain ⟨hnext, heffects⟩ := Prod.ext_iff.mp hmuted
  have hlevel : q.logging quiet = q := logging_of_runAll hbefore
  have hlevel' : q.logging verbose = q' := eq_logging (logging_of_runAll hbefore') hnext
  refine muted_step_ne hquiet hverbose hlost ?_
  -- both runs go on from here by this one event, and what they did before it is the same
  have hnext := h (before ++ [event]) ⟨after, by simp⟩
  rw [hlevel, hlevel']
  simp only [runAll_append, hbefore, hbefore', Option.bind_some, runAll_singleton] at hnext
  refine Option.map_injective ?_ ((muted_after (q, effects) _).symm.trans
    (hnext.trans (heffects ▸ muted_after (q', effects') _)))
  intro rest rest' heq
  obtain ⟨hq, hrest⟩ := Prod.ext_iff.mp heq
  exact Prod.ext hq (List.append_cancel_left hrest)

/-- What the level of the log changes of the runs of a proxy. -/
structure AtLevels (p : Proxy) : Prop where
  alike : ∀ level level' events, level.shows .info = level'.shows .info →
    (p.logging level').runAll events = ((p.logging level).runAll events).map (relevel level')
  same_iff : ∀ (quiet verbose : Level) events,
    quiet.shows .info = false → verbose.shows .info = true →
    ((∀ before, before <+: events → ((p.logging quiet).runAll before).map muted =
        ((p.logging verbose).runAll before).map muted) ↔
      (p.logging quiet).NamesAll events)
  lost : ∀ r client payload e level, p.service = .datagram r → r.loop = .looking client payload →
    r.table.find? client = none →
    (p.logging level).step (.service (.datagram (.lookUp ⟨.ok (), .error e⟩))) =
      some (if level.shows .info then
          ({ p with service := .datagram (r.logging level).abandoned },
            [.log (.forwardFailed client e)])
        else ({ p with service := .datagram ((r.logging level).addFlow client payload) }, []))

theorem atLevels (p : Proxy) : p.AtLevels where
  alike _ _ _ h := runAll_of_shows h
  same_iff quiet verbose events hquiet hverbose := by
    refine ⟨namesAll_of_muted hquiet hverbose, fun h before hbefore => runAll_muted ?_ verbose⟩
    obtain ⟨rest, rfl⟩ := hbefore
    rintro early event late q effects rfl hearly
    exact h early event (late ++ rest) q effects (by simp) hearly
  lost _ _ _ _ level hservice hloop hfind := step_of_losesName hservice hloop hfind level

end Proxy

namespace CommandLine.Arguments

def withVerbose (a : Arguments) (flag : Bool) : Arguments := { a with verbose := flag }

/-- The factory that the program uses. -/
def factory (a : Arguments) : Factory :=
  if a.bestEffort then .bestEffort a.frontend a.backend else .any a.frontend a.backend

/-- What the flag for more lines changes of the program: the level of the log, which shows the line
about a new flow with the flag and without it, and that about a bound frontend with it only. -/
structure OnlyRaisesLevel (a : Arguments) (flag : Bool) : Prop where
  flow : (a.withVerbose flag).level.shows .info = true
  bound : (a.withVerbose flag).level.shows .debug = flag
  make : ∀ (σ : Type) (b : Binder σ) s,
    (a.withVerbose flag).make b s = a.factory.make b (a.withVerbose flag).level s

theorem onlyRaisesLevel (a : Arguments) (flag : Bool) : a.OnlyRaisesLevel flag where
  flow := by cases flag <;> rfl
  bound := by cases flag <;> rfl
  make σ b s := by
    obtain ⟨frontend, backend, bestEffort, udpTimeout, verbose⟩ := a
    cases bestEffort <;> rfl

end CommandLine.Arguments

/-- Whatever the calls are answered, the level of the log changes nothing of a construction but what
a socket comes to that does not tell its address, and nothing of a run but the lines about new flows
and what follows from such a socket. -/
theorem Level.matters_where_withheld {σ : Type} (c : BindCalls σ) (F : Factory) (s : σ) (k : Kernel)
    (p : Proxy) (a : CommandLine.Arguments) (flag : Bool) :
    F.AtLevels c s ∧ Kernel.calls.binder = Binder.system ∧ F.OnHost k ∧ p.AtLevels ∧
      a.OnlyRaisesLevel flag :=
  ⟨F.atLevels c s, BindCalls.binder_calls, F.onHost k, p.atLevels, a.onlyRaisesLevel flag⟩

/-- A frontend whose socket does not tell its address is a failure without the flag for more lines,
and with it a failure to listen, or none; and a datagram is given up or sent on, as the level is. -/
theorem Level.withheld_address_tells :
    let frontend : Address := .stream (.v4 .loopback 0)
    let backend : Address := .stream (.v4 ⟨10, 0, 0, 2⟩ 80)
    let made (bestEffort flag : Bool) :=
      let a : CommandLine.Arguments := ⟨frontend, backend, bestEffort, 90, flag⟩
      (a.make (.system a.level) (.fresh .isolated [⟨.getsockname, 99⟩])).1.1
    let p : Proxy := .bound (.datagram (.v4 .loopback 53))
      (.datagram (.idle (.v4 ⟨10, 0, 0, 2⟩ 53) .info))
    let opened : List Proxy.Event := [.run,
      .service (.datagram (.receive (.ok (.v4 .loopback 1024, [1])))),
      .service (.datagram (.lookUp ⟨.ok (), .error (.os 99)⟩))]
    made false false = .error (.io (.os 99)) ∧
      made false true = .error (.listen frontend (.os 99)) ∧
      made true false = .error (.io (.os 99)) ∧ made true true = .ok none ∧
      ((p.logging .info).runAll opened).map Proxy.muted ≠
        ((p.logging .warn).runAll opened).map Proxy.muted ∧
      (((p.logging .info).runAll opened).any fun result =>
        .log (.forwardFailed (.v4 .loopback 1024) (.os 99)) ∈ result.2) ∧
      ((p.logging .warn).runAll (opened ++ [.service (.datagram (.send (.ok ())))])).any
        fun result => .transmit 0 [1] ∈ result.2 := by
  decide

end PortForward

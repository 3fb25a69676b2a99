import PortForward.Proofs.Datagram.Replies
import PortForward.Proofs.Framed.Settling
import PortForward.Proofs.LifeCycle
import PortForward.Proofs.Stream.Settling

/-!
# The tasks of a closed proxy

A closed proxy waits for the tasks that serve its clients. Nearly all of them can end alone, with
calls that the kernel answers at once, whatever it answers: the relay of a stream drops out of
anything, and the others go on to where they notice the close. The exception is a framed relay that
writes a reply. It notices nothing until its client has read the frame, and a client that does not
read keeps it for ever.
-/

namespace PortForward

/-- A relay that has something left to write does nothing else. -/
theorem FramedRelay.Transition.write_of_writing {closed : Bool} {backend : SocketAddress}
    {number socket : Nat} {rest : Bytes} {r : FramedRelay} {event : FramedRelay.Event}
    {next : Option FramedRelay} {effects : List Effect}
    (h : Transition closed backend number r event next effects)
    (hphase : r.phase = .writing socket rest) : ∃ result, event = .write result := by
  cases h with
  | wrote | writeFailed => exact ⟨_, rfl⟩
  | announced h | opened h | openFailed h | ended h | read h | readFailed h | decoded h
  | exhausted h | oversized h | truncated h | finished h | sent h | refusedOnce h | sendFailed h
  | received h | receiveRefused h | receiveFailed h | stopped h => cases hphase.symm.trans h

namespace Service

/-- What a task may do without its peers, given the kernel's answer to the call. -/
inductive Unaided (task : Nat) : (Except IoError Unit → Event) → Prop
  | streamAnnounce : Unaided task fun _ => .stream (.relay task .announce)
  | dial : Unaided task fun _ => .stream (.relay task .dial)
  | drop : Unaided task fun _ => .stream (.relay task .drop)
  | framedAnnounce : Unaided task fun _ => .framed (.relay task .announce)
  | opened : Unaided task fun answer => .framed (.relay task (.opened answer))
  | decode : Unaided task fun _ => .framed (.relay task .decode)
  | send : Unaided task fun answer => .framed (.relay task (.send answer))
  | stop : Unaided task fun _ => .framed (.relay task .stop)
  | refresh : Unaided task fun _ => .datagram (.refresh task)
  | replySend : Unaided task fun answer => .datagram (.replySend task answer)
  | forget : Unaided task fun _ => .datagram (.forget task)
  | replyStop : Unaided task fun _ => .datagram (.replyStop task)

namespace HeldUp

variable {closed : Bool} {s : Service} {task : Nat} {turn : Turn Service}

theorem lives (h : s.HeldUp task) : s.lives task = true := by
  obtain ⟨f, r, socket, rest, rfl, hr, -⟩ := h
  rw [Service.lives, hr]
  rfl

theorem write_of_step {event : FramedRelay.Event} (h : s.HeldUp task)
    (hstep : s.step closed (.framed (.relay task event)) = some turn) :
    ∃ result, event = .write result := by
  obtain ⟨f, r, socket, rest, rfl, hr, hphase⟩ := h
  obtain ⟨e, t, heq, ht, -⟩ := exists_framed_step hstep
  cases heq
  cases FramedService.transition_of_step ht with
  | moved hr' hmove =>
    cases hr.symm.trans hr'
    exact hmove.write_of_writing hphase

end HeldUp

end Service

namespace Proxy

open Service (Unaided)

/-- The task can come to its end without its peers, whatever the kernel answers on the way. -/
inductive EndsAlone (task : Nat) : Proxy → Prop
  | gone {p : Proxy} : p.service.lives task = false → EndsAlone task p
  | goesOn {p : Proxy} {call : Except IoError Unit → Service.Event}
      {next : Except IoError Unit → Proxy} {effects : Except IoError Unit → List Effect} :
      Unaided task call →
      (∀ answer, p.step (.service (call answer)) = some (next answer, effects answer)) →
      (∀ answer, EndsAlone task (next answer)) → EndsAlone task p

variable {σ τ : Type} {service : σ → Service} {find : σ → Option τ} {task : Nat}

/-- In a closed proxy of one kind, a task that has come this far ends alone. -/
def Leaves (service : σ → Service) (find : σ → Option τ) (task : Nat) (t : Option τ) : Prop :=
  ∀ (p : Proxy) (s : σ), p.isClosed = true → p.service = service s → find s = t → p.EndsAlone task

/-- A task that is not to be found has come to its end. -/
theorem Leaves.none (hlives : ∀ s, (service s).lives task = (find s).isSome) :
    Leaves service find task none := by
  intro p s _ hs ht
  exact .gone (by rw [hs, hlives, ht]; rfl)

/-- A task ends alone from where a call of its own leads to where it ends alone. -/
theorem Leaves.of_call {t : τ} {call : Except IoError Unit → Service.Event}
    (hcall : Unaided task call)
    (h : ∀ (p : Proxy) s, p.isClosed = true → p.service = service s → find s = some t →
      ∀ answer, ∃ q effects s', p.step (.service (call answer)) = some (q, effects) ∧
        q.service = service s' ∧ Leaves service find task (find s')) :
    Leaves service find task (some t) := by
  intro p s hclosed hs ht
  choose next effects s' hstep hservice hleaves using h p s hclosed hs ht
  refine .goesOn hcall hstep fun answer => ?_
  exact hleaves answer _ _ (isClosed_of_step (hstep answer) hclosed) (hservice answer) rfl

section Stream

variable {client : Nat} {r : StreamRelay} {next : Option StreamRelay}

def StreamLeaves (client : Nat) : Option StreamRelay → Prop :=
  Leaves .stream (StreamService.relay? · client) client

theorem StreamLeaves.none : StreamLeaves client none := Leaves.none fun _ => rfl

theorem StreamLeaves.of_step {event : StreamRelay.Event}
    (hcall : Unaided client fun _ => .stream (.relay client event))
    (hmap : (r.step true event).map Prod.fst = some next)
    (hkeeps : ∀ r', next = some r' → r'.client = r.client) (hnext : StreamLeaves client next) :
    StreamLeaves client (some r) := by
  obtain ⟨⟨_, effects⟩, hstep, rfl⟩ := Option.map_eq_some_iff.mp hmap
  refine Leaves.of_call hcall fun p s hclosed hs hr _ => ?_
  rw [← hclosed] at hstep
  refine ⟨_, effects, _, step_relay hs hr hstep, rfl, ?_⟩
  rw [StreamService.relay?_replace_self hr fun r' hr' =>
    (hkeeps r' hr').trans (StreamService.client_of_relay? hr)]
  exact hnext

/-- The relay of a stream drops out of whatever it waits for. -/
theorem streamLeaves (client : Nat) (r : StreamRelay) : StreamLeaves client (some r) := by
  have hdrop : ∀ r : StreamRelay, r.phase ≠ .accepted → StreamLeaves client (some r) := by
    intro r hphase
    have hstep : (r.step true .drop).map Prod.fst = some none := by
      cases h : r.phase with
      | accepted => exact absurd h hphase
      | _ => simp [StreamRelay.step, h]
    refine .of_step .drop hstep ?_ .none
    intro r' hr'
    cases hr'
  by_cases hphase : r.phase = .accepted
  · have hstep : (r.step true .announce).map Prod.fst =
        some (some { r with phase := .announced }) := by
      simp [StreamRelay.step, hphase]
    refine .of_step .streamAnnounce hstep ?_ (hdrop _ (by simp))
    intro r' hr'
    cases hr'
    rfl
  · exact hdrop r hphase

end Stream

section Framed

variable {client : Nat} {r : FramedRelay}

theorem relay?_moved {s : FramedService} {closed : Bool} {backend : SocketAddress} {number : Nat}
    {event : FramedRelay.Event} {next : Option FramedRelay} {effects : List Effect}
    (hr : s.relay? client = some r)
    (h : r.step closed backend number event = some (next, effects)) :
    ((s.replace client next).countOpened event).relay? client = next := by
  have ht := FramedRelay.transition_of_step h
  rw [FramedService.relay?_countOpened, FramedService.relay?_replace_self hr fun r' hr' =>
    (ht.keeps hr').1.trans (FramedService.client_of_relay? hr)]

def FramedLeaves (client : Nat) : Option FramedRelay → Prop :=
  Leaves .framed (FramedService.relay? · client) client

theorem FramedLeaves.none : FramedLeaves client none := Leaves.none fun _ => rfl

theorem FramedLeaves.of_step {event : Except IoError Unit → FramedRelay.Event}
    (hcall : Unaided client fun answer => .framed (.relay client (event answer)))
    (h : ∀ backend number answer, ∃ next,
      (r.step true backend number (event answer)).map Prod.fst = some next ∧
        FramedLeaves client next) :
    FramedLeaves client (some r) := by
  refine Leaves.of_call hcall fun p s hclosed hs hr answer => ?_
  obtain ⟨next, hmap, hnext⟩ := h s.backend s.opened answer
  obtain ⟨⟨_, effects⟩, hstep, rfl⟩ := Option.map_eq_some_iff.mp hmap
  rw [← hclosed] at hstep
  refine ⟨_, effects, _, step_connection hs hr hstep, rfl, ?_⟩
  rw [relay?_moved hr hstep]
  exact hnext

theorem framedLeaves_waiting {socket : Nat} (h : r.phase = .waiting socket) :
    FramedLeaves client (some r) := by
  refine .of_step .stop fun backend number _ => ⟨none, ?_, .none⟩
  simp [FramedRelay.step, h]

/-- Whatever comes of sending, the relay goes back to waiting or ends, after one more try at
most. -/
theorem framedLeaves_sending {socket : Nat} {payload : Bytes} {retried : Bool}
    (h : r.phase = .sending socket payload retried) : FramedLeaves client (some r) := by
  have hretried : ∀ r : FramedRelay, r.phase = .sending socket payload true →
      FramedLeaves client (some r) := by
    intro r h
    refine .of_step .send fun backend number answer => ?_
    cases answer with
    | ok _ =>
      exact ⟨some { r with phase := .waiting socket }, by simp [FramedRelay.step, h],
        framedLeaves_waiting rfl⟩
    | error e => exact ⟨none, by simp [FramedRelay.step, FramedRelay.fail, h], .none⟩
  cases retried with
  | true => exact hretried r h
  | false =>
    refine .of_step .send fun backend number answer => ?_
    cases answer with
    | ok _ =>
      exact ⟨some { r with phase := .waiting socket }, by simp [FramedRelay.step, h],
        framedLeaves_waiting rfl⟩
    | error e =>
      by_cases hkind : e.kind = .connectionRefused
      · exact ⟨some { r with phase := .sending socket payload true },
          by simp [FramedRelay.step, h, hkind], hretried _ rfl⟩
      · exact ⟨none, by simp [FramedRelay.step, FramedRelay.fail, h, hkind], .none⟩

theorem framedLeaves_opening (h : r.phase = .opening) : FramedLeaves client (some r) := by
  refine .of_step .opened fun backend number answer => ?_
  cases answer with
  | ok _ =>
    exact ⟨some { r with phase := .waiting number }, by simp [FramedRelay.step, h],
      framedLeaves_waiting rfl⟩
  | error e => exact ⟨none, by simp [FramedRelay.step, FramedRelay.fail, h], .none⟩

/-- A framed relay that has nothing to write ends alone. -/
theorem framedLeaves (h : ∀ socket rest, r.phase ≠ .writing socket rest) :
    FramedLeaves client (some r) := by
  cases hphase : r.phase with
  | accepted =>
    refine .of_step .framedAnnounce fun backend number _ => ?_
    exact ⟨some { r with phase := .opening }, by simp [FramedRelay.step, hphase],
      framedLeaves_opening rfl⟩
  | opening => exact framedLeaves_opening hphase
  | waiting socket => exact framedLeaves_waiting hphase
  | sending socket payload retried => exact framedLeaves_sending hphase
  | writing socket rest => exact absurd hphase (h socket rest)

end Framed

section Replies

open DatagramRelay

variable {socket : Nat} {t : ReplyTask}

def ReplyLeaves (socket : Nat) : Option ReplyTask → Prop :=
  Leaves .datagram (DatagramRelay.task? · socket) socket

theorem ReplyLeaves.none : ReplyLeaves socket none := Leaves.none fun _ => rfl

theorem ReplyLeaves.of_step {event : Except IoError Unit → DatagramRelay.Event}
    (hcall : Unaided socket fun answer => .datagram (event answer))
    (h : ∀ r : DatagramRelay, r.task? socket = some t → ∀ answer, ∃ turn,
      r.step true (event answer) = some turn ∧ ReplyLeaves socket (turn.next.task? socket)) :
    ReplyLeaves socket (some t) := by
  refine Leaves.of_call hcall fun p r hclosed hs ht answer => ?_
  obtain ⟨turn, hstep, hnext⟩ := h r ht answer
  have hturn : p.service.step p.isClosed (.datagram (event answer)) =
      some ⟨.datagram turn.next, turn.effects, turn.loopEnd⟩ := by
    rw [hs, hclosed]
    simp only [Service.step, hstep, Option.map_some]
  obtain ⟨q, effects, hstep, hservice⟩ := exists_step hturn
  exact ⟨q, effects, turn.next, hstep, hservice, hnext⟩

theorem replyLeaves_receiving (h : t.phase = .receiving) : ReplyLeaves socket (some t) := by
  refine .of_step .replyStop fun r ht _ => ?_
  refine ⟨_, DatagramRelay.step_of_transition (.replyStopped ht h (.inr rfl)), ?_⟩
  rw [Turn.on_next, task?_endTask_self]
  exact .none

theorem replyLeaves_replying {payload : Bytes} (h : t.phase = .replying payload) :
    ReplyLeaves socket (some t) := by
  refine .of_step .replySend fun r ht answer => ?_
  have hnext : ReplyLeaves socket ((r.setPhase socket .receiving).task? socket) := by
    rw [task?_setPhase_self ht]
    exact replyLeaves_receiving rfl
  cases answer with
  | ok _ => exact ⟨_, DatagramRelay.step_of_transition (.replied ht h), hnext⟩
  | error e => exact ⟨_, DatagramRelay.step_of_transition (.replyFailed ht h), hnext⟩

/-- The task of a flow gets its reply out of its hands, and then notices the close. -/
theorem replyLeaves (socket : Nat) (t : ReplyTask) : ReplyLeaves socket (some t) := by
  cases hphase : t.phase with
  | receiving => exact replyLeaves_receiving hphase
  | replying payload => exact replyLeaves_replying hphase
  | refreshing payload =>
    refine .of_step .refresh fun r ht _ => ?_
    refine ⟨_, DatagramRelay.step_of_transition (.refreshed ht hphase), ?_⟩
    have hnext := task?_setPhase_self (r := { r with table := r.table.touch t.client r.now }) ht
      (.replying payload)
    rw [Turn.on_next, hnext]
    exact replyLeaves_replying rfl
  | forgetting =>
    refine .of_step .forget fun r ht _ => ?_
    refine ⟨_, DatagramRelay.step_of_transition (.forgot ht hphase), ?_⟩
    rw [Turn.on_next, task?_endTask_self]
    exact .none

end Replies

section HeldUp

variable {p q : Proxy} {s : FramedService} {client : Nat} {r : FramedRelay} {socket : Nat}
variable {rest : Bytes} {effects : List Effect}

theorem endsAlone_of_not_heldUp (hclosed : p.isClosed = true) (h : ¬ p.service.HeldUp task) :
    p.EndsAlone task := by
  cases hs : p.service with
  | stream s =>
    cases hr : s.relay? task with
    | none => exact StreamLeaves.none p s hclosed hs hr
    | some r => exact streamLeaves task r p s hclosed hs hr
  | framed s =>
    cases hr : s.relay? task with
    | none => exact FramedLeaves.none p s hclosed hs hr
    | some r =>
      refine framedLeaves (fun socket rest hphase => h ?_) p s hclosed hs hr
      exact ⟨s, r, socket, rest, hs, hr, hphase⟩
  | datagram r =>
    cases ht : r.task? task with
    | none => exact ReplyLeaves.none p r hclosed hs ht
    | some t => exact replyLeaves task t p r hclosed hs ht

theorem not_endsAlone_of_heldUp (h : p.service.HeldUp task) : ¬ p.EndsAlone task := by
  intro hends
  cases hends with
  | gone hgone => cases h.lives.symm.trans hgone
  | goesOn hcall hstep _ =>
    -- no answer of the kernel makes another call than a write one that the relay waits for
    obtain ⟨turn, hturn, -⟩ := step_service (hstep (.ok ()))
    cases hcall with
    | framedAnnounce | opened | decode | send | stop =>
      obtain ⟨result, heq⟩ := h.write_of_step hturn
      cases heq
    | streamAnnounce | dial | drop | refresh | replySend | forget | replyStop =>
      obtain ⟨s, r, socket, rest, hs, -, -⟩ := h
      rw [hs] at hturn
      cases hturn

/-- Nothing but a write of its own moves a relay that has something left to write. -/
theorem relay_of_unwritten {event : Event} (hs : p.service = .framed s)
    (hr : s.relay? client = some r) (hphase : r.phase = .writing socket rest)
    (hstep : p.step event = some (q, effects))
    (hother : ∀ result, event ≠ .service (.framed (.relay client (.write result)))) :
    ∃ s', q.service = .framed s' ∧ s'.relay? client = some r := by
  obtain ⟨s', hs'⟩ := step_keeps_kind Service.isKind_framed hs hstep
  refine ⟨s', hs', ?_⟩
  cases framedPassage_of_step hs hstep hs' with
  | refused | closed | started | failed | stopped => exact hr
  | accepted =>
    have hfind : s.relays.find? (·.client = client) = some r := hr
    simp [FramedService.relay?, List.find?_append, hfind]
  | @moved client' event r' next _ hr' ht =>
    have hne : client ≠ client' := by
      rintro rfl
      cases hr.symm.trans hr'
      obtain ⟨result, rfl⟩ := ht.write_of_writing hphase
      exact hother result rfl
    rw [FramedService.relay?_countOpened, FramedService.relay?_replace_of_ne hne fun r'' hr'' =>
      (ht.keeps hr'').1.trans (FramedService.client_of_relay? hr')]
    exact hr

theorem heldUp_of_runAll {events : List Event} (h : p.service.HeldUp client)
    (hrun : p.runAll events = some (q, effects))
    (hother : ∀ result, .service (.framed (.relay client (.write result))) ∉ events) :
    q.service.HeldUp client := by
  obtain ⟨s, r, socket, rest, hs, hr, hphase⟩ := h
  induction events generalizing p s effects with
  | nil =>
    cases hrun
    exact ⟨s, r, socket, rest, hs, hr, hphase⟩
  | cons event events ih =>
    obtain ⟨⟨p', first⟩, hstep, hlast⟩ := Option.bind_eq_some_iff.mp hrun
    obtain ⟨⟨q', late⟩, hlate, heq⟩ := Option.map_eq_some_iff.mp hlast
    cases heq
    obtain ⟨s', hs', hr'⟩ := relay_of_unwritten hs hr hphase hstep fun result heq =>
      hother result (heq ▸ List.mem_cons_self)
    exact ih hlate (fun result hmem => hother result (List.mem_cons_of_mem _ hmem)) s' hs' hr'

end HeldUp

/-- How a task of a closed proxy can come to its end. -/
structure Departure (p : Proxy) (task : Nat) : Prop where
  alone_iff : p.EndsAlone task ↔ ¬ p.service.HeldUp task
  /-- it notices neither the close nor anything else -/
  only_writes : p.service.HeldUp task → ∀ event q effects,
    p.step (.service (.framed (.relay task event))) = some (q, effects) →
    ∃ result, event = .write result
  /-- until its client reads or breaks off -/
  stays : p.service.HeldUp task → ∀ events q effects, p.runAll events = some (q, effects) →
    (∀ result, .service (.framed (.relay task (.write result))) ∉ events) → q.service.HeldUp task
  read : p.service.HeldUp task → ∃ n q effects,
    p.step (.service (.framed (.relay task (.write (.ok n))))) = some (q, effects) ∧
      q.EndsAlone task
  broken : p.service.HeldUp task → ∀ e, ∃ q effects,
    p.step (.service (.framed (.relay task (.write (.error e))))) = some (q, effects) ∧
      q.service.lives task = false

variable {p : Proxy} {s : FramedService} {r : FramedRelay} {socket : Nat} {rest : Bytes}

theorem exists_write_all (hclosed : p.isClosed = true) (hs : p.service = .framed s)
    (hr : s.relay? task = some r) (hphase : r.phase = .writing socket rest) (hne : rest ≠ []) :
    ∃ n q effects, p.step (.service (.framed (.relay task (.write (.ok n))))) = some (q, effects) ∧
      q.EndsAlone task := by
  have hpos : 0 < rest.length := List.length_pos_iff.mpr hne
  have hmove : r.step p.isClosed s.backend s.opened (.write (.ok rest.length)) =
      some (some { r with phase := .waiting socket },
        [.deliver r.client .client (rest.take rest.length)]) := by
    simp [FramedRelay.step, hphase, hpos]
  have hstep := step_connection hs hr hmove
  have hnext : FramedLeaves task (some { r with phase := .waiting socket }) :=
    framedLeaves_waiting rfl
  exact ⟨_, _, _, hstep, hnext _ _ (isClosed_of_step hstep hclosed) rfl (relay?_moved hr hmove)⟩

theorem exists_write_error (hs : p.service = .framed s) (hr : s.relay? task = some r)
    (hphase : r.phase = .writing socket rest) (e : IoError) :
    ∃ q effects, p.step (.service (.framed (.relay task (.write (.error e))))) =
      some (q, effects) ∧ q.service.lives task = false := by
  have hmove : r.step p.isClosed s.backend s.opened (.write (.error e)) =
      some (none, [.log (.framedFailed r.peer e), .release r.client]) := by
    simp [FramedRelay.step, FramedRelay.fail, hphase]
  exact ⟨_, _, step_connection hs hr hmove, congrArg Option.isSome (relay?_moved hr hmove)⟩

variable {made : Proxy} {events : List Event} {effects : List Effect}

/-- A relay that writes has something left to write, in every state of every run. -/
theorem unfinished_of_runAll (hnew : made.IsNew) (h : made.runAll events = some (p, effects))
    (hs : p.service = .framed s) (hr : s.relay? task = some r)
    (hphase : r.phase = .writing socket rest) : rest ≠ [] := by
  obtain ⟨frontend, service, rfl, hfresh⟩ := hnew
  cases hfresh with
  | stream backend =>
    obtain ⟨past, s', hist, -, -⟩ := exists_history Service.isKind_stream rfl h
    cases hs.symm.trans hist.service_eq
  | framed backend =>
    obtain ⟨past, s', hist, -, -⟩ := exists_history Service.isKind_framed rfl h
    cases hs.symm.trans hist.service_eq
    obtain ⟨peer, -, haccount⟩ := (FramedService.connected_of_history hist).account hr
    exact haccount.tidy.unfinished socket rest hphase
  | datagram backend level timeout =>
    obtain ⟨past, r', hist, -, -⟩ := exists_history Service.isKind_datagram rfl h
    cases hs.symm.trans hist.service_eq

/-- In every state of every run in which a proxy is closed, each of its tasks ends alone, unless it
is a relay in the middle of a reply to its client, and that one waits for the client and for no
one else. -/
theorem departs_unless_writing (hnew : made.IsNew) (h : made.runAll events = some (p, effects))
    (hclosed : p.isClosed = true) (task : Nat) : p.Departure task := by
  constructor
  case alone_iff =>
    exact ⟨fun hends hheld => not_endsAlone_of_heldUp hheld hends, endsAlone_of_not_heldUp hclosed⟩
  case only_writes =>
    intro hheld event q effects hstep
    obtain ⟨turn, hturn, -⟩ := step_service hstep
    exact hheld.write_of_step hturn
  case stays => exact fun hheld events q effects => heldUp_of_runAll hheld
  case read =>
    rintro ⟨s, r, socket, rest, hs, hr, hphase⟩
    exact exists_write_all hclosed hs hr hphase (unfinished_of_runAll hnew h hs hr hphase)
  case broken =>
    rintro ⟨s, r, socket, rest, hs, hr, hphase⟩ e
    exact exists_write_error hs hr hphase e

/-- The stream proxy is closed while it dials for its client. -/
theorem departs_while_dialing :
    let frontend : Address := .stream (.v4 .loopback 80)
    let backend : StreamBackend := .ip (.v4 .loopback 8080)
    let peer : Address := .stream (.v4 .loopback 5001)
    let relayed (event : StreamRelay.Event) : Event := .service (.stream (.relay 0 event))
    let events : List Event := [.run, .service (.stream (.accept (.ok peer))), relayed .announce,
      relayed .dial, .close]
    let p : Proxy :=
      ⟨frontend, ⟨none, true⟩, [.running], .stream ⟨backend, true, 1, [⟨0, peer, .dialing⟩]⟩⟩
    ((bound frontend (.stream (.idle backend))).runAll events).map Prod.fst = some p ∧
      p.isClosed = true ∧ p.service.lives 0 = true ∧ p.Departure 0 ∧ p.EndsAlone 0 := by
  intro frontend backend peer relayed events p
  have hrun : (bound frontend (.stream (.idle backend))).runAll events =
      some (p, [.log (.streamRunning frontend backend.address), .log (.clientAccepted peer),
        .dial 0]) := by
    decide +kernel
  have hdeparture := departs_unless_writing ⟨_, _, rfl, .stream backend⟩ hrun rfl 0
  have hnot : ¬ p.service.HeldUp 0 := by
    rintro ⟨s, r, socket, rest, hs, -, -⟩
    cases hs
  exact ⟨by rw [hrun]; rfl, rfl, rfl, hdeparture, hdeparture.alone_iff.mpr hnot⟩

/-- A proxy is closed when its relay has a reply to write, and the relay does not end alone. -/
theorem stays_while_writing :
    let frontend : Address := .vsock ⟨.any, 53⟩
    let backend : SocketAddress := .v4 .loopback 53
    let peer : Address := .vsock ⟨.id 3, 1024⟩
    let events : List Event :=
      [.run, .service (.framed (.accept (.ok peer)))] ++
      ofConnection 0 [.announce, .opened (.ok ()), .read (.ok [1, 0, 97]), .decode, .send (.ok ()),
        .receive (.ok [98])] ++ [.close]
    let p : Proxy :=
      ⟨frontend, ⟨none, true⟩, [.running],
        .framed ⟨backend, true, 1, 1, [⟨0, peer, .writing 0 [1, 0, 98], .empty, true, false⟩]⟩⟩
    ((bound frontend (.framed (.idle backend))).runAll events).map Prod.fst = some p ∧
      p.isClosed = true ∧ p.service.lives 0 = true ∧ ¬ p.EndsAlone 0 := by
  intro frontend backend peer events p
  refine ⟨by decide +kernel, rfl, rfl, not_endsAlone_of_heldUp ?_⟩
  exact ⟨_, _, 0, [1, 0, 98], rfl, rfl, rfl⟩

end Proxy

end PortForward

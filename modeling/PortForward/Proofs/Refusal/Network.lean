import PortForward.Proofs.Effects
import PortForward.Proofs.History

/-!
# Refusals of the backend

A datagram that is sent while nobody listens at the backend is lost. The kernel tells so later: a
refusal waits at the socket, one at most, and the next send or receive on that socket reports it
and does nothing else.

A scene is a proxy together with this network. The backend may come and go at any time; a step of
the proxy that calls the kernel on a backend socket is taken only with an answer that the network
can give.
-/

namespace PortForward

/-- A datagram that was sent to the backend: on which socket, and whether anybody listened. -/
structure Transmission where
  socket : Nat
  payload : Bytes
  heard : Bool
  deriving DecidableEq, Repr

def Transmission.datagram (t : Transmission) : Nat × Bytes := (t.socket, t.payload)

/-- Whether the backend listens, at which sockets a refusal waits, and what was sent so far. -/
structure Network where
  up : Bool
  refused : Nat → Bool
  sent : List Transmission

/-- A call of a relay on a backend socket, with the answer of the kernel. -/
inductive SocketCall
  | send (socket : Nat) (payload : Bytes) (result : Except IoError Unit)
  | receive (socket : Nat) (result : Except IoError Bytes)

/-- What a call sends to the backend. -/
def SocketCall.transmitted : SocketCall → List (Nat × Bytes)
  | send socket payload (.ok ()) => [(socket, payload)]
  | _ => []

namespace Network

def fresh (up : Bool) : Network := ⟨up, fun _ => false, []⟩

/-- The datagrams that have reached the backend, each with its socket. -/
def received (n : Network) : List (Nat × Bytes) := (n.sent.filter (·.heard)).map (·.datagram)

def sentOn (n : Network) (socket : Nat) : List Bytes :=
  (n.sent.filter (·.socket = socket)).map (·.payload)

def setRefused (n : Network) (socket : Nat) (refused : Bool) : Network :=
  { n with refused := fun s => if s = socket then refused else n.refused s }

/-- The network after a call, if the kernel can answer it this way. -/
def answer? (n : Network) : SocketCall → Option Network
  | .send socket payload (.ok ()) =>
    if n.refused socket then none
    else some { n.setRefused socket (!n.up) with sent := n.sent ++ [⟨socket, payload, n.up⟩] }
  | .receive socket (.ok _) => if n.refused socket then none else some n
  | .send socket _ (.error e) | .receive socket (.error e) =>
    if n.refused socket ∧ e.kind = .connectionRefused then some (n.setRefused socket false)
    else none

/-- The network after a step that may have made a call. -/
def after? (n : Network) : Option SocketCall → Option Network
  | none => some n
  | some call => n.answer? call

end Network

/-- The call that a step of a relay makes on a backend socket. -/
def DatagramRelay.call? (r : DatagramRelay) : Event → Option SocketCall
  | .send result =>
    match r.loop with
    | .sending _ payload socket _ => some (.send socket payload result)
    | _ => none
  | .replyReceive socket result => some (.receive socket result)
  | _ => none

def FramedRelay.call? (r : FramedRelay) : Event → Option SocketCall
  | .send result =>
    match r.phase with
    | .sending socket payload _ => some (.send socket payload result)
    | _ => none
  | .receive result =>
    match r.phase with
    | .waiting socket => some (.receive socket result)
    | _ => none
  | _ => none

def FramedService.call? (s : FramedService) : Event → Option SocketCall
  | .relay client event => (s.relay? client).bind (·.call? event)
  | _ => none

/-- The backends of streams are not reached through sockets of this kind. -/
def Proxy.call? (p : Proxy) : Event → Option SocketCall
  | .service (.datagram event) =>
    match p.service with
    | .datagram r => r.call? event
    | _ => none
  | .service (.framed event) =>
    match p.service with
    | .framed s => s.call? event
    | _ => none
  | _ => none

def DatagramRelay.Event.callsBackend : Event → Bool
  | send _ | replyReceive .. => true
  | _ => false

def FramedRelay.Event.callsBackend : Event → Bool
  | send _ | receive _ => true
  | _ => false

def Proxy.Event.callsBackend : Event → Bool
  | service (.datagram event) => event.callsBackend
  | service (.framed (.relay _ event)) => event.callsBackend
  | _ => false

/-- A proxy and the network on its backend's side. -/
structure Scene where
  proxy : Proxy
  network : Network

namespace Scene

inductive Event
  /-- the backend comes up or goes down -/
  | turn (up : Bool)
  | proxy (event : Proxy.Event)

def Event.proxy? : Event → Option Proxy.Event
  | turn _ => none
  | proxy event => some event

def step (s : Scene) : Event → Option Scene
  | .turn up => some { s with network := { s.network with up } }
  | .proxy event =>
    (s.proxy.step event).bind fun (proxy, _) =>
      (s.network.after? (s.proxy.call? event)).map (⟨proxy, ·⟩)

/-- The scene after a list of events, if each could happen in its turn. -/
def runAll (s : Scene) (events : List Event) : Option Scene := events.foldlM step s

/-- At most two sends are enough to pass a datagram on, whatever waits at the socket. -/
def Passes (s : Scene) (send : Except IoError Unit → Proxy.Event) (socket : Nat)
    (payload : Bytes) : Prop :=
  ∃ (answers : List (Except IoError Unit)) (s' : Scene), answers.length ≤ 2 ∧
    s.runAll (answers.map fun answer => .proxy (send answer)) = some s' ∧
    s'.network.sent = s.network.sent ++ [⟨socket, payload, s.network.up⟩]

/-- Whatever is sent in a part of a run during which the backend is up reaches it, and it is given
nothing else. -/
def Heard (start : Scene) (events : List Event) (s : Scene) : Prop :=
  ∀ early late between, events = early ++ late → start.runAll early = some between →
    between.network.up = true → .turn false ∉ late →
    ∃ more, s.network.sent = between.network.sent ++ more ∧
      s.network.received = between.network.received ++ more.map (·.datagram)

end Scene

namespace Network

/-- The answers of the kernel, one constructor for each. -/
inductive Answer (n : Network) : SocketCall → Network → Prop
  | sent {socket payload} : n.refused socket = false →
      Answer n (.send socket payload (.ok ()))
        { n.setRefused socket (!n.up) with sent := n.sent ++ [⟨socket, payload, n.up⟩] }
  | received {socket payload} : n.refused socket = false →
      Answer n (.receive socket (.ok payload)) n
  | sendRefused {socket payload e} : n.refused socket = true → e.kind = .connectionRefused →
      Answer n (.send socket payload (.error e)) (n.setRefused socket false)
  | receiveRefused {socket e} : n.refused socket = true → e.kind = .connectionRefused →
      Answer n (.receive socket (.error e)) (n.setRefused socket false)

variable {n n' : Network} {call : SocketCall} {calls : Option SocketCall} {socket : Nat}
variable {payload : Bytes} {e : IoError}

theorem answer_of_answer? (h : n.answer? call = some n') : Answer n call n' := by
  cases call with
  | send socket payload result =>
    cases result with
    | ok =>
      obtain ⟨hclear, h⟩ := Option.ite_none_left_eq_some.mp h
      cases h
      exact .sent (by simpa using hclear)
    | error e =>
      obtain ⟨⟨hwaits, hkind⟩, h⟩ := Option.ite_none_right_eq_some.mp h
      cases h
      exact .sendRefused hwaits hkind
  | receive socket result =>
    cases result with
    | ok payload =>
      obtain ⟨hclear, h⟩ := Option.ite_none_left_eq_some.mp h
      cases h
      exact .received (by simpa using hclear)
    | error e =>
      obtain ⟨⟨hwaits, hkind⟩, h⟩ := Option.ite_none_right_eq_some.mp h
      cases h
      exact .receiveRefused hwaits hkind

theorem after?_of_answer (h : Answer n call n') : n.after? (some call) = some n' := by
  cases h <;> simp [after?, answer?, *]

theorem refused_setRefused (n : Network) (socket other : Nat) (refused : Bool) :
    (n.setRefused socket refused).refused other =
      if other = socket then refused else n.refused other := rfl

/-- A refusal comes to wait only at a socket on which something is sent. -/
theorem clear_of_after? (h : n.after? calls = some n') (hclear : n.refused socket = false)
    (hother : ∀ payload, calls ≠ some (.send socket payload (.ok ()))) :
    n'.refused socket = false := by
  cases calls with
  | none =>
    cases h
    exact hclear
  | some call =>
    cases answer_of_answer? h with
    | @sent s payload =>
      have hne : socket ≠ s := by
        rintro rfl
        exact hother payload rfl
      have hsame : (n.setRefused s (!n.up)).refused socket = n.refused socket := by
        rw [refused_setRefused, if_neg hne]
      exact hsame.trans hclear
    | received => exact hclear
    | sendRefused | receiveRefused =>
      rw [refused_setRefused]
      split
      · rfl
      · exact hclear

theorem sent_of_after? (h : n.after? calls = some n') :
    n'.sent.map (·.datagram) =
      n.sent.map (·.datagram) ++ calls.toList.flatMap (·.transmitted) := by
  cases calls with
  | none =>
    cases h
    exact (List.append_nil _).symm
  | some call =>
    rw [Option.toList_some, List.flatMap_singleton]
    cases answer_of_answer? h with
    | sent => exact List.map_append
    | received | sendRefused | receiveRefused => exact (List.append_nil _).symm

theorem of_send_error (h : n.after? (some (.send socket payload (.error e))) = some n') :
    n.refused socket = true ∧ e.kind = .connectionRefused ∧ n'.refused socket = false := by
  have hanswer : Answer n (.send socket payload (.error e)) n' := answer_of_answer? h
  cases hanswer with
  | sendRefused hwaits hkind => exact ⟨hwaits, hkind, by rw [refused_setRefused, if_pos rfl]⟩

theorem of_receive_error (h : n.after? (some (.receive socket (.error e))) = some n') :
    e.kind = .connectionRefused := by
  have hanswer : Answer n (.receive socket (.error e)) n' := answer_of_answer? h
  cases hanswer with
  | receiveRefused _ hkind => exact hkind

theorem up_of_after? (h : n.after? calls = some n') : n'.up = n.up := by
  cases calls with
  | none =>
    cases h
    rfl
  | some call => cases answer_of_answer? h <;> rfl

/-- While the backend is up it is given all that is sent. -/
theorem received_of_after? (h : n.after? calls = some n') (hup : n.up = true) :
    ∃ more, n'.sent = n.sent ++ more ∧
      n'.received = n.received ++ more.map (·.datagram) := by
  have hnothing : ∃ more, n.sent = n.sent ++ more ∧
      n.received = n.received ++ more.map (·.datagram) :=
    ⟨[], (List.append_nil _).symm, (List.append_nil _).symm⟩
  cases calls with
  | none =>
    cases h
    exact hnothing
  | some call =>
    cases answer_of_answer? h with
    | sent => exact ⟨_, rfl, by simp [received, hup]⟩
    | received | sendRefused | receiveRefused => exact hnothing

end Network

/-- No call of a run on a backend socket is reported as failed, and the network has been given
what the run has sent. -/
structure Network.Serves {σ : Type} (past : List (Moment σ)) (n : Network) : Prop where
  unfailing : ∀ m ∈ past, m.event.callsBackend = true → errorLines m.effects = []
  sent_eq : n.sent.map (·.datagram) = transmissions (past.flatMap (·.effects))

namespace Network.Serves

variable {σ : Type} {past : List (Moment σ)} {m : Moment σ} {n n' : Network} {socket : Nat}

theorem fresh (up : Bool) : Serves ([] : List (Moment σ)) (.fresh up) where
  unfailing _ hm := absurd hm List.not_mem_nil
  sent_eq := rfl

theorem snoc {calls : Option SocketCall} (h : Serves past n) (hafter : n.after? calls = some n')
    (hunfailing : m.event.callsBackend = true → errorLines m.effects = [])
    (htransmits : transmissions m.effects = calls.toList.flatMap (·.transmitted)) :
    Serves (past ++ [m]) n' where
  unfailing m' hm' hcalls := by
    rcases List.mem_append.mp hm' with hm' | hm'
    · exact h.unfailing m' hm' hcalls
    · cases List.mem_singleton.mp hm'
      exact hunfailing hcalls
  sent_eq := by
    rw [sent_of_after? hafter, h.sent_eq, List.flatMap_append, transmissions_append,
      List.flatMap_singleton, htransmits]

theorem sentOn_eq (h : Serves past n) :
    n.sentOn socket = PortForward.sentOn socket (past.flatMap (·.effects)) := by
  rw [sentOn_eq_transmissions, ← h.sent_eq, List.filter_map, List.map_map]
  rfl

end Network.Serves

namespace Scene

variable {s s' start : Scene} {events : List Event}

theorem runAll_append (s : Scene) (events more : List Event) :
    s.runAll (events ++ more) = (s.runAll events).bind (·.runAll more) :=
  List.foldlM_append

theorem runAll_snoc (s : Scene) (events : List Event) (event : Event) :
    s.runAll (events ++ [event]) = (s.runAll events).bind (·.step event) := by
  rw [runAll_append]
  congr 1
  funext s'
  exact bind_pure (s'.step event)

/-- A step of the proxy that the network lets happen. -/
theorem step_proxy {event : Proxy.Event} {q : Proxy} {effects : List Effect} {n : Network}
    (hstep : s.proxy.step event = some (q, effects))
    (hafter : s.network.after? (s.proxy.call? event) = some n) :
    s.step (.proxy event) = some ⟨q, n⟩ := by
  simp only [step, hstep, hafter, Option.bind_some, Option.map_some]

theorem proxy_of_step {event : Proxy.Event} (h : s.step (.proxy event) = some s') :
    ∃ effects, s.proxy.step event = some (s'.proxy, effects) ∧
      s.network.after? (s.proxy.call? event) = some s'.network := by
  obtain ⟨⟨q, effects⟩, hstep, h⟩ := Option.bind_eq_some_iff.mp h
  obtain ⟨n, hafter, rfl⟩ := Option.map_eq_some_iff.mp h
  exact ⟨effects, hstep, hafter⟩

theorem heard_of_runAll (h : start.runAll events = some s) : Heard start events s := by
  intro early late between hevents hearly hup hlate
  subst hevents
  rw [runAll_append, hearly, Option.bind_some] at h
  have hall : s.network.up = true ∧ ∃ more, s.network.sent = between.network.sent ++ more ∧
      s.network.received = between.network.received ++ more.map (·.datagram) := by
    induction late using List.reverseRecOn generalizing s with
    | nil =>
      cases h
      exact ⟨hup, [], (List.append_nil _).symm, (List.append_nil _).symm⟩
    | append_singleton late event ih =>
      rw [runAll_snoc] at h
      obtain ⟨s₁, hs₁, hstep⟩ := Option.bind_eq_some_iff.mp h
      obtain ⟨hup₁, more₁, hsent₁, hreceived₁⟩ :=
        ih (fun hmem => hlate (List.mem_append_left _ hmem)) hs₁
      cases event with
      | turn up =>
        cases hstep
        cases up with
        | false => exact absurd (List.mem_append_right _ List.mem_cons_self) hlate
        | true => exact ⟨rfl, more₁, hsent₁, hreceived₁⟩
      | proxy event =>
        obtain ⟨effects, -, hafter⟩ := proxy_of_step hstep
        obtain ⟨more₂, hsent₂, hreceived₂⟩ := Network.received_of_after? hafter hup₁
        refine ⟨(Network.up_of_after? hafter).trans hup₁, more₁ ++ more₂, ?_, ?_⟩
        · rw [hsent₂, hsent₁, List.append_assoc]
        · rw [hreceived₂, hreceived₁, List.map_append, List.append_assoc]
  exact hall.2

/-- What holds at first, and is kept when the backend turns and by every step of the proxy that
the network lets happen, holds in all runs. -/
theorem exists_history {σ : Type} {service : σ → Service} (kind : Service.IsKind service)
    {start : Proxy} {s₀ : σ} (hs₀ : start.service = service s₀) {up : Bool}
    {motive : List (Moment σ) → σ → Network → Prop} (init : motive [] s₀ (.fresh up))
    (turn : ∀ {past s n} up, motive past s n → motive past s { n with up })
    (step : ∀ {past p s event q effects s' n n'}, History service start past p s →
      motive past s n → p.step event = some (q, effects) → q.service = service s' →
      n.after? (p.call? event) = some n' →
      motive (past ++ [⟨p.isClosed, s, event, effects, s'⟩]) s' n')
    {events : List Event} {scene : Scene} (h : runAll ⟨start, .fresh up⟩ events = some scene) :
    ∃ past s, History service start past scene.proxy s ∧
      past.map (·.event) = events.filterMap Event.proxy? ∧ motive past s scene.network := by
  induction events using List.reverseRecOn generalizing scene with
  | nil =>
    cases h
    exact ⟨[], s₀, .nil hs₀, rfl, init⟩
  | append_singleton events event ih =>
    rw [runAll_snoc] at h
    obtain ⟨before, hbefore, hstep⟩ := Option.bind_eq_some_iff.mp h
    obtain ⟨past, s, hist, hevents, hmotive⟩ := ih hbefore
    rw [List.filterMap_append, ← hevents]
    cases event with
    | turn up =>
      cases hstep
      exact ⟨past, s, hist, (List.append_nil _).symm, turn up hmotive⟩
    | proxy event =>
      obtain ⟨effects, hproxy, hafter⟩ := proxy_of_step hstep
      obtain ⟨s', hs'⟩ := Proxy.step_keeps_kind kind hist.service_eq hproxy
      exact ⟨_, s', hist.snoc hproxy hs', List.map_append, step hist hmotive hproxy hs' hafter⟩

end Scene

/-- A proxy is about to send a datagram on a backend socket. -/
structure Proxy.Sends (p : Proxy) (send : Except IoError Unit → Event) (socket : Nat)
    (payload : Bytes) : Prop where
  call?_eq : ∀ answer, p.call? (send answer) = some (.send socket payload answer)
  step : ∃ q effects, p.step (send (.ok ())) = some (q, effects)

namespace Scene

variable {s : Scene} {send : Except IoError Unit → Proxy.Event} {socket : Nat} {payload : Bytes}

theorem step_of_sends (h : s.proxy.Sends send socket payload)
    (hclear : s.network.refused socket = false) :
    ∃ s', s.step (.proxy (send (.ok ()))) = some s' ∧
      s'.network.sent = s.network.sent ++ [⟨socket, payload, s.network.up⟩] := by
  obtain ⟨q, effects, hstep⟩ := h.step
  have hafter : s.network.after? (some (.send socket payload (.ok ()))) = some _ :=
    Network.after?_of_answer (.sent hclear)
  rw [← h.call?_eq] at hafter
  exact ⟨_, step_proxy hstep hafter, rfl⟩

/-- The send that reports a refusal clears it, so the second one goes out. -/
theorem passes_of_sends (h : s.proxy.Sends send socket payload)
    (hretry : s.network.refused socket = true → ∃ e q effects, e.kind = .connectionRefused ∧
      s.proxy.step (send (.error e)) = some (q, effects) ∧ q.Sends send socket payload) :
    s.Passes send socket payload := by
  cases hwaits : s.network.refused socket with
  | false =>
    obtain ⟨s', hstep, hsent⟩ := step_of_sends h hwaits
    refine ⟨[.ok ()], s', by simp, ?_, hsent⟩
    simp [runAll, hstep]
  | true =>
    obtain ⟨e, q, effects, hkind, hfirst, hsends⟩ := hretry hwaits
    have hafter : s.network.after? (s.proxy.call? (send (.error e))) =
        some (s.network.setRefused socket false) := by
      rw [h.call?_eq]
      exact Network.after?_of_answer (.sendRefused hwaits hkind)
    have hclear : (s.network.setRefused socket false).refused socket = false := if_pos rfl
    obtain ⟨s', hsecond, hsent⟩ := step_of_sends
      (s := ⟨q, s.network.setRefused socket false⟩) hsends hclear
    refine ⟨[.error e, .ok ()], s', by simp, ?_, hsent⟩
    simp [runAll, step_proxy hfirst hafter, hsecond]

end Scene

end PortForward

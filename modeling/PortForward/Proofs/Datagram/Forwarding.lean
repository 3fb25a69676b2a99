import PortForward.Proofs.Datagram.Passage
import PortForward.Proofs.Datagram.Quiet

/-!
# From the clients to the backend

The loop deals with one datagram at a time: it receives it, looks up its client's socket
and sends, or gives up. So the books of the loop balance in every step. What it had in hand
and what arrived is what it has dealt with and what it has in hand now, and everything that
it sends or reports belongs to a datagram that it has dealt with.
-/

namespace PortForward

/-- What became of a datagram of a client: there was no socket to send it on, the socket
failed to send it, or it was sent. -/
inductive Fate
  | unopened (cause : IoError)
  | unsent (socket : Nat) (cause : IoError)
  | sent (socket : Nat)

/-- The socket of the client's entry when the datagram was looked up. -/
def Fate.socket? : Fate → Option Nat
  | unopened _ => none
  | unsent socket _ | sent socket => some socket

/-- A datagram that the loop has dealt with. -/
structure Dispatch where
  client : SocketAddress
  payload : Bytes
  fate : Fate

namespace Dispatch

def datagram (d : Dispatch) : SocketAddress × Bytes := (d.client, d.payload)

def lookup (d : Dispatch) : SocketAddress × Option Nat := (d.client, d.fate.socket?)

/-- What others see of a datagram: that it was sent, and the line that says so, or the line
that says why not. -/
def effects (backend : SocketAddress) (d : Dispatch) : List Effect :=
  match d.fate with
  | .sent socket =>
    [.transmit socket d.payload, .log (.forwarded d.payload.length d.client backend)]
  | .unsent _ e | .unopened e => [.log (.forwardFailed d.client e)]

end Dispatch

def Effect.isForward : Effect → Bool
  | transmit .. | log (.forwarded ..) | log (.forwardFailed ..) => true
  | _ => false

namespace DatagramRelay

/-- The datagram that the loop is dealing with. -/
def inHand (r : DatagramRelay) : List (SocketAddress × Bytes) :=
  match r.loop with
  | .looking client payload | .sending client payload _ _ => [(client, payload)]
  | _ => []

/-- The socket that the loop has found for that datagram. -/
def foundInHand (r : DatagramRelay) : List (SocketAddress × Option Nat) :=
  match r.loop with
  | .sending client _ socket _ => [(client, some socket)]
  | _ => []

end DatagramRelay

open DatagramRelay

namespace Moment

variable (m : Moment DatagramRelay)

def arrivals : List (SocketAddress × Bytes) :=
  match m.event with
  | .service (.datagram (.receive (.ok (client, payload)))) => [(client, payload.take maxPayload)]
  | _ => []

/-- The client that a step looks up, and the socket of its entry after that. -/
def lookups : List (SocketAddress × Option Nat) :=
  match m.event, m.before.loop with
  | .service (.datagram (.lookUp _)), .looking client _ =>
    [(client, (m.after.table.find? client).map Flow.socket)]
  | _, _ => []

def forwards : List Effect := m.effects.filter Effect.isForward

/-- A send fails in this step for good, which the step reports. -/
def Rejects (client : SocketAddress) (e : IoError) : Prop :=
  m.event = .service (.datagram (.send (.error e))) ∧
    Effect.log (.forwardFailed client e) ∈ m.effects

end Moment

/-- The books of the loop balance over a stretch of a run. -/
structure Dealt (backend : SocketAddress) (ds : List Dispatch)
    (arrivals : List (SocketAddress × Bytes)) (lookups : List (SocketAddress × Option Nat))
    (forwards : List Effect) (r r' : DatagramRelay) : Prop where
  datagrams : r.inHand ++ arrivals = ds.map Dispatch.datagram ++ r'.inHand
  lookups : r.foundInHand ++ lookups = ds.map Dispatch.lookup ++ r'.foundInHand
  forwards : forwards = ds.flatMap (Dispatch.effects backend)

namespace FlowTable

variable {t : FlowTable} {client : SocketAddress}

theorem find?_touch_self {flow : Flow} (h : t.find? client = some flow) (now : Nat) :
    (t.touch client now).find? client = some { flow with lastActivity := now } := by
  induction t with
  | nil => cases h
  | cons e t ih =>
    obtain ⟨c, f⟩ := e
    by_cases hc : client = c
    · subst hc
      simp only [find?, List.lookup_cons_self, Option.some.injEq] at h
      subst h
      simp [touch, find?]
    · have hne : (client == c) = false := by simpa using hc
      simp only [find?, List.lookup_cons, hne] at h
      simpa [touch, find?, List.lookup_cons, hne] using ih h

theorem find?_add_self (h : t.find? client = none) (flow : Flow) :
    (t.add client flow).find? client = some flow := by
  unfold find? at h
  simp [find?, add, List.lookup_append, h]

end FlowTable

section Step

variable {backend : SocketAddress} {r r' : DatagramRelay} {closed : Bool}
variable {turn : Turn DatagramRelay}

theorem inHand_congr (h : r'.loop = r.loop) : r'.inHand = r.inHand := by
  simp only [inHand, h]

theorem foundInHand_congr (h : r'.loop = r.loop) : r'.foundInHand = r.foundInHand := by
  simp only [foundInHand, h]

theorem Dealt.of_same (hin : r'.inHand = r.inHand) (hfound : r'.foundInHand = r.foundInHand) :
    Dealt backend [] [] [] [] r r' := by
  constructor <;> simp [hin, hfound]

theorem Dealt.of_loop_eq (h : r'.loop = r.loop) : Dealt backend [] [] [] [] r r' :=
  .of_same (inHand_congr h) (foundInHand_congr h)

theorem dealt_of_transition {event : Event} (h : Transition closed r event turn) :
    let m : Moment DatagramRelay :=
      ⟨closed, r, .service (.datagram event), turn.effects, turn.next⟩
    ∃ ds, Dealt r.backend ds m.arrivals m.lookups m.forwards r turn.next ∧
      ∀ d ∈ ds, ∀ s e, d.fate = .unsent s e → m.Rejects d.client e := by
  cases h with
  | received hloop =>
    refine ⟨[], ⟨?_, ?_, rfl⟩, nofun⟩
    · simp [Moment.arrivals, inHand, hloop]
    · simp [Moment.lookups, foundInHand, hloop]
  | found opening hloop hflow =>
    refine ⟨[], ⟨?_, ?_, rfl⟩, nofun⟩
    · simp [Moment.arrivals, inHand, hloop]
    · simp [Moment.lookups, foundInHand, hloop, FlowTable.find?_touch_self hflow]
  | @unopened client payload opening e hloop hnew =>
    refine ⟨[⟨client, payload, .unopened e⟩], ⟨?_, ?_, rfl⟩, by simp⟩
    · simp [Moment.arrivals, inHand, hloop, giveUp, Dispatch.datagram]
    · simp [Moment.lookups, foundInHand, hloop, hnew, giveUp, Dispatch.lookup, Fate.socket?]
  | @unnamed client payload opening e hloop hnew =>
    refine ⟨[⟨client, payload, .unopened e⟩], ⟨?_, ?_, rfl⟩, by simp⟩
    · simp [Moment.arrivals, inHand, hloop, giveUp, Dispatch.datagram]
    · simp [Moment.lookups, foundInHand, hloop, hnew, giveUp, Dispatch.lookup, Fate.socket?]
  | @opened client payload opening notices hloop hnew _ hnotices =>
    refine ⟨[], ⟨?_, ?_, ?_⟩, nofun⟩
    · simp [Moment.arrivals, inHand, hloop, addFlow]
    · simp [Moment.lookups, foundInHand, hloop, addFlow, FlowTable.find?_add_self hnew]
    · split at hnotices
      · obtain ⟨a, -, rfl⟩ := hnotices
        rfl
      · subst hnotices
        rfl
  | @sent client payload socket retried hloop =>
    refine ⟨[⟨client, payload, .sent socket⟩], ⟨?_, ?_, rfl⟩, by simp⟩
    · simp [Moment.arrivals, inHand, hloop, Dispatch.datagram]
    · simp [Moment.lookups, foundInHand, hloop, Dispatch.lookup, Fate.socket?]
  | refusedOnce hloop =>
    refine ⟨[], ⟨?_, ?_, rfl⟩, nofun⟩
    · simp [Moment.arrivals, inHand, hloop]
    · simp [Moment.lookups, foundInHand, hloop]
  | @sendFailed client payload socket retried e hloop =>
    refine ⟨[⟨client, payload, .unsent socket e⟩], ⟨?_, ?_, rfl⟩, ?_⟩
    · simp [Moment.arrivals, inHand, hloop, giveUp, Dispatch.datagram]
    · simp [Moment.lookups, foundInHand, hloop, giveUp, Dispatch.lookup, Fate.socket?]
    · simp [Moment.Rejects, giveUp]
  | sweep hloop =>
    have hquiet : r.sweepNow.effects.filter Effect.isForward = [] := by
      apply List.filter_eq_nil_iff.mpr
      intro effect heffect
      obtain ⟨⟨client, flow⟩, -, rfl⟩ := List.mem_map.mp heffect
      simp [Effect.isForward]
    refine ⟨[], ⟨?_, ?_, hquiet⟩, nofun⟩
    · simp [Moment.arrivals, inHand, hloop, sweepNow]
    · simp [Moment.lookups, foundInHand, hloop, sweepNow]
  | receiveFailed hloop | stopped hloop | drained hloop =>
    exact ⟨[], .of_same (by simp [inHand, hloop]) (by simp [foundInHand, hloop]), nofun⟩
  | _ => exact ⟨[], .of_loop_eq rfl, nofun⟩

theorem dealt_of_passage {closed' : Bool} {event : Proxy.Event} {effects : List Effect}
    (h : Passage r closed event effects closed' r') :
    let m : Moment DatagramRelay := ⟨closed, r, event, effects, r'⟩
    ∃ ds, Dealt r.backend ds m.arrivals m.lookups m.forwards r r' ∧
      ∀ d ∈ ds, ∀ s e, d.fate = .unsent s e → m.Rejects d.client e := by
  cases h with
  | refused => exact ⟨[], .of_loop_eq rfl, nofun⟩
  | started hidle =>
    exact ⟨[], .of_same (by simp [inHand, hidle, start]) (by simp [foundInHand, hidle, start]),
      nofun⟩
  | closed => exact ⟨[], .of_loop_eq rfl, nofun⟩
  | moved ht => exact dealt_of_transition ht
  | @finished event turn frontend ht =>
    obtain ⟨ds, hds, hunsent⟩ := dealt_of_transition ht
    have hforwards : (turn.effects ++ [Effect.log (.datagramStopped frontend)]).filter
        Effect.isForward = turn.effects.filter Effect.isForward := by
      rw [List.filter_append]
      exact List.append_nil _
    refine ⟨ds, ⟨hds.datagrams, hds.lookups, hforwards.trans hds.forwards⟩, ?_⟩
    intro d hd s e hfate
    obtain ⟨hevent, hreport⟩ := hunsent d hd s e hfate
    exact ⟨hevent, List.mem_append_left _ hreport⟩

theorem Dealt.trans {r'' : DatagramRelay} {ds ds' : List Dispatch}
    {arrivals arrivals' : List (SocketAddress × Bytes)}
    {lookups lookups' : List (SocketAddress × Option Nat)} {forwards forwards' : List Effect}
    (h : Dealt backend ds arrivals lookups forwards r r')
    (h' : Dealt backend ds' arrivals' lookups' forwards' r' r'') :
    Dealt backend (ds ++ ds') (arrivals ++ arrivals') (lookups ++ lookups')
      (forwards ++ forwards') r r'' := by
  constructor
  · rw [← List.append_assoc, h.datagrams, List.append_assoc, h'.datagrams]
    simp
  · rw [← List.append_assoc, h.lookups, List.append_assoc, h'.lookups]
    simp
  · rw [h.forwards, h'.forwards, List.flatMap_append]

end Step

theorem dealt_of_history {frontend : Address} {backend : SocketAddress} {level : Level}
    {timeout : Nat} {past : List (Moment DatagramRelay)} {p : Proxy} {r : DatagramRelay}
    (h : History .datagram (.ofDatagrams frontend backend level timeout) past p r) :
    ∃ ds, Dealt backend ds (past.flatMap Moment.arrivals) (past.flatMap Moment.lookups)
      (past.flatMap Moment.forwards) (.fresh backend level timeout) r ∧
      ∀ d ∈ ds, ∀ s e, d.fate = .unsent s e → ∃ m ∈ past, m.Rejects d.client e := by
  have hbooks := h.datagram_induction
    (motive := fun past _ r => r.backend = backend ∧
      ∃ ds, Dealt backend ds (past.flatMap Moment.arrivals) (past.flatMap Moment.lookups)
        (past.flatMap Moment.forwards) (.fresh backend level timeout) r ∧
        ∀ d ∈ ds, ∀ s e, d.fate = .unsent s e → ∃ m ∈ past, m.Rejects d.client e)
    ⟨rfl, [], .of_loop_eq rfl, nofun⟩ ?_
  · exact hbooks.1.2
  · rintro past closed r event effects closed' r' ⟨hbackend, ds, hds, hunsent⟩ hpass
    obtain ⟨ds', hds', hunsent'⟩ := dealt_of_passage hpass
    rw [hbackend] at hds'
    refine ⟨hpass.backend_eq.trans hbackend, ds ++ ds', by simpa using hds.trans hds', ?_⟩
    intro d hd s e hfate
    rcases List.mem_append.mp hd with hd | hd
    · obtain ⟨m, hm, hrejects⟩ := hunsent d hd s e hfate
      exact ⟨m, List.mem_append_left _ hm, hrejects⟩
    · exact ⟨_, List.mem_append_right _ List.mem_cons_self, hunsent' d hd s e hfate⟩

end PortForward

import PortForward.Proofs.Framed.Account
import PortForward.Proofs.Framed.Passage

/-!
# Connections of a framed proxy

A run of a framed proxy, taken apart into its connections. The steps that a run makes for one
client are the life of one relay, whatever else happens between them. Clients are numbered in
the order of their acceptance and backend sockets in the order of their opening, so each
socket belongs to one connection; a step sends on the socket of its own connection and writes
to its own client.
-/

namespace PortForward

open FramedRelay (Step Life)

namespace Moment

variable (m : Moment FramedService)

def peers : List Address :=
  match m.event with
  | .service (.framed (.accept (.ok peer))) => [peer]
  | _ => []

/-- The client whose relay opens a socket. -/
def openers : List Nat :=
  match m.event with
  | .service (.framed (.relay client (.opened (.ok ())))) => [client]
  | _ => []

/-- The step that the relay of a client makes. -/
def steps (client : Nat) : List Step :=
  match m.event with
  | .service (.framed (.relay i event)) =>
    if i = client then [⟨m.closed, m.before.opened, event, m.effects⟩] else []
  | _ => []

/-- What the step does, it does for the connection whose step it is. -/
def KeepsTo (openers : List Nat) : Prop :=
  ∀ effect ∈ m.effects,
    match effect with
    | .log _ => True
    | .transmit socket _ => ∃ client, m.steps client ≠ [] ∧ openers[socket]? = some client
    | .deliver client side _ => m.steps client ≠ [] ∧ side = .client
    | .release client => m.steps client ≠ []
    | _ => False

variable {m}

theorem KeepsTo.append {openers : List Nat} (h : m.KeepsTo openers) (more : List Nat) :
    m.KeepsTo (openers ++ more) := by
  intro effect heffect
  have hown := h effect heffect
  cases effect with
  | transmit socket payload =>
    obtain ⟨client, hsteps, hopener⟩ := hown
    obtain ⟨hlt, -⟩ := List.getElem?_eq_some_iff.mp hopener
    exact ⟨client, hsteps, (List.getElem?_append_left hlt).trans hopener⟩
  | _ => exact hown

end Moment

namespace FramedService

/-- The connections of a service after a run. -/
structure Connected (backend : SocketAddress) (past : List (Moment FramedService))
    (s : FramedService) : Prop where
  backend_eq : s.backend = backend
  accepted_eq : s.accepted = (past.flatMap Moment.peers).length
  opened_eq : s.opened = (past.flatMap Moment.openers).length
  numbered : s.Numbered
  life : ∀ client peer, (past.flatMap Moment.peers)[client]? = some peer →
    Life backend (.accepted client peer) (past.flatMap (·.steps client)) (s.relay? client)
  unborn : ∀ client, s.accepted ≤ client → past.flatMap (·.steps client) = []
  sockets : ∀ client socket, socket ∈ (past.flatMap (·.steps client)).flatMap Step.sockets ↔
    (past.flatMap Moment.openers)[socket]? = some client
  keepsTo : ∀ m ∈ past, m.KeepsTo (past.flatMap Moment.openers)

variable {backend : SocketAddress} {past : List (Moment FramedService)} {s s' : FramedService}
variable {m : Moment FramedService} {client : Nat} {peer : Address}

theorem connected_idle : Connected backend [] (.idle backend) where
  backend_eq := rfl
  accepted_eq := rfl
  opened_eq := rfl
  numbered _ _ := rfl
  life _ _ h := nomatch h
  unborn _ _ := rfl
  sockets := by simp
  keepsTo _ hm := absurd hm List.not_mem_nil

/-- A step that is none of a relay, and accepts nobody, leaves the connections as they are. -/
theorem Connected.of_eq (h : Connected backend past s) (hbackend : s'.backend = s.backend)
    (haccepted : s'.accepted = s.accepted) (hopened : s'.opened = s.opened)
    (hrelays : s'.relays = s.relays) (hpeers : m.peers = []) (hopeners : m.openers = [])
    (hsteps : ∀ client, m.steps client = []) (hlog : ∀ effect ∈ m.effects, ∃ n, effect = .log n) :
    Connected backend (past ++ [m]) s' := by
  have hrelay : ∀ client, s'.relay? client = s.relay? client := fun client => by
    rw [relay?, relay?, hrelays]
  constructor
  case backend_eq => exact hbackend.trans h.backend_eq
  case accepted_eq => simpa [hpeers] using haccepted.trans h.accepted_eq
  case opened_eq => simpa [hopeners] using hopened.trans h.opened_eq
  case numbered =>
    intro client hle
    rw [hrelay]
    exact h.numbered client (haccepted ▸ hle)
  case life => simpa [hpeers, hsteps, hrelay] using h.life
  case unborn => simpa [haccepted, hsteps] using h.unborn
  case sockets => simpa [hopeners, hsteps] using h.sockets
  case keepsTo =>
    intro m' hm'
    rw [List.flatMap_append, List.flatMap_singleton]
    rcases List.mem_append.mp hm' with hold | hnew
    · exact (h.keepsTo m' hold).append _
    · cases List.mem_singleton.mp hnew
      intro effect heffect
      obtain ⟨n, rfl⟩ := hlog effect heffect
      trivial

theorem Connected.roster (h : Connected backend past s) :
    Roster (Life backend) .accepted (past.flatMap Moment.peers)
      (fun client => past.flatMap (·.steps client)) s.relay? where
  numbered client hle := h.numbered client (h.accepted_eq ▸ hle)
  unborn client hle := h.unborn client (h.accepted_eq ▸ hle)
  life := h.life

theorem Connected.accept (h : Connected backend past s) {closed : Bool} (peer : Address) :
    let s' : FramedService :=
      { s with accepted := s.accepted + 1, relays := s.relays ++ [.accepted s.accepted peer] }
    let m : Moment FramedService := ⟨closed, s, .service (.framed (.accept (.ok peer))), [], s'⟩
    Connected backend (past ++ [m]) s' := by
  intro s' m
  have hpeers : m.peers = [peer] := rfl
  have hopeners : m.openers = [] := rfl
  have hsteps : ∀ client, m.steps client = [] := fun _ => rfl
  have haccepted : s'.accepted = (past.flatMap Moment.peers ++ [peer]).length := by
    rw [List.length_append, ← h.accepted_eq]
    rfl
  have hroster : Roster (Life backend) .accepted (past.flatMap Moment.peers ++ [peer])
      (fun client => past.flatMap (·.steps client)) s'.relay? := by
    apply h.roster.accept peer fun _ => .accepted
    intro client
    rw [← h.accepted_eq]
    exact relay?_accepted h.numbered peer
  constructor
  case backend_eq => exact h.backend_eq
  case accepted_eq => simpa [hpeers] using haccepted
  case opened_eq => simpa [hopeners] using h.opened_eq
  case numbered => exact fun client hle => hroster.numbered client (haccepted ▸ hle)
  case life => simpa [hpeers, hsteps] using hroster.life
  case unborn =>
    intro client hle
    simpa [hsteps] using hroster.unborn client (haccepted ▸ hle)
  case sockets => simpa [hopeners, hsteps] using h.sockets
  case keepsTo =>
    intro m' hm'
    rw [List.flatMap_append, List.flatMap_singleton]
    rcases List.mem_append.mp hm' with hold | hnew
    · exact (h.keepsTo m' hold).append _
    · cases List.mem_singleton.mp hnew
      intro effect heffect
      cases heffect

section Moved

variable {closed : Bool} {r : FramedRelay} {event : FramedRelay.Event} {next : Option FramedRelay}
variable {effects : List Effect} {other socket : Nat}

theorem opened_countOpened : (s.countOpened event).opened =
    s.opened + (Step.sockets ⟨closed, s.opened, event, effects⟩).length := by
  unfold countOpened Step.sockets
  split <;> simp_all

theorem openers_moved : Moment.openers ⟨closed, s, .service (.framed (.relay client event)),
      effects, s'⟩ =
    (Step.sockets ⟨closed, s.opened, event, effects⟩).map fun _ => client := by
  cases event with
  | opened result => cases result <;> rfl
  | _ => rfl

theorem steps_moved : Moment.steps ⟨closed, s, .service (.framed (.relay client event)),
      effects, s'⟩ other =
    if client = other then [⟨closed, s.opened, event, effects⟩] else [] := rfl

theorem Connected.account (h : Connected backend past s) (hr : s.relay? client = some r) :
    ∃ peer, (past.flatMap Moment.peers)[client]? = some peer ∧
      FramedRelay.Account (.accepted client peer) (past.flatMap (·.steps client)) r := by
  obtain ⟨peer, hpeer, hlife⟩ := h.roster.exists_peer hr
  exact ⟨peer, hpeer, FramedRelay.account_of_life hlife rfl⟩

theorem Connected.opener_of_socket (h : Connected backend past s) (hr : s.relay? client = some r)
    (hsocket : r.phase.socket? = some socket) :
    (past.flatMap Moment.openers)[socket]? = some client := by
  obtain ⟨peer, -, haccount⟩ := h.account hr
  apply (h.sockets client socket).mp
  rw [haccount.sockets, hsocket]
  exact List.mem_singleton_self socket

/-- A socket that is opened now gets the next number. -/
theorem Connected.sockets_moved (h : Connected backend past s) :
    socket ∈ (past.flatMap (·.steps other)).flatMap Step.sockets ++
        (if client = other then Step.sockets ⟨closed, s.opened, event, effects⟩ else []) ↔
      (past.flatMap Moment.openers ++
        (Step.sockets ⟨closed, s.opened, event, effects⟩).map fun _ => client)[socket]? =
          some other := by
  have hold := h.sockets other socket
  by_cases hnew : Step.sockets ⟨closed, s.opened, event, effects⟩ = []
  · simpa [hnew] using hold
  · have hone : Step.sockets ⟨closed, s.opened, event, effects⟩ = [s.opened] := by
      unfold Step.sockets at hnew ⊢
      split at hnew
      · rfl
      · exact absurd rfl hnew
    rw [hone, List.map_singleton, List.mem_append, hold, h.opened_eq]
    generalize past.flatMap Moment.openers = openers
    rcases Nat.lt_trichotomy socket openers.length with hlt | rfl | hgt
    · rw [List.getElem?_append_left hlt]
      have hne : ¬ socket = openers.length := by omega
      by_cases hclient : client = other
      · simp [hclient, hne]
      · simp [hclient]
    · rw [List.getElem?_concat_length]
      by_cases hclient : client = other
      · simp [hclient]
      · simp [hclient]
    · have hne : ¬ socket = openers.length := by omega
      rw [List.getElem?_eq_none (by omega), List.getElem?_eq_none (by simp; omega)]
      by_cases hclient : client = other
      · simp [hclient, hne]
      · simp [hclient]

theorem Connected.keepsTo_moved (h : Connected backend past s) (hr : s.relay? client = some r)
    (ht : FramedRelay.Transition closed s.backend s.opened r event next effects) :
    Moment.KeepsTo ⟨closed, s, .service (.framed (.relay client event)), effects, s'⟩
      (past.flatMap Moment.openers) := by
  have hclient := client_of_relay? hr
  have hself : Moment.steps
      ⟨closed, s, .service (.framed (.relay client event)), effects, s'⟩ client ≠ [] := by
    rw [steps_moved, if_pos rfl]
    exact List.cons_ne_nil _ _
  intro effect heffect
  have hown := ht.effect_own heffect
  cases effect with
  | transmit socket payload => exact ⟨client, hself, h.opener_of_socket hr hown⟩
  | deliver i side bytes =>
    obtain ⟨hi, hside⟩ := hown
    rw [hclient] at hi
    subst hi
    exact ⟨hself, hside⟩
  | release i =>
    have hi : i = client := hown.trans hclient
    subst hi
    exact hself
  | log n => trivial
  | _ => exact hown

theorem Connected.move (h : Connected backend past s) (hr : s.relay? client = some r)
    (ht : FramedRelay.Transition closed s.backend s.opened r event next effects) :
    let s' := (s.replace client next).countOpened event
    let m : Moment FramedService :=
      ⟨closed, s, .service (.framed (.relay client event)), effects, s'⟩
    Connected backend (past ++ [m]) s' := by
  intro s' m
  have hpeers : m.peers = [] := rfl
  have hopeners : m.openers =
      (Step.sockets ⟨closed, s.opened, event, effects⟩).map fun _ => client := openers_moved
  have hsteps : ∀ other, m.steps other =
      if client = other then [⟨closed, s.opened, event, effects⟩] else [] := fun _ => steps_moved
  have hnext : ∀ r', next = some r' → r'.client = client := fun r' hr' =>
    (ht.keeps hr').1.trans (client_of_relay? hr)
  have haccepted : s'.accepted = s.accepted := accepted_countOpened event
  have hgrow : ∀ other, (past ++ [m]).flatMap (·.steps other) =
      past.flatMap (·.steps other) ++
        if client = other then [⟨closed, s.opened, event, effects⟩] else [] := by
    intro other
    rw [List.flatMap_append, List.flatMap_singleton, hsteps]
  have hroster : Roster (Life backend) .accepted (past.flatMap Moment.peers)
      (fun client => (past ++ [m]).flatMap (·.steps client)) s'.relay? := by
    rw [h.backend_eq] at ht
    apply h.roster.move hr (fun start before hlife => hlife.step ht) hgrow
    · rw [relay?_countOpened, relay?_replace_self hr hnext]
    · intro other hne
      rw [relay?_countOpened, relay?_replace_of_ne hne hnext]
  constructor
  case backend_eq => exact (backend_countOpened event).trans h.backend_eq
  case accepted_eq =>
    rw [List.flatMap_append, List.flatMap_singleton, hpeers, List.append_nil, ← h.accepted_eq]
    exact haccepted
  case opened_eq =>
    rw [List.flatMap_append, List.flatMap_singleton, hopeners, List.length_append,
      List.length_map, ← h.opened_eq]
    exact opened_countOpened
  case numbered =>
    intro other hle
    rw [haccepted, h.accepted_eq] at hle
    exact hroster.numbered other hle
  case life => simpa [hpeers] using hroster.life
  case unborn =>
    intro other hle
    rw [haccepted, h.accepted_eq] at hle
    exact hroster.unborn other hle
  case sockets =>
    intro other socket
    simp only [List.flatMap_append, List.flatMap_singleton, hopeners, hsteps]
    rw [← h.sockets_moved]
    by_cases hne : client = other
    · simp [hne]
    · simp [hne]
  case keepsTo =>
    intro m' hm'
    rw [List.flatMap_append]
    apply Moment.KeepsTo.append
    rcases List.mem_append.mp hm' with hold | hnew
    · exact h.keepsTo m' hold
    · cases List.mem_singleton.mp hnew
      exact h.keepsTo_moved hr ht

end Moved

theorem connected_of_history {frontend : Address} {p : Proxy}
    (h : History .framed (.bound frontend (.framed (.idle backend))) past p s) :
    Connected backend past s := by
  refine h.framed_induction connected_idle ?_
  intro past s closed event effects s' hconnected hpassage
  cases hpassage with
  | refused | closed | started | failed | stopped =>
    refine hconnected.of_eq rfl rfl rfl rfl rfl rfl (fun _ => rfl) ?_
    simp
  | accepted => exact hconnected.accept _
  | moved hr ht => exact hconnected.move hr ht

end FramedService

end PortForward
